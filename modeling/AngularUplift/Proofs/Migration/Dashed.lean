import AngularUplift.Proofs.Construct.Totality
import AngularUplift.Proofs.Migration.PipeSpec
import AngularUplift.Proofs.Text.Spelling

/-!
# What goes by a dashed name

Components are selected by the dashed spelling of their names, and their templates and styles are looked for under it
when nothing else names them. Pipes are filed and imported under the dashed spelling of the names of their filters. A
name in camel case can be read off its dashed spelling, and the dashed spelling off each of these texts. So no two such
names meet in one of them.

## Main definitions

* `Component.OfName`, `Component.FiledUnder`, `Migration.PipeOf`: the components that a name gives a selector, those
  that it gives the names of their files as well, and the pipes that it gives a path.

## Main statements

* `OutputSettings.injective_artifactPath`, `injective_pipeModule`: a path of a file and the path of an import tell the
  key that they are made with.
* `camelToDash_reversible`: names in camel case can be read back, and are told apart by all that goes by them.
-/

namespace AngularUplift

/-! ### Keys in paths -/

/-- The key of a generated file can be read off its path, where it stands twice. -/
theorem OutputSettings.injective_artifactPath (s : OutputSettings) (suffix : Text) :
    Function.Injective fun key => s.artifactPath key suffix := by
  intro key other h
  simp only [artifactPath, List.append_assoc, List.append_cancel_left_eq] at h
  -- Both paths have the same length, and so have both keys.
  have hlength := congrArg List.length h
  simp only [List.length_append] at hlength
  exact (List.append_inj h (by omega)).1

/-- The key of a pipe can be read off the path of its import. -/
theorem camelToDash_eq_of_pipeModule_eq {name other suffix : Text}
    (h : pipeModule name suffix = pipeModule other suffix) :
    Text.camelToDash name = Text.camelToDash other := by
  let s : OutputSettings := { generatedFolder := [], generatedPrefix := suffix }
  have hname : pipeModule name suffix = _ := s.pipeModule_eq_artifactPath name
  have hother : pipeModule other suffix = _ := s.pipeModule_eq_artifactPath other
  rw [hname, hother] at h
  exact OutputSettings.injective_artifactPath _ _ h

/-! ### Components and pipes of a name -/

namespace Component

/-- What legacy components with a name become. -/
def OfName (name : Text) (component : Component) : Prop :=
  ∃ legacy controller key, legacy.name = name ∧ (ofLegacy legacy controller key).outcome = .ok component

/-- What legacy components with a name become if nothing but the name is there to file them under. -/
def FiledUnder (name : Text) (component : Component) : Prop :=
  ∃ legacy controller, legacy.name = name ∧ templateKey legacy.templateUrl = [] ∧
    (ofLegacy legacy controller []).outcome = .ok component

/-- The selector comes from the name of the legacy component, and the names of the files come from the first key there
is. -/
theorem settles_ofLegacy_key (legacy : LegacyComponent) (controller : Controller) (key : Text) :
    (ofLegacy legacy controller key).Settles (fun _ => True) fun component =>
      component.selector = Text.camelToDash legacy.name ∧
      component.templateUrl = txt "./" ++
        firstNonEmpty [key, templateKey legacy.templateUrl, Text.camelToDash legacy.name] ++ txt ".template.html" ∧
      component.styleUrl = txt "./" ++
        firstNonEmpty [key, templateKey legacy.templateUrl, Text.camelToDash legacy.name] ++ txt ".scss" := by
  have hinjections : Outcome (fun _ => True) (fun _ => True) (Variable.ofNames controller.inject) := by
    cases Variable.ofNames controller.inject with
    | ok injections => exact .ok trivial
    | error fault => exact .error trivial
  unfold ofLegacy
  refine (Logged.Settles.tell _).bind fun _ _ => ?_
  exact (Logged.Settles.ofExcept hinjections).bind fun _ _ => .pure ⟨rfl, rfl, rfl⟩

/-- The last of the keys is taken if the others are empty. -/
theorem firstNonEmpty_nil_nil (text : Text) : firstNonEmpty [[], [], text] = text := by
  cases text <;> rfl

theorem OfName.selector_eq {name : Text} {component : Component} (h : OfName name component) :
    component.selector = Text.camelToDash name := by
  obtain ⟨legacy, controller, key, rfl, hcomponent⟩ := h
  exact ((settles_ofLegacy_key legacy controller key).of_ok hcomponent).1

theorem FiledUnder.urls_eq {name : Text} {component : Component} (h : FiledUnder name component) :
    component.templateUrl = txt "./" ++ Text.camelToDash name ++ txt ".template.html" ∧
      component.styleUrl = txt "./" ++ Text.camelToDash name ++ txt ".scss" := by
  obtain ⟨legacy, controller, rfl, htemplate, hcomponent⟩ := h
  obtain ⟨-, hfiles⟩ := (settles_ofLegacy_key legacy controller []).of_ok hcomponent
  rwa [htemplate, firstNonEmpty_nil_nil] at hfiles

end Component

/-- The pipes that filters with a name become. -/
def Migration.PipeOf (output : OutputSettings) (name : Text) (pipe : Artifact) : Prop :=
  ∃ filter journal, filter.name = name ∧ ((oneFilter output filter).runFrom journal).1 = .ok pipe

theorem Migration.PipeOf.path_eq {output : OutputSettings} {name : Text} {pipe : Artifact}
    (h : PipeOf output name pipe) :
    pipe.path = output.artifactPath (Text.camelToDash name) (txt "pipe.ts") := by
  obtain ⟨filter, journal, rfl, hpipe⟩ := h
  exact (yields_oneFilter output filter).of_ok journal pipe hpipe

/-! ### Names that are told apart -/

/-- A name in camel case is the camel-case spelling of its dashed spelling, and both have the same Pascal case. So two
such names have different dashed spellings, and what is made of these differs as well: the selectors of components,
their templates and styles where these go by the name, the paths of pipes and of all files that go by the name, and the
paths that pipes are imported from. -/
theorem camelToDash_reversible :
    (∀ name, Text.IsCamelCase name →
      Text.dashToCamel (Text.camelToDash name) = name ∧
        Text.pascalCase (Text.camelToDash name) = Text.pascalCase name) ∧
    ∀ name other, Text.IsCamelCase name → Text.IsCamelCase other → name ≠ other →
      Text.camelToDash name ≠ Text.camelToDash other ∧
      (∀ mine theirs, Component.OfName name mine → Component.OfName other theirs → mine.selector ≠ theirs.selector) ∧
      (∀ mine theirs, Component.FiledUnder name mine → Component.FiledUnder other theirs →
        mine.templateUrl ≠ theirs.templateUrl ∧ mine.styleUrl ≠ theirs.styleUrl) ∧
      (∀ output mine theirs, Migration.PipeOf output name mine → Migration.PipeOf output other theirs →
        mine.path ≠ theirs.path) ∧
      (∀ (output : OutputSettings) suffix,
        output.artifactPath (Text.camelToDash name) suffix ≠ output.artifactPath (Text.camelToDash other) suffix) ∧
      ∀ suffix, pipeModule name suffix ≠ pipeModule other suffix := by
  refine ⟨fun name hname => ⟨hname.dashToCamel_camelToDash, hname.pascalCase_camelToDash⟩, ?_⟩
  intro name other hname hother hne
  have hkeys : Text.camelToDash name ≠ Text.camelToDash other := Text.injOn_camelToDash.ne hname hother hne
  have hpaths : ∀ (output : OutputSettings) suffix,
      output.artifactPath (Text.camelToDash name) suffix ≠ output.artifactPath (Text.camelToDash other) suffix :=
    fun output suffix => (output.injective_artifactPath suffix).ne hkeys
  -- What stands around the key in the name of a file is the same for both.
  have hfiles : ∀ before after : Text,
      before ++ Text.camelToDash name ++ after ≠ before ++ Text.camelToDash other ++ after :=
    fun before after h => hkeys (List.append_cancel_left (List.append_cancel_right h))
  refine ⟨hkeys, ?selector, ?urls, ?pipe, hpaths, fun suffix h => hkeys (camelToDash_eq_of_pipeModule_eq h)⟩
  case selector =>
    intro mine theirs hmine htheirs
    rwa [hmine.selector_eq, htheirs.selector_eq]
  case urls =>
    intro mine theirs hmine htheirs
    obtain ⟨htemplate, hstyle⟩ := hmine.urls_eq
    obtain ⟨htemplate', hstyle'⟩ := htheirs.urls_eq
    rw [htemplate, hstyle, htemplate', hstyle']
    exact ⟨hfiles _ _, hfiles _ _⟩
  case pipe =>
    intro output mine theirs hmine htheirs
    rw [hmine.path_eq, htheirs.path_eq]
    exact hpaths output _

/-- Capitals that stand together are told from a single one. -/
theorem camelToDash_reversible_initials :
    (Text.IsCamelCase (txt "$userIDs2") ∧ Text.IsCamelCase (txt "$userIds2") ∧ txt "$userIDs2" ≠ txt "$userIds2") ∧
      Text.dashToCamel (txt "$user-i-ds2") = txt "$userIDs2" ∧
      Text.pascalCase (txt "$user-i-ds2") = Text.pascalCase (txt "$userIDs2") ∧
      (∃ mine theirs, Component.FiledUnder (txt "$userIDs2") mine ∧ Component.FiledUnder (txt "$userIds2") theirs ∧
        mine.templateUrl ≠ theirs.templateUrl) ∧
      pipeModule (txt "$userIDs2") [] ≠ pipeModule (txt "$userIds2") [] := by
  have hname : Text.IsCamelCase (txt "$userIDs2") := by decide
  have hother : Text.IsCamelCase (txt "$userIds2") := by decide
  have hne : txt "$userIDs2" ≠ txt "$userIds2" := by decide
  obtain ⟨hcamel, hpascal⟩ := camelToDash_reversible.1 _ hname
  obtain ⟨-, -, hurls, -, -, himport⟩ := camelToDash_reversible.2 _ _ hname hother hne
  have hmine : Component.FiledUnder (txt "$userIDs2") _ := ⟨{ name := txt "$userIDs2" }, {}, rfl, rfl, rfl⟩
  have htheirs : Component.FiledUnder (txt "$userIds2") _ := ⟨{ name := txt "$userIds2" }, {}, rfl, rfl, rfl⟩
  exact ⟨⟨hname, hother, hne⟩, hcamel, hpascal, ⟨_, _, hmine, htheirs, (hurls _ _ hmine htheirs).1⟩, himport []⟩

end AngularUplift
