import AngularUplift.Proofs.Migration.Batch

/-!
# Where generated files go

A generated file is named by a key and a suffix, in the folder of the key below the folder of its kind.

## Main definitions

* `OutputSettings.artifactPath`: the path of a generated file.
* `Source.namingKeys`, `ConstructKind.suffixes`: the keys and suffixes that the files of a source are named by.
* `Migration.Yields`: a step that returns only values with a property.

## Main statements

* `Batch.path_of_mem_produced`: the path of every file that a source gives.
-/

namespace AngularUplift

/-! ### Names -/

/-- The path of the file with a key and a suffix. -/
def OutputSettings.artifactPath (s : OutputSettings) (key suffix : Text) : Text :=
  s.generatedFolder ++ ['/'] ++ key ++ ['/'] ++ (key ++ s.generatedPrefix ++ ['.'] ++ suffix)

/-- The suffixes of the files of a kind. -/
def ConstructKind.suffixes : ConstructKind → List Text
  | .component | .controller =>
    [txt "component.ts", txt "module.ts", txt "template.html", txt "component.spec.ts", txt "controller.spec.ts"]
  | .directive => [txt "component.js", txt "controller.js", txt "upgraded.component.ts"]
  | .attributeDirective => [txt "directive.ts"]
  | .service => [txt "service.ts", txt "module.ts", txt "service.spec.ts"]
  | .filter => [txt "pipe.ts", txt "pipe.spec.ts"]
  | .constant | .spec => []

/-- The key of a component's files: its template's, or else its source's. -/
def Source.componentKey (source : Source) (legacy : LegacyComponent) : Text :=
  if (templateKey legacy.templateUrl).isEmpty then source.key else templateKey legacy.templateUrl

/-- The keys that the files of a source are named by. Constants are not named by a key, and unit tests become no
files of their own. -/
def Source.namingKeys (source : Source) : List Text :=
  match source.kind with
  | .component => (LegacyComponent.analyze source.text).toOption.toList.map source.componentKey
  | .filter =>
    ((Filter.analyze source.text).outcome.toOption.getD []).map fun filter => Text.camelToDash filter.name
  | .controller | .directive | .attributeDirective | .service => [source.key]
  | .constant | .spec => []

namespace Migration

variable {α β : Type}

/-- A step that returns only values with a property. -/
structure Yields (P : α → Prop) (step : Migration α) : Prop where
  /-- A value that is returned has the property, whatever the journal holds. -/
  of_ok : ∀ journal value, (step.runFrom journal).1 = .ok value → P value

namespace Yields

variable {P : α → Prop} {Q : β → Prop}

protected theorem pure {value : α} (h : P value) : Yields P (pure value : Migration α) where
  of_ok := by
    rintro journal _ ⟨⟩
    exact h

protected theorem throw (fault : Fault) : Yields P (throw fault : Migration α) where
  of_ok := by rintro journal _ ⟨⟩

/-- The second of two steps begins with a value that the first one returns. -/
protected theorem bind {step : Migration α} {next : α → Migration β} (hstep : Yields P step)
    (hnext : ∀ value, P value → Yields Q (next value)) : Yields Q (step >>= next) where
  of_ok := by
    intro journal result h
    have hfirst := hstep.of_ok journal
    rw [runFrom_bind] at h
    generalize step.runFrom journal = first at hfirst h
    obtain ⟨outcome, middle⟩ := first
    cases outcome with
    | ok value => exact (hnext value (hfirst value rfl)).of_ok middle result h
    | error fault => exact nomatch h

/-- What is known of a value may be weakened. -/
theorem imp {Q : α → Prop} {step : Migration α} (h : Yields P step) (himp : ∀ value, P value → Q value) :
    Yields Q step where
  of_ok journal value hvalue := himp value (h.of_ok journal value hvalue)

/-- What a step returns that comes after another one, whatever the other one returns. -/
theorem after {step : Migration α} {next : α → Migration β} (hnext : ∀ value, Yields Q (next value)) :
    Yields Q (step >>= next) :=
  Yields.bind (P := fun _ => True) ⟨fun _ _ _ => trivial⟩ fun value _ => hnext value

/-- A step that is made only under a condition. -/
theorem onlyIf {c : Prop} [Decidable c] {step : Migration Unit} {next : Unit → Migration β}
    (hnext : ∀ value, Yields Q (next value)) : Yields Q (if c then step >>= next else next ()) := by
  split
  · exact .after hnext
  · exact hnext ()

/-- A step that is made unless a condition holds. -/
theorem exceptIf {c : Prop} [Decidable c] {step : Migration Unit} {next : Unit → Migration β}
    (hnext : ∀ value, Yields Q (next value)) : Yields Q (if c then next () else step >>= next) := by
  split
  · exact hnext ()
  · exact .after hnext

/-- The values of the same step for each item of a list. -/
theorem mapM {step : α → Migration β} {items : List α} (hstep : ∀ item ∈ items, Yields Q (step item)) :
    Yields (fun values => ∀ value ∈ values, Q value) (items.mapM step) := by
  induction items with
  | nil => exact .pure fun _ hmem => absurd hmem List.not_mem_nil
  | cons item items ih =>
    rw [List.mapM_cons]
    refine (hstep item List.mem_cons_self).bind fun value hvalue => ?_
    refine (ih fun later hlater => hstep later (List.mem_cons_of_mem _ hlater)).bind fun values hvalues => ?_
    exact .pure (List.forall_mem_cons.2 ⟨hvalue, hvalues⟩)

/-- A step that writes nothing returns its outcome. -/
theorem ofExcept (outcome : Except Fault α) : Yields (fun value => outcome = .ok value) (ofExcept outcome) where
  of_ok := by
    intro journal value h
    rwa [runFrom_ofExcept] at h

/-- A step that writes only log records returns the outcome of the computation. -/
theorem ofLogged (work : Logged α) : Yields (fun value => work.outcome = .ok value) (ofLogged work) := by
  unfold Migration.ofLogged
  rw [Logged.outcome]
  generalize work.runFrom [] = ran
  obtain ⟨outcome, records⟩ := ran
  refine .after fun _ => ?_
  cases outcome with
  | ok value => exact .pure rfl
  | error fault => exact .throw fault

/-- A generated file stands at the path of its key and suffix. -/
theorem artifact (kind : ConstructKind) (s : OutputSettings) (key suffix content : Text) :
    Yields (fun made => made.path = s.artifactPath key suffix) (artifact kind s key suffix content) := by
  unfold Migration.artifact
  refine (ofExcept _).bind fun name hname => .after fun _ => .pure ?_
  rw [OutputSettings.fileName] at hname
  split at hname
  · exact nomatch hname
  · obtain rfl := Except.ok.inj hname
    rfl

end Yields

/-! ### The files of each kind -/

/-- Files that are named by keys and by suffixes of a kind. -/
def NamedBy (s : OutputSettings) (keys : List Text) (kind : ConstructKind) (artifacts : List Artifact) : Prop :=
  ∀ made ∈ artifacts, ∃ key ∈ keys, ∃ suffix ∈ kind.suffixes, made.path = s.artifactPath key suffix

section Files

variable {s : OutputSettings} {keys : List Text} {kind : ConstructKind}

theorem namedBy_nil : NamedBy s keys kind [] := fun _ hmem => absurd hmem List.not_mem_nil

theorem NamedBy.cons {made : Artifact} {others : List Artifact} {key suffix : Text}
    (hmade : made.path = s.artifactPath key suffix) (hkey : key ∈ keys) (hsuffix : suffix ∈ kind.suffixes)
    (hothers : NamedBy s keys kind others) : NamedBy s keys kind (made :: others) :=
  List.forall_mem_cons.2 ⟨⟨key, hkey, suffix, hsuffix, hmade⟩, hothers⟩

theorem NamedBy.append {artifacts others : List Artifact} (h : NamedBy s keys kind artifacts)
    (hothers : NamedBy s keys kind others) : NamedBy s keys kind (artifacts ++ others) :=
  List.forall_mem_append.2 ⟨h, hothers⟩

/-- One generated file, alone in a list. -/
theorem yields_singleton {shown : ConstructKind} {key suffix content : Text} (hkey : key ∈ keys)
    (hsuffix : suffix ∈ kind.suffixes) :
    Yields (NamedBy s keys kind) (do return [← artifact shown s key suffix content]) :=
  (Yields.artifact ..).bind fun _ hmade => .pure (namedBy_nil.cons hmade hkey hsuffix)

end Files

theorem yields_templateArtifacts (plan : ComponentPlan) (source : Source) (key : Text) :
    Yields (NamedBy plan.settings.toOutputSettings [key] .component) (templateArtifacts plan source key) := by
  unfold templateArtifacts
  split
  · exact .pure namedBy_nil
  · extract_lets converted rest
    clear_value converted
    exact .exceptIf fun _ => yields_singleton List.mem_cons_self (by decide)

theorem yields_specArtifacts (plan : ComponentPlan) (source : Source) (key : Text) (context : SpecContext)
    (role : CompanionRole) {suffix : Text} (hsuffix : suffix ∈ ConstructKind.component.suffixes) :
    Yields (NamedBy plan.settings.toOutputSettings [key] .component)
      (specArtifacts plan source key context role suffix) := by
  unfold specArtifacts
  refine .after fun suite => ?_
  split
  · exact .pure namedBy_nil
  · exact .after fun content => yields_singleton List.mem_cons_self hsuffix

/-- The files of a component or of a controller. -/
theorem yields_emitComponent (plan : ComponentPlan) (source : Source) (component : Component) (key : Text) :
    Yields (NamedBy plan.settings.toOutputSettings [key] .component)
      (emitComponent plan source component key) := by
  unfold emitComponent
  refine .after fun componentFile => .after fun moduleFile => ?_
  refine (Yields.artifact ..).bind fun class_ hclass => (Yields.artifact ..).bind fun module_ hmodule => ?_
  refine (yields_templateArtifacts ..).bind fun template htemplate => ?_
  refine (yields_specArtifacts plan source key _ .spec (by decide)).bind fun spec hspec => ?_
  refine (yields_specArtifacts plan source key _ .controllerSpec (by decide)).bind fun controllerSpec hcontroller => ?_
  refine .exceptIf fun _ => .after fun _ => .after fun _ => .after fun _ => .pure ?_
  have hfirst : NamedBy plan.settings.toOutputSettings [key] .component [class_, module_] :=
    (namedBy_nil.cons hmodule List.mem_cons_self (by decide)).cons hclass List.mem_cons_self (by decide)
  exact ((hfirst.append htemplate).append hspec).append hcontroller

theorem yields_component (settings : Settings) (source : Source) (hkind : source.kind = .component) :
    Yields (NamedBy settings.components.toOutputSettings source.namingKeys .component)
      (component settings source) := by
  unfold component
  refine (Yields.ofExcept _).bind fun legacy hlegacy => .onlyIf fun _ => ?_
  have hkeys : source.namingKeys = [source.componentKey legacy] := by
    rw [Source.namingKeys, hkind, hlegacy]
    rfl
  rw [hkeys]
  refine .after fun controller => .after fun component => .after fun _ => ?_
  exact yields_emitComponent ⟨.component, settings.components, settings.moduleName, settings.i18n⟩ source component
    (source.componentKey legacy)

theorem yields_controller (settings : Settings) (source : Source) :
    Yields (NamedBy settings.controllers.toOutputSettings [source.key] .controller)
      (controller settings source) := by
  unfold controller
  refine .after fun registered => .onlyIf fun _ => .after fun component => .after fun _ => ?_
  exact yields_emitComponent ⟨.controller, settings.controllers, settings.moduleName, settings.i18n⟩ source component
    source.key

theorem yields_directive (settings : Settings) (source : Source) :
    Yields (NamedBy settings.directives.toOutputSettings [source.key] .directive) (directive settings source) := by
  unfold directive
  refine .after fun directive => .onlyIf fun _ => .after fun controller => .after fun body => ?_
  refine (Yields.artifact ..).bind fun script hscript => ?_
  refine (Yields.artifact ..).bind fun controllerScript hcontroller => ?_
  have hupgrade : ∀ bindings, Yields (NamedBy settings.directives.toOutputSettings [source.key] .directive)
      (upgradeArtifacts settings.directives source directive bindings) := by
    intro bindings
    unfold upgradeArtifacts
    split
    · exact .after fun inputs => yields_singleton List.mem_cons_self (by decide)
    · exact .pure namedBy_nil
  refine (hupgrade _).bind fun upgrade hupgraded => .after fun _ => .after fun _ => .exceptIf fun _ => ?_
  refine .after fun _ => .after fun _ => .pure ?_
  exact ((namedBy_nil.cons hcontroller List.mem_cons_self (by decide)).cons hscript List.mem_cons_self
    (by decide)).append hupgraded

theorem yields_attributeDirective (settings : Settings) (source : Source) :
    Yields (NamedBy settings.attributeDirectives [source.key] .attributeDirective)
      (attributeDirective settings source) := by
  unfold attributeDirective
  refine .after fun directive => .onlyIf fun _ => (Yields.artifact ..).bind fun made hmade => .after fun _ => ?_
  refine .onlyIf fun _ => .after fun _ => .after fun _ => .pure ?_
  exact namedBy_nil.cons hmade List.mem_cons_self (by decide)

theorem yields_service (settings : Settings) (source : Source) :
    Yields (NamedBy settings.services.toOutputSettings [source.key] .service) (service settings source) := by
  unfold service
  refine .after fun service => .onlyIf fun _ => .after fun injectable => ?_
  refine .after fun serviceFile => .after fun moduleFile => ?_
  refine (Yields.artifact ..).bind fun class_ hclass => (Yields.artifact ..).bind fun module_ hmodule => ?_
  refine .after fun suite => ?_
  -- What comes after the spec is the same with and without one.
  extract_lets rest
  have hfirst : NamedBy settings.services.toOutputSettings [source.key] .service [class_, module_] :=
    (namedBy_nil.cons hmodule List.mem_cons_self (by decide)).cons hclass List.mem_cons_self (by decide)
  have hrest : ∀ spec, NamedBy settings.services.toOutputSettings [source.key] .service spec →
      Yields (NamedBy settings.services.toOutputSettings [source.key] .service) (rest spec) := fun spec hspec =>
    .after fun _ => .exceptIf fun _ => .onlyIf fun _ => .after fun _ => .after fun _ => .pure (hfirst.append hspec)
  split
  · exact (Yields.pure namedBy_nil).bind hrest
  · refine .after fun content => (Yields.artifact ..).bind fun spec hspec => ?_
    exact (Yields.pure (namedBy_nil.cons hspec List.mem_cons_self (by decide))).bind hrest

/-- A pipe stands in the folder of its filter. -/
theorem yields_oneFilter (output : OutputSettings) (filter : Filter) :
    Yields (fun made => made.path = output.artifactPath (Text.camelToDash filter.name) (txt "pipe.ts"))
      (oneFilter output filter) := by
  unfold oneFilter
  refine (Yields.artifact ..).bind fun made hmade => .after fun _ => ?_
  exact .onlyIf fun _ => .onlyIf fun _ => .pure hmade

/-- A path of a file that filters give: that of the pipe for one of them, or that of the spec, in the folder of the
first one. -/
inductive FilterPath (output : OutputSettings) (filters : List Filter) : (path : Text) → Prop
  /-- The path of a pipe. -/
  | pipe {filter : Filter} (hfilter : filter ∈ filters) :
      FilterPath output filters (output.artifactPath (Text.camelToDash filter.name) (txt "pipe.ts"))
  /-- The path of the spec. -/
  | spec {first : Filter} {others : List Filter} (hfilters : filters = first :: others) :
      FilterPath output filters (output.artifactPath (Text.camelToDash first.name) (txt "pipe.spec.ts"))

/-- Files of the filters of a source: the pipes and the spec. -/
def FilterFiles (settings : Settings) (source : Source) (artifacts : List Artifact) : Prop :=
  ∃ filters, (Filter.analyze source.text).outcome = .ok filters ∧
    ∀ made ∈ artifacts, FilterPath settings.filters filters made.path

theorem yields_filterFiles (settings : Settings) (source : Source) :
    Yields (FilterFiles settings source) (filter settings source) := by
  unfold filter
  refine (Yields.ofLogged _).bind fun filters hfilters => ?_
  split
  · exact .throw _
  · next first others =>
    have hpipe : ∀ filter ∈ first :: others,
        Yields (fun made => FilterPath settings.filters (first :: others) made.path)
          (oneFilter settings.filters filter) :=
      fun filter hfilter => (yields_oneFilter settings.filters filter).imp fun made hmade => hmade ▸ .pipe hfilter
    refine (Yields.mapM hpipe).bind fun pipes hpipes => ?_
    refine .after fun suite => ?_
    -- As for services, what comes after the spec is stated once.
    extract_lets rest
    have hrest : ∀ spec : List Artifact,
        (∀ made ∈ spec, FilterPath settings.filters (first :: others) made.path) →
          Yields (FilterFiles settings source) (rest spec) :=
      fun spec hspec => .after fun _ => .after fun _ =>
        .pure ⟨first :: others, hfilters, List.forall_mem_append.2 ⟨hpipes, hspec⟩⟩
    split
    · exact (Yields.pure (List.forall_mem_nil _)).bind hrest
    · refine .after fun content => (Yields.artifact ..).bind fun spec hspec => ?_
      exact (Yields.pure (List.forall_mem_singleton.2 (hspec ▸ .spec rfl))).bind hrest

theorem yields_filter (settings : Settings) (source : Source) (hkind : source.kind = .filter) :
    Yields (NamedBy settings.filters source.namingKeys .filter) (filter settings source) := by
  refine (yields_filterFiles settings source).imp fun artifacts hfiles made hmade => ?_
  obtain ⟨filters, hfilters, hpath⟩ := hfiles
  have hkeys : source.namingKeys = filters.map fun filter => Text.camelToDash filter.name := by
    rw [Source.namingKeys, hkind, hfilters]
    rfl
  rw [hkeys]
  have hcases := hpath made hmade
  generalize made.path = path at hcases
  cases hcases with
  | pipe hfilter => exact ⟨_, List.mem_map_of_mem hfilter, txt "pipe.ts", by decide, rfl⟩
  | spec hfirst =>
    subst hfirst
    exact ⟨_, List.mem_map_of_mem List.mem_cons_self, txt "pipe.spec.ts", by decide, rfl⟩

/-- Files that are named by the keys of a source and the suffixes of its kind, in the section of its kind. -/
def NamedFor (settings : Settings) (source : Source) (artifacts : List Artifact) : Prop :=
  ∃ output ∈ settings.section? source.kind, NamedBy output source.namingKeys source.kind artifacts

theorem Yields.namedFor {settings : Settings} {source : Source} {output : OutputSettings} {kind : ConstructKind}
    {keys : List Text} {step : Migration (List Artifact)} (hkind : source.kind = kind)
    (houtput : settings.section? kind = some output) (hkeys : source.namingKeys = keys)
    (h : Yields (NamedBy output keys kind) step) : Yields (NamedFor settings source) step where
  of_ok := by
    subst hkind hkeys
    exact fun journal artifacts hok => ⟨output, houtput, h.of_ok journal artifacts hok⟩

end Migration

open Migration in
/-- The files of a source of any kind. -/
theorem yields_migrate (settings : Settings) {source : Source} (hconstant : source.kind ≠ .constant) :
    Yields (NamedFor settings source) (migrate settings source) := by
  unfold migrate
  split
  · next hkind => exact .namedFor hkind rfl rfl (yields_component settings source hkind)
  -- These four go by the key of the file alone.
  · next hkind => exact .namedFor hkind rfl (by rw [Source.namingKeys, hkind]) (yields_controller settings source)
  · next hkind => exact .namedFor hkind rfl (by rw [Source.namingKeys, hkind]) (yields_directive settings source)
  · next hkind =>
    exact .namedFor hkind rfl (by rw [Source.namingKeys, hkind]) (yields_attributeDirective settings source)
  · next hkind => exact .namedFor hkind rfl (by rw [Source.namingKeys, hkind]) (yields_service settings source)
  · next hkind => exact .namedFor hkind rfl rfl (yields_filter settings source hkind)
  · next hkind => exact absurd hkind hconstant
  · exact .throw _

namespace Batch

/-- A source of constants gives no files of its own. -/
theorem produced_constant (settings : Settings) {source : Source} (h : source.kind = .constant) :
    produced settings source = [] := by
  obtain ⟨hsome, hnone⟩ := source.outcome_constant settings h
  by_cases hdeclared : source.declared = []
  · obtain ⟨fault, hfault⟩ := hnone hdeclared
    rw [produced, hfault]
  · rw [produced, hsome hdeclared]

/-- Every file that a source gives is named by one of its keys and by a suffix of its kind, in the section of its
kind. -/
theorem path_of_mem_produced {settings : Settings} {source : Source} {made : Artifact}
    (h : made ∈ produced settings source) :
    ∃ output ∈ settings.section? source.kind, ∃ key ∈ source.namingKeys, ∃ suffix ∈ source.kind.suffixes,
      made.path = output.artifactPath key suffix := by
  by_cases hconstant : source.kind = .constant
  · rw [produced_constant settings hconstant] at h
    exact absurd h List.not_mem_nil
  · rw [produced] at h
    split at h
    · next artifacts houtcome =>
      obtain ⟨output, houtput, hnamed⟩ := (yields_migrate settings hconstant).of_ok {} artifacts houtcome
      exact ⟨output, houtput, hnamed made h⟩
    · exact absurd h List.not_mem_nil

end Batch

/-! ### Default folders -/

/-- The settings in which nothing was set. -/
def Settings.unset : Settings := { root := {} }

/-- The folder for the files of a kind when nothing was set. -/
def ConstructKind.defaultFolder (kind : ConstructKind) : Text :=
  ((Settings.unset.section? kind).map (·.generatedFolder)).getD []

/-- Settings in which every section puts its files where they go, and names them as they are named, when nothing was
set. All other options are free. -/
structure Settings.DefaultPlaces (s : Settings) : Prop where
  /-- The folder of each kind, with no addition to the names. -/
  sections : ∀ kind, ∀ output ∈ s.section? kind,
    output.generatedFolder = kind.defaultFolder ∧ output.generatedPrefix = []
  /-- The file of the constants. -/
  constantsFile : s.constants.generatedFile = Settings.unset.constants.generatedFile

/-- The settings in which nothing was set are such settings. -/
theorem Settings.defaultPlaces_unset (root : Path) : ({ root } : Settings).DefaultPlaces where
  sections := by
    intro kind output houtput
    cases kind <;> cases houtput <;> exact ⟨rfl, rfl⟩
  constantsFile := rfl

/-- The path of a file of a kind in its default folder. -/
def ConstructKind.defaultPath (kind : ConstructKind) (key suffix : Text) : Text :=
  kind.defaultFolder ++ '/' :: (key ++ '/' :: (key ++ '.' :: suffix))

theorem Settings.DefaultPlaces.artifactPath_eq {s : Settings} (h : s.DefaultPlaces) {kind : ConstructKind}
    {output : OutputSettings} (houtput : output ∈ s.section? kind) (key suffix : Text) :
    output.artifactPath key suffix = kind.defaultPath key suffix := by
  obtain ⟨hfolder, haddition⟩ := h.sections kind output houtput
  simp [OutputSettings.artifactPath, ConstructKind.defaultPath, hfolder, haddition]

namespace ConstructKind

/-- The default folders of two kinds are apart: neither lies in the other, and they are not the same. -/
theorem eq_of_folder_within {kind other : ConstructKind}
    (h : kind.defaultFolder ++ ['/'] <+: other.defaultFolder ++ ['/']) : kind = other := by
  revert h
  cases kind <;> cases other <;> decide

/-- Paths that go through the default folders of two kinds are different. -/
theorem eq_of_folder_append_eq {kind other : ConstructKind} {rest rest' : Text}
    (h : kind.defaultFolder ++ '/' :: rest = other.defaultFolder ++ '/' :: rest') : kind = other := by
  have hfirst : kind.defaultFolder ++ ['/'] <+: other.defaultFolder ++ '/' :: rest' := ⟨rest, by simpa using h⟩
  have hsecond : other.defaultFolder ++ ['/'] <+: other.defaultFolder ++ '/' :: rest' := ⟨rest', by simp⟩
  rcases List.prefix_or_prefix_of_prefix hfirst hsecond with hwithin | hwithin
  · exact eq_of_folder_within hwithin
  · exact (eq_of_folder_within hwithin).symm

/-- No suffix of a kind ends with another one after a dot. -/
theorem eq_of_suffix_suffix {kind : ConstructKind} {suffix other : Text} (hsuffix : suffix ∈ kind.suffixes)
    (hother : other ∈ kind.suffixes) (h : '.' :: suffix <:+ '.' :: other) : suffix = other := by
  have hall : ∀ kind : ConstructKind, ∀ suffix ∈ kind.suffixes, ∀ other ∈ kind.suffixes,
      '.' :: suffix <:+ '.' :: other → suffix = other := by
    intro kind
    cases kind <;> decide
  exact hall kind suffix hsuffix other hother h

/-- A name of a file of a kind tells its key and its suffix. -/
theorem name_inj {kind : ConstructKind} {stem stem' suffix suffix' : Text} (hsuffix : suffix ∈ kind.suffixes)
    (hsuffix' : suffix' ∈ kind.suffixes) (h : stem ++ '.' :: suffix = stem' ++ '.' :: suffix') :
    stem = stem' ∧ suffix = suffix' := by
  -- Both suffixes are at the end of one text, so one of them ends with the other.
  have hfirst : '.' :: suffix <:+ stem' ++ '.' :: suffix' := ⟨stem, h⟩
  have hsecond : '.' :: suffix' <:+ stem' ++ '.' :: suffix' := ⟨stem', rfl⟩
  have heq : suffix = suffix' := by
    rcases List.suffix_or_suffix_of_suffix hfirst hsecond with hlast | hlast
    · exact eq_of_suffix_suffix hsuffix hsuffix' hlast
    · exact (eq_of_suffix_suffix hsuffix' hsuffix hlast).symm
  subst heq
  exact ⟨List.append_cancel_right h, rfl⟩

/-- A path in a default folder tells the kind, the key and the suffix. -/
theorem defaultPath_inj {kind other : ConstructKind} {key key' suffix suffix' : Text}
    (hsuffix : suffix ∈ kind.suffixes) (hsuffix' : suffix' ∈ other.suffixes)
    (h : kind.defaultPath key suffix = other.defaultPath key' suffix') :
    kind = other ∧ key = key' ∧ suffix = suffix' := by
  obtain rfl := eq_of_folder_append_eq h
  have hrest : (key ++ '/' :: key) ++ '.' :: suffix = (key' ++ '/' :: key') ++ '.' :: suffix' := by
    simpa [defaultPath] using h
  obtain ⟨hstem, rfl⟩ := name_inj hsuffix hsuffix' hrest
  -- Both keys are half of what stands before the suffix.
  have hlength : key.length = key'.length := by
    have := congrArg List.length hstem
    simp only [List.length_append, List.length_cons] at this
    omega
  exact ⟨rfl, (List.append_inj hstem hlength).1, rfl⟩

end ConstructKind

namespace Batch

/-- Files of two sources that stand at the same path are of sources of the same kind that share a key. -/
theorem shared_key_of_path_eq {settings : Settings} (h : settings.DefaultPlaces) {source other : Source}
    {made made' : Artifact} (hmade : made ∈ produced settings source) (hmade' : made' ∈ produced settings other)
    (hpath : made.path = made'.path) :
    source.kind = other.kind ∧ ∃ key ∈ source.namingKeys, key ∈ other.namingKeys := by
  obtain ⟨output, houtput, key, hkey, suffix, hsuffix, heq⟩ := path_of_mem_produced hmade
  obtain ⟨output', houtput', key', hkey', suffix', hsuffix', heq'⟩ := path_of_mem_produced hmade'
  rw [heq, heq', h.artifactPath_eq houtput, h.artifactPath_eq houtput'] at hpath
  obtain ⟨hkind, rfl, -⟩ := ConstructKind.defaultPath_inj hsuffix hsuffix' hpath
  exact ⟨hkind, key, hkey, hkey'⟩

/-- No file of a source stands where the constants are gathered. -/
theorem path_ne_constantsFile {settings : Settings} (h : settings.DefaultPlaces) {source : Source}
    {made gathered : Artifact} {constants : List Variable} (hmade : made ∈ produced settings source)
    (hgathered : gathered ∈ Migration.constantsFile settings constants) : made.path ≠ gathered.path := by
  obtain ⟨output, houtput, key, -, suffix, hsuffix, heq⟩ := path_of_mem_produced hmade
  intro hpath
  rw [Migration.constantsFile] at hgathered
  split at hgathered
  · exact absurd hgathered List.not_mem_nil
  · obtain rfl := List.mem_singleton.1 hgathered
    obtain ⟨hfolder, -⟩ := h.sections .constant _ rfl
    -- The folder tells that the source is one of constants, and these have no files of their own.
    have hfolders : source.kind.defaultFolder ++ '/' :: (key ++ '/' :: (key ++ '.' :: suffix)) =
        ConstructKind.constant.defaultFolder ++ '/' :: settings.constants.generatedFile := by
      rw [heq, h.artifactPath_eq houtput] at hpath
      rw [← hfolder]
      simpa [ConstructKind.defaultPath] using hpath
    have hkind := ConstructKind.eq_of_folder_append_eq hfolders
    rw [hkind] at hsuffix
    exact absurd hsuffix List.not_mem_nil

end Batch

end AngularUplift
