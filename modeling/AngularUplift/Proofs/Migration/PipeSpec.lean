import AngularUplift.Proofs.Files.Tree
import AngularUplift.Proofs.Migration.Placement
import AngularUplift.Proofs.Migration.Reporting
import AngularUplift.Proofs.Suite.PipeImport

/-!
# Where the imports of a pipe spec lead

Every pipe goes into a folder of its own, and the spec for the filters of a file into the folder of the first of them.
From there an import goes up to the folder of all pipes and down to the folder of the imported one. The two paths agree
when the spec lies directly in a folder below the folder of all pipes: when the key of the first filter is the name of a
folder, and the addition to the names of generated files leads to no other folder.

## Main definitions

* `IsFolderName`: a key that is the name of a folder.
* `importTarget`: what the import of a module in a file means.
* `Migration.Reaches`: the imports of a module that lead to the pipe for a filter.

## Main statements

* `OutputSettings.importTarget_pipeModule`: where the import of a pipe leads.
* `Migration.pipe_imports_reach`: the pipes that a spec makes are imported from where they are written.
* `Migration.pipe_not_reached`: with a slash in a name of a generated file they are not.
-/

namespace AngularUplift

/-! ### Paths of imports -/

/-- A key that is the name of a folder. -/
structure IsFolderName (key : Text) : Prop extends IsPlainKey key where
  /-- It is not empty. -/
  ne_nil : key ≠ []
  /-- It is not the name for the folder itself. -/
  not_here : key ≠ ['.']

instance (key : Text) : Decidable (IsFolderName key) :=
  decidable_of_iff (IsPlainKey key ∧ key ≠ [] ∧ key ≠ ['.'])
    ⟨fun h => ⟨h.1, h.2.1, h.2.2⟩, fun h => ⟨h.toIsPlainKey, h.ne_nil, h.not_here⟩⟩

/-- The key of a filter with an ASCII name is the name of a folder. -/
theorem IsAsciiName.isFolderName {name : Text} (h : IsAsciiName name) : IsFolderName (Text.camelToDash name) := by
  obtain ⟨hne, hchars⟩ := Text.camelToDash_spec h.ne_nil fun c hc => ⟨h.ascii c hc, h.isName c hc⟩
  have habsent : ∀ c, isName c = false → c ≠ '-' → c ∉ Text.camelToDash name := by
    intro c hc hdash hmem
    rcases hchars c hmem with hname | rfl
    · rw [hc] at hname
      cases hname
    · exact hdash rfl
  have hdot := habsent '.' (by decide) (by decide)
  refine ⟨⟨habsent '/' (by decide) (by decide), ?_⟩, hne, ?_⟩
  · rintro heq
    exact hdot (heq ▸ List.mem_cons_self)
  · rintro heq
    exact hdot (heq ▸ List.mem_cons_self)

/-- What the import of a module in a file means, for files below a root: a module is named as it is seen from the folder
of the file. -/
def importTarget (root : Path) (file module : Text) : Path :=
  Path.resolve root ((Path.parse file).parent.append (Path.parse module))

namespace Path

/-- Whether a path is absolute does not depend on what stands in a folder of it. -/
theorem anchorOf_append (folder : Text) {rest : Text} (h : rest.head? ≠ some '/') :
    anchorOf (folder ++ '/' :: rest) = anchorOf (folder ++ ['/']) := by
  have hfirst : ∀ c ∈ rest.head?, c ≠ '/' := fun c hc heq => h (hc.trans (congrArg some heq))
  -- At most three characters matter, and there are as many in front of the rest, or none of it is a slash.
  match folder with
  | [] =>
    cases rest with
    | nil => rfl
    | cons c rest => simp [anchorOf, hfirst c rfl]
  | [a] =>
    cases rest with
    | nil => rfl
    | cons c rest => by_cases ha : a = '/' <;> simp [anchorOf, ha, hfirst c rfl]
  | [a, b] =>
    simp only [List.cons_append, List.nil_append]
    by_cases ha : a = '/' <;> by_cases hb : b = '/' <;> simp [anchorOf, ha, hb]
  | a :: b :: c :: folder =>
    simp only [List.cons_append]
    by_cases ha : a = '/' <;> by_cases hb : b = '/' <;> by_cases hc : c = '/' <;> simp [anchorOf, ha, hb, hc]

/-- A path seen from the folder of a file goes on from this folder. -/
theorem append_parent (anchor : Text) (parts : List Text) (folder file : Text) (rest : List Text) :
    (parent { anchor, parts := parts ++ [folder, file] }).append { parts := rest } =
      { anchor, parts := parts ++ folder :: rest } := by
  have hrelative : ¬Path.isAbsolute { parts := rest } := Bool.false_ne_true
  have hfolder : (parts ++ [folder, file]).dropLast = parts ++ [folder] :=
    List.dropLast_append_of_ne_nil (List.cons_ne_nil folder [file])
  rw [append, if_neg hrelative, parent, hfolder, List.append_assoc, List.singleton_append]

/-- A step down into a folder and a step up again lead nowhere. -/
theorem resolve_step_up (root : Path) {name : Text} (h : name ≠ txt "..") (anchor : Text) (parts rest : List Text) :
    resolve root { anchor, parts := parts ++ name :: txt ".." :: rest } =
      resolve root { anchor, parts := parts ++ rest } := by
  have hdown : ∀ place, step place name = place ++ [name] := fun place => if_neg h
  have hup : ∀ place, step (place ++ [name]) (txt "..") = place := fun place => by
    have hdots : txt ".." = ['.', '.'] := rfl
    rw [step, if_pos hdots, List.dropLast_concat]
  have hfold : ∀ front, (front ++ name :: txt ".." :: rest).foldl step [] = (front ++ rest).foldl step [] := by
    intro front
    rw [List.foldl_append, List.foldl_cons, List.foldl_cons, hdown, hup, List.foldl_append]
  have happend : ∀ others, root.append { anchor, parts := parts ++ others } =
      if Path.isAbsolute { anchor, parts := parts } then { anchor, parts := parts ++ others }
      else { root with parts := root.parts ++ parts ++ others } := fun others => by
    rw [append, List.append_assoc]
    rfl
  rw [resolve, resolve, happend, happend]
  split
  · rw [hfold]
  · rw [hfold]

end Path

namespace OutputSettings

variable {s : OutputSettings} {key suffix : Text}

/-- A generated file stands in the folder of its key, when its name leads nowhere else. -/
theorem parse_artifactPath (hadded : '/' ∉ s.generatedPrefix) (hkey : IsFolderName key) (hslash : '/' ∉ suffix)
    (hne : suffix ≠ []) :
    Path.parse (s.artifactPath key suffix) =
      { anchor := Path.anchorOf (s.generatedFolder ++ ['/'])
        parts := (Path.parse s.generatedFolder).parts ++ [key, key ++ s.generatedPrefix ++ ['.'] ++ suffix] } := by
  have hlong : 2 ≤ (key ++ s.generatedPrefix ++ ['.'] ++ suffix).length := by
    have hpos := List.length_pos_of_ne_nil hne
    rw [List.length_append, List.length_append, List.length_singleton]
    omega
  have hname : '/' ∉ key ++ s.generatedPrefix ++ ['.'] ++ suffix := by
    simp [hkey.no_slash, hadded, hslash]
  generalize hfile : key ++ s.generatedPrefix ++ ['.'] ++ suffix = file at hlong hname
  have hplain : (Path.parse key).parts = [key] := Path.parts_parse_name hkey.no_slash hkey.ne_nil hkey.not_here
  have hlast : (Path.parse file).parts = [file] := by
    refine Path.parts_parse_name hname ?_ ?_
    all_goals
      rintro rfl
      simp at hlong
  have hhead : (key ++ '/' :: file).head? ≠ some '/' := by
    obtain ⟨c, rest, rfl⟩ := List.exists_cons_of_ne_nil hkey.ne_nil
    intro heq
    exact hkey.no_slash (Option.some.inj heq ▸ List.mem_cons_self)
  have htext : s.artifactPath key suffix = s.generatedFolder ++ '/' :: (key ++ '/' :: file) := by
    rw [artifactPath, hfile]
    simp
  have hparts : (Path.parse (s.generatedFolder ++ '/' :: (key ++ '/' :: file))).parts =
      (Path.parse s.generatedFolder).parts ++ [key, file] := by
    rw [Path.parts_parse_append s.generatedFolder, Path.parts_parse_append key, hplain, hlast, List.singleton_append]
  have hshape : ∀ text, Path.parse text = { anchor := Path.anchorOf text, parts := (Path.parse text).parts } :=
    fun _ => rfl
  rw [htext, hshape, hparts, Path.anchorOf_append _ hhead]

/-- A module is named like the file of a pipe below the folder that lies above. -/
theorem pipeModule_eq_artifactPath (s : OutputSettings) (name : Text) :
    pipeModule name s.generatedPrefix =
      { s with generatedFolder := txt ".." }.artifactPath (Text.camelToDash name) (txt "pipe") := by
  have hwords : pipeModule name s.generatedPrefix = txt ".." ++ ['/'] ++ Text.camelToDash name ++ ['/'] ++
      Text.camelToDash name ++ s.generatedPrefix ++ (['.'] ++ txt "pipe") := rfl
  rw [hwords, artifactPath]
  simp only [List.append_assoc]

/-- The import of a pipe leads from the folder of a spec to the file of the pipe, without its extension. -/
theorem importTarget_pipeModule (root : Path) (hadded : '/' ∉ s.generatedPrefix) (hkey : IsFolderName key)
    {name : Text} (hname : IsAsciiName name) :
    importTarget root (s.artifactPath key (txt "pipe.spec.ts")) (pipeModule name s.generatedPrefix) =
      Path.resolve root (Path.parse (s.artifactPath (Text.camelToDash name) (txt "pipe"))) := by
  let above : OutputSettings := { s with generatedFolder := txt ".." }
  have hmodule : pipeModule name s.generatedPrefix = above.artifactPath (Text.camelToDash name) (txt "pipe") :=
    pipeModule_eq_artifactPath s name
  have hpipe := hname.isFolderName
  have hnames : '/' ∉ txt "pipe" ∧ '/' ∉ txt "pipe.spec.ts" := by decide
  have habove : '/' ∉ above.generatedPrefix := hadded
  have hspec : txt "pipe.spec.ts" ≠ [] := List.cons_ne_nil _ _
  have hstem : txt "pipe" ≠ [] := List.cons_ne_nil _ _
  rw [importTarget, hmodule, parse_artifactPath hadded hkey hnames.2 hspec,
    parse_artifactPath habove hpipe hnames.1 hstem, parse_artifactPath hadded hpipe hnames.1 hstem]
  -- From the folder of the spec it leads up again before it leads down.
  have hrelative : Path.anchorOf (above.generatedFolder ++ ['/']) = [] := rfl
  have hup : (Path.parse above.generatedFolder).parts = [txt ".."] := rfl
  rw [hrelative, hup, Path.append_parent, List.singleton_append, Path.resolve_step_up root hkey.not_up]

end OutputSettings

/-! ### The spec of a file of filters -/

namespace Migration

/-- With the naming of their files overridden, filters do not become files. -/
theorem yields_filter_overridden {settings : Settings} (h : settings.filters.namingOverridden = true)
    (source : Source) : Yields (fun _ => False) (filter settings source) := by
  unfold filter
  refine .after fun filters => ?_
  split
  · exact .throw _
  · next first others =>
    rw [List.mapM_cons, oneFilter, artifact_overridden h]
    exact .throw _

/-- Unless the naming of its files is overridden, every filter becomes a pipe in its folder. -/
theorem exists_oneFilter {output : OutputSettings} (h : output.namingOverridden = false) (filter : Filter)
    (journal : Journal) :
    ∃ pipe, ((oneFilter output filter).runFrom journal).1 = .ok pipe ∧
      pipe.path = output.artifactPath (Text.camelToDash filter.name) (txt "pipe") ++ txt ".ts" := by
  have hreporting : Reporting (fun _ => False) (oneFilter output filter) :=
    reporting_oneFilter (fun htrue => absurd htrue (by rw [h]; decide)) filter
  cases hrun : ((oneFilter output filter).runFrom journal).1 with
  | ok pipe =>
    have hpath := (yields_oneFilter output filter).of_ok journal pipe hrun
    have hsuffix : txt "pipe.ts" = txt "pipe" ++ txt ".ts" := rfl
    exact ⟨pipe, rfl, by simp only [hpath, OutputSettings.artifactPath, hsuffix, List.append_assoc]⟩
  | error fault => exact absurd (hreporting.blamed journal fault hrun) id

/-- The spec of filters is told by the end of its path, and stands in the folder of the first filter. -/
theorem FilterPath.eq_spec {output : OutputSettings} {first : Filter} {others : List Filter} {path : Text}
    (h : FilterPath output (first :: others) path) (hspec : txt ".pipe.spec.ts" <:+ path) :
    path = output.artifactPath (Text.camelToDash first.name) (txt "pipe.spec.ts") := by
  generalize hfilters : first :: others = filters at h
  cases h with
  | @pipe filter hfilter =>
    have hpipe : txt "pipe.ts" <:+ output.artifactPath (Text.camelToDash filter.name) (txt "pipe.ts") := by
      rw [OutputSettings.artifactPath, ← List.append_assoc]
      exact List.suffix_append ..
    rcases List.suffix_or_suffix_of_suffix hpipe hspec with hsuffix | hsuffix
    · exact absurd hsuffix (by decide)
    · exact absurd hsuffix (by decide)
  | spec hfirst =>
    rw [hfirst] at hfilters
    obtain ⟨rfl, -⟩ := List.cons.inj hfilters
    rfl

/-- A module that is imported reaches the pipe for a filter: wherever the spec of the filters of a source goes, if only
the key of the first one is the name of a folder, the import leads from there to the file of the pipe without its
extension. -/
def Reaches (settings : Settings) (name module : Text) : Prop :=
  ∀ (source : Source) (first : Filter) (others : List Filter) (journal : Journal) (artifacts : List Artifact)
    (spec : Artifact),
    (Filter.analyze source.text).outcome = .ok (first :: others) → IsFolderName (Text.camelToDash first.name) →
    ((filter settings source).runFrom journal).1 = .ok artifacts → spec ∈ artifacts →
    txt ".pipe.spec.ts" <:+ spec.path →
    ∀ (named : Filter) (journal : Journal), named.name = name →
      ∃ pipe stem, ((oneFilter settings.filters named).runFrom journal).1 = .ok pipe ∧ pipe.path = stem ++ txt ".ts" ∧
        ∀ root, importTarget root spec.path module = Path.resolve root (Path.parse stem)

/-- Where the addition to the names of generated files leads to no other folder, the import of a pipe reaches it. -/
theorem reaches_pipeModule {settings : Settings} (hadded : '/' ∉ settings.filters.generatedPrefix) {name : Text}
    (hname : IsAsciiName name) : Reaches settings name (pipeModule name settings.filters.generatedPrefix) := by
  rintro source first others journal artifacts spec hfilters hfirst hrun hmem hspec named other rfl
  have hnaming : settings.filters.namingOverridden = false := by
    by_contra hover
    exact (yields_filter_overridden (Bool.eq_true_of_not_eq_false hover) source).of_ok journal artifacts hrun
  obtain ⟨filters, hanalyze, hpaths⟩ := (yields_filterFiles settings source).of_ok journal artifacts hrun
  obtain rfl := Except.ok.inj (hfilters.symm.trans hanalyze)
  obtain ⟨pipe, hpipe, hpath⟩ := exists_oneFilter hnaming named other
  refine ⟨pipe, _, hpipe, hpath, fun root => ?_⟩
  rw [(hpaths spec hmem).eq_spec hspec]
  exact OutputSettings.importTarget_pipeModule root hadded hfirst hname

/-- The pipes that the spec of a test tree makes are imported, each variable once. A test declares the pipe for every
filter that it looks up, with the class that is imported, and where neither the addition to the names of generated files
nor the key of the first filter leads to another folder, the import reaches the pipe that this filter becomes. -/
theorem pipe_imports_reach {suite : TestNode} (hsuite : suite.category? = some .describe)
    (hnodes : ∀ node : TestNode, node.Within suite → node.category? ≠ none) :
    ∃ content, suite.content pipeTestBody = .ok content ∧ ∀ suffix,
      (∀ i18n, ∃ lines, pipeImports content suffix <:+: lines ∧
        pipeSpec suite suffix i18n = .ok (layout (Text.unlines lines))) ∧
      (∃ names : List Text, names.Nodup ∧
        (∀ name, name ∈ names ↔ ∃ found ∈ pipeDeclaration.occurrences content, found.value = name) ∧
        pipeImports content suffix = names.map fun name => importLine [pipeClassName name] (pipeModule name suffix)) ∧
      ∀ (test : TestNode) (name source : Text), test.Within suite → test.IsTest → IsAsciiName name →
        FilterLookup name source → source <:+: test.body →
        (∃ code, test.code pipeTestBody = .ok code ∧ pipeLine name ∈ code.lines) ∧
        importLine [pipeClassName name] (pipeModule name suffix) ∈ pipeImports content suffix ∧
        ∀ settings : Settings, settings.filters.generatedPrefix = suffix → '/' ∉ suffix →
          Reaches settings name (pipeModule name suffix) := by
  obtain ⟨content, hcontent⟩ := (TestNode.hasCode_of_within suite hnodes).exists_content pipeTestBody
  refine ⟨content, hcontent, fun suffix => ⟨fun i18n => exists_lines_pipeSpec hcontent suffix i18n,
    pipeImports_eq content suffix, ?_⟩⟩
  intro test name source hwithin htest hname hlookup hoccurs
  obtain ⟨hdeclared, himported⟩ := htest.imports_pipe hwithin hsuite hcontent hname hlookup hoccurs suffix
  refine ⟨hdeclared, himported, ?_⟩
  rintro settings rfl hslash
  exact reaches_pipeModule hslash hname

/-- A suite with a test that looks a filter up. -/
def lookupSpec (name : Text) : Text :=
  txt "describe('pipes', function () \x7b\nit('works', function () \x7b\n$filter('" ++ name ++
    txt "')(1);\n\x7d);\n\x7d);"

/-- A file that registers filters, with a suite as its companion. -/
def filterFile (names : List Text) : Source :=
  .make (Path.parse (txt "js/shop.js"))
    (names.flatMap fun name => txt "shop.filter('" ++ name ++
      txt "', function () \x7b return function (x) \x7b return x; \x7d; \x7d);\n")
    .filter [(.spec, lookupSpec (txt "on"))] []

/-- Settings with an addition to the names of pipes. -/
def settingsAdding (suffix : Text) : Settings :=
  { root := {}, filters := { generatedFolder := txt "generated/pipes", generatedPrefix := suffix } }

/-- A value is told by what can be seen of it. -/
theorem exists_ok_of_map {α β : Type} {outcome : Except Fault α} {seen : α → β} {shown : β}
    (h : outcome.toOption.map seen = some shown) : ∃ value, outcome = .ok value ∧ seen value = shown := by
  cases outcome with
  | ok value => exact ⟨value, rfl, Option.some.inj h⟩
  | error => cases h

theorem pipe_imports_reach_nested :
    let test := TestNode.it (txt "works") (txt "expect($filter( 'on' )(1)).toBe(1);") [] 0
    let suite := TestNode.describe (txt "pipes") [] [] 0 [.describe (txt "on") [] [] 0 [test]]
    ∃ content code, suite.content pipeTestBody = .ok content ∧ test.code pipeTestBody = .ok code ∧
      txt "let on = new OnPipe();" ∈ code.lines ∧
      txt "import \x7b OnPipe \x7d from '../on/on.new.pipe';" ∈ pipeImports content (txt ".new") ∧
      ∃ stem, stem ++ txt ".ts" = txt "generated/pipes/on/on.new.pipe.ts" ∧
        importTarget { anchor := ['/'] } (txt "generated/pipes/off/off.new.pipe.spec.ts") (txt "../on/on.new.pipe") =
          Path.resolve { anchor := ['/'] } (Path.parse stem) := by
  intro test suite
  have hnodes : ∀ node : TestNode, node.Within suite → node.category? ≠ none := by
    intro node hnode
    cases hnode with
    | root => decide
    | child hchild hnode =>
      obtain rfl := List.mem_singleton.1 hchild
      cases hnode with
      | root => decide
      | child hchild hnode =>
        obtain rfl := List.mem_singleton.1 hchild
        cases hnode with
        | root => decide
        | child hchild _ => exact absurd hchild List.not_mem_nil
  have hwithin : test.Within suite := .child List.mem_cons_self (.child List.mem_cons_self .root)
  have hname : (txt "on").all isName := by decide
  have hcode : (txt "on").all fun c => decide (c.toNat < 0x80) := by decide
  have hascii : IsAsciiName (txt "on") :=
    ⟨⟨List.cons_ne_nil _ _, List.all_eq_true.1 hname⟩, fun c hc => of_decide_eq_true (List.all_eq_true.1 hcode c hc)⟩
  have hblank : ∀ c ∈ [' '], isBlank c := List.forall_mem_singleton.2 rfl
  have hlookup : FilterLookup (txt "on") (txt "filter( 'on' )") :=
    @FilterLookup.intro _ [' '] [' '] '\'' '\'' hblank rfl rfl hblank
  have hoccurs : txt "filter( 'on' )" <:+: test.body := ⟨txt "expect($", txt "(1)).toBe(1);", rfl⟩
  obtain ⟨content, hcontent, himports⟩ := @pipe_imports_reach suite rfl hnodes
  obtain ⟨-, -, hevery⟩ := himports (txt ".new")
  obtain ⟨⟨code, hcode, hline⟩, himported, hreach⟩ := hevery test (txt "on") _ hwithin (.inl rfl) hascii hlookup hoccurs
  refine ⟨content, code, hcontent, hcode, hline, himported, ?_⟩
  -- The spec stands in the folder of another filter than the one that is looked up.
  let settings := settingsAdding (txt ".new")
  let source := filterFile [txt "off"]
  obtain ⟨filters, hfilters, hnames⟩ : ∃ filters, (Filter.analyze source.text).outcome = .ok filters ∧
      filters.map (·.name) = [txt "off"] := exists_ok_of_map (by decide +kernel)
  obtain ⟨first, rfl, hfirst⟩ := List.map_eq_singleton_iff.1 hnames
  obtain ⟨artifacts, hrun, hpaths⟩ : ∃ artifacts, ((filter settings source).runFrom {}).1 = .ok artifacts ∧
      artifacts.map (·.path) =
        [txt "generated/pipes/off/off.new.pipe.ts", txt "generated/pipes/off/off.new.pipe.spec.ts"] :=
    exists_ok_of_map (by decide +kernel)
  have hmem : txt "generated/pipes/off/off.new.pipe.spec.ts" ∈ artifacts.map (·.path) := by
    rw [hpaths]
    exact List.mem_cons_of_mem _ List.mem_cons_self
  obtain ⟨spec, hspec, hpath⟩ := List.mem_map.1 hmem
  have hfolder : IsFolderName (Text.camelToDash first.name) := by
    rw [hfirst]
    decide
  have hends : txt ".pipe.spec.ts" <:+ spec.path := by
    rw [hpath]
    exact ⟨txt "generated/pipes/off/off.new", rfl⟩
  obtain ⟨pipe, stem, hpipe, hstem, htarget⟩ := hreach settings rfl (by decide) source first [] {} artifacts spec
    hfilters hfolder hrun hspec hends { name := txt "on" } {} rfl
  have hmade : pipe.path = txt "generated/pipes/on/on.new.pipe.ts" :=
    (yields_oneFilter settings.filters { name := txt "on" }).of_ok {} pipe hpipe
  exact ⟨stem, hstem.symm.trans hmade, hpath ▸ htarget _⟩

/-- The variables for pipes that the code of a suite declares, if it is read and printed. -/
def declaredPipes (text : Text) : Except Fault (Option (List Text)) := do
  match ← (Suite.analyze text).outcome with
  | none => return none
  | some suite => return some ((pipeDeclaration.occurrences (← suite.content pipeTestBody)).map (·.value))

/-- A spec imports the pipes that are declared, whatever is added to the names of generated files. -/
theorem exists_of_declaredPipes {text : Text} {names : List Text} (h : declaredPipes text = .ok (some names)) :
    ∃ suite content, (Suite.analyze text).outcome = .ok (some suite) ∧ suite.content pipeTestBody = .ok content ∧
      ∀ suffix, pipeImports content suffix =
        names.eraseDups.map fun name => importLine [pipeClassName name] (pipeModule name suffix) := by
  rw [declaredPipes] at h
  cases hread : (Suite.analyze text).outcome with
  | error fault =>
    rw [hread] at h
    cases h
  | ok read =>
    cases read with
    | none =>
      rw [hread] at h
      cases h
    | some suite =>
      cases hcontent : suite.content pipeTestBody with
      | error fault =>
        simp only [hread, bind, Except.bind, hcontent] at h
        cases h
      | ok content =>
        simp only [hread, bind, Except.bind, hcontent] at h
        obtain rfl := Option.some.inj (Except.ok.inj h)
        exact ⟨suite, content, rfl, hcontent, fun _ => rfl⟩

/-- With a slash in the addition to the names of generated files, or in the name of the first filter, an import does not
lead to where the pipe is written. A filter whose name is no name of a variable is neither declared nor imported. -/
theorem pipe_not_reached :
    (∃ suite content, (Suite.analyze (lookupSpec (txt "on"))).outcome = .ok (some suite) ∧
      suite.content pipeTestBody = .ok content ∧
      ((Batch.produced (settingsAdding (txt "/x")) (filterFile [txt "on"])).map (·.path) =
          [txt "generated/pipes/on/on/x.pipe.ts", txt "generated/pipes/on/on/x.pipe.spec.ts"] ∧
        pipeImports content (txt "/x") = [importLine [txt "OnPipe"] (txt "../on/on/x.pipe")] ∧
        importTarget { anchor := ['/'] } (txt "generated/pipes/on/on/x.pipe.spec.ts") (txt "../on/on/x.pipe") ≠
          Path.resolve { anchor := ['/'] } (Path.parse (txt "generated/pipes/on/on/x.pipe"))) ∧
      (Batch.produced (settingsAdding []) (filterFile [txt "a/b", txt "on"])).map (·.path) =
          [txt "generated/pipes/a/b/a/b.pipe.ts", txt "generated/pipes/on/on.pipe.ts",
            txt "generated/pipes/a/b/a/b.pipe.spec.ts"] ∧
        pipeImports content [] = [importLine [txt "OnPipe"] (txt "../on/on.pipe")] ∧
        importTarget { anchor := ['/'] } (txt "generated/pipes/a/b/a/b.pipe.spec.ts") (txt "../on/on.pipe") ≠
          Path.resolve { anchor := ['/'] } (Path.parse (txt "generated/pipes/on/on.pipe"))) ∧
    ∃ suite content, (Suite.analyze (lookupSpec (txt "to-upper"))).outcome = .ok (some suite) ∧
      suite.content pipeTestBody = .ok content ∧ ∀ suffix, pipeImports content suffix = [] := by
  have hon : declaredPipes (lookupSpec (txt "on")) = .ok (some [txt "on"]) := by decide +kernel
  have hdashed : declaredPipes (lookupSpec (txt "to-upper")) = .ok (some []) := by decide +kernel
  obtain ⟨suite, content, hread, hcontent, himports⟩ := exists_of_declaredPipes hon
  refine ⟨⟨suite, content, hread, hcontent, ⟨?_, himports (txt "/x"), ?_⟩, ?_, himports [], ?_⟩, ?_⟩
  · decide +kernel
  · decide +kernel
  · decide +kernel
  · decide +kernel
  · exact exists_of_declaredPipes hdashed

end Migration

end AngularUplift
