import AngularUplift.Proofs.Files.Walk
import Mathlib

/-!
# Constructs that discovery accounts for

Discovery looks at every script below the given paths, and leaves out those that another script claims as a
companion. A construct that is left out is lost when every script that claims it is left out as well. That takes a
script that both claims and is claimed: a construct with the name or the mark of a companion that is more than a
controller.

## Main definitions

* `IsConstruct`: a file whose content tells a kind that is migrated.
* `IsCompanion`, `Claims`: a construct has a file as its companion.
* `IsScanned`, `IsFree`: a script that discovery looks at, and a file that no such script claims.
* `IsAccounted`: a construct that is returned or is a companion of one that is returned.
* `OnlyControllersServe`: constructs with the name or the mark of a companion are controllers.

## Main statements

* `discoverAt_inv`, `discover_inv`: what is found at a path, and what is returned.
* `mem_sources_iff`: the sources that are returned are the constructs that nothing claims.
* `isAccounted_iff`: the constructs that are accounted for.
* `discover_total`: discovery comes to an end within the limits of a file system.
* `discover_accounts`: both of them, and a case in which nothing is lost.
-/

namespace AngularUplift

/-! ### Steps for each item of a list -/

/-- A step for each item of a list succeeds when it does so for every item. -/
theorem mapM_eq_ok_iff {α β : Type} {step : α → Except Fault β} {items : List α} {values : List β} :
    items.mapM step = .ok values ↔ List.Forall₂ (fun item value => step item = .ok value) items values := by
  induction items generalizing values with
  | nil =>
    rw [List.mapM_nil, List.forall₂_nil_left_iff]
    constructor
    · intro h
      exact (Except.ok.inj h).symm
    · rintro rfl
      rfl
  | cons item items ih =>
    rw [List.mapM_cons, List.forall₂_cons_left_iff]
    constructor
    · intro h
      obtain ⟨value, hvalue, hrest⟩ := FileTree.exists_of_bind_eq_ok h
      obtain ⟨rest, hitems, hlist⟩ := FileTree.exists_of_bind_eq_ok hrest
      exact ⟨value, rest, hvalue, ih.1 hitems, (Except.ok.inj hlist).symm⟩
    · rintro ⟨value, rest, hvalue, hrest, rfl⟩
      rw [hvalue, ih.2 hrest]
      rfl

theorem exists_bind_eq_ok {α β : Type} {step : Except Fault α} {next : α → Except Fault β}
    (hstep : ∃ value, step = .ok value) (hnext : ∀ value, step = .ok value → ∃ result, next value = .ok result) :
    ∃ result, step >>= next = .ok result := by
  obtain ⟨value, rfl⟩ := hstep
  exact hnext value rfl

theorem exists_mapM_eq_ok {α β : Type} {step : α → Except Fault β} {items : List α}
    (h : ∀ item ∈ items, ∃ value, step item = .ok value) : ∃ values, items.mapM step = .ok values := by
  induction items with
  | nil => exact ⟨[], rfl⟩
  | cons item items ih =>
    obtain ⟨value, hvalue⟩ := h item List.mem_cons_self
    obtain ⟨values, hvalues⟩ := ih fun other hother => h other (List.mem_cons_of_mem item hother)
    refine ⟨value :: values, ?_⟩
    rw [List.mapM_cons, hvalue, hvalues]
    rfl

theorem exists_of_mem_right {α β : Type} {R : α → β → Prop} {items : List α} {values : List β}
    (h : List.Forall₂ R items values) {value : β} (hmem : value ∈ values) : ∃ item ∈ items, R item value := by
  induction h with
  | nil => exact absurd hmem List.not_mem_nil
  | cons hhead _ ih =>
    rcases List.mem_cons.1 hmem with rfl | htail
    · exact ⟨_, List.mem_cons_self, hhead⟩
    · obtain ⟨item, hitem, hitemR⟩ := ih htail
      exact ⟨item, List.mem_cons_of_mem _ hitem, hitemR⟩

theorem exists_of_mem_left {α β : Type} {R : α → β → Prop} {items : List α} {values : List β}
    (h : List.Forall₂ R items values) {item : α} (hmem : item ∈ items) : ∃ value ∈ values, R item value :=
  exists_of_mem_right h.flip hmem

/-! ### Companions -/

/-- Of the candidates for a role the first one is taken, and nothing else is added. -/
theorem mem_of_mem_addCompanions {found candidates : List (CompanionRole × Path)} {entry : CompanionRole × Path}
    (h : entry ∈ candidates.foldl addCompanion found) : entry ∈ found ∨ entry ∈ candidates := by
  induction candidates generalizing found with
  | nil => exact Or.inl h
  | cons candidate candidates ih =>
    rw [List.foldl_cons] at h
    rcases ih h with hfound | hlater
    · rw [addCompanion] at hfound
      split at hfound
      · exact Or.inl hfound
      · rcases List.mem_append.1 hfound with hold | hnew
        · exact Or.inl hold
        · exact Or.inr (List.mem_cons.2 (Or.inl (List.mem_singleton.1 hnew)))
    · exact Or.inr (List.mem_cons_of_mem _ hlater)

/-- A file next to another one that may be its companion. -/
structure IsSibling (tree : FileTree) (file path : Path) : Prop where
  /-- The file is in the same folder. -/
  file_eq : file = path.parent.below [file.name]
  /-- It is listed there. -/
  listed : ∃ names, tree.fileNames {} path.parent = .ok names ∧ file.name ∈ names
  /-- It has another name. -/
  name_ne : file.name ≠ path.name
  /-- It belongs to the same construct. -/
  key_eq : fileKey file = fileKey path

/-- A companion is a sibling in a role of its own. -/
theorem companions_inv {tree : FileTree} {path : Path} {found : List (CompanionRole × Path)}
    (h : companions tree path = .ok found) {role : CompanionRole} {file : Path} (hmem : (role, file) ∈ found) :
    IsSibling tree file path ∧ companionRole? tree file = .ok (some role) := by
  obtain ⟨names, hnames, h⟩ := FileTree.exists_of_bind_eq_ok h
  obtain ⟨roles, hroles, h⟩ := FileTree.exists_of_bind_eq_ok h
  obtain rfl := Except.ok.inj h
  have hentry : (role, file) ∈ roles.filterMap id :=
    (mem_of_mem_addCompanions hmem).resolve_left List.not_mem_nil
  obtain ⟨role?, hrole?, hsome⟩ := List.mem_filterMap.1 hentry
  obtain rfl : role? = some (role, file) := hsome
  obtain ⟨candidate, hcandidate, hstep⟩ := exists_of_mem_right (mapM_eq_ok_iff.1 hroles) hrole?
  obtain ⟨candidateRole?, hcandidateRole?, hpair⟩ := FileTree.exists_of_bind_eq_ok hstep
  obtain ⟨candidateRole, rfl, hsame⟩ := Option.map_eq_some_iff.1 (Except.ok.inj hpair)
  obtain ⟨rfl, rfl⟩ := Prod.mk.inj hsame
  refine ⟨?_, hcandidateRole?⟩
  -- Candidates are put together from the folder of the path and another name.
  obtain ⟨hplaced, hkey⟩ := List.mem_filter.1 hcandidate
  obtain ⟨name, hother, rfl⟩ := List.mem_map.1 hplaced
  obtain ⟨hname, hne⟩ := List.mem_filter.1 hother
  have hlast : (path.parent.below [name]).name = name := by simp [Path.below, Path.name]
  refine ⟨?_, ⟨names, hnames, ?_⟩, ?_, beq_iff_eq.1 hkey⟩
  · exact congrArg (fun last => path.parent.below [last]) hlast.symm
  · show (path.parent.below [name]).name ∈ names
    rw [hlast]
    exact hname
  · show (path.parent.below [name]).name ≠ path.name
    rw [hlast]
    exact bne_iff_ne.1 hne

/-! ### Constructs and their claims -/

/-- A file whose content tells a kind that is migrated. -/
structure IsConstruct (tree : FileTree) (path : Path) (text : Text) (kind : ConstructKind) : Prop where
  /-- The file can be read. -/
  text_eq : sourceText tree path = .ok text
  /-- Its content tells the kind. -/
  detect_eq : ConstructKind.detect? text = some kind
  /-- Specs are only ever companions. -/
  ne_spec : kind ≠ .spec

theorem IsConstruct.unique {tree : FileTree} {path : Path} {text other : Text} {kind otherKind : ConstructKind}
    (h : IsConstruct tree path text kind) (hother : IsConstruct tree path other otherKind) :
    text = other ∧ kind = otherKind := by
  obtain rfl : text = other := Except.ok.inj (h.text_eq.symm.trans hother.text_eq)
  exact ⟨rfl, Option.some.inj (h.detect_eq.symm.trans hother.detect_eq)⟩

/-- The construct at a path has a file as its companion in a role. Controllers have no controllers. -/
structure IsCompanion (tree : FileTree) (path file : Path) (role : CompanionRole) : Prop where
  /-- The file is found next to the construct. -/
  mem : ∃ found, companions tree path = .ok found ∧ (role, file) ∈ found
  /-- There is a construct, which is no controller if the file is one. -/
  construct : ∃ text kind, IsConstruct tree path text kind ∧ ¬(kind = .controller ∧ role = .controller)

/-- The construct at a path has a file as a companion. -/
def Claims (tree : FileTree) (path file : Path) : Prop := ∃ role, IsCompanion tree path file role

theorem Claims.isSibling {tree : FileTree} {path file : Path} (h : Claims tree path file) :
    IsSibling tree file path := by
  obtain ⟨role, hrole⟩ := h
  obtain ⟨found, hfound, hmem⟩ := hrole.mem
  exact (companions_inv hfound hmem).1

theorem IsCompanion.role_eq {tree : FileTree} {path file : Path} {role : CompanionRole}
    (h : IsCompanion tree path file role) : companionRole? tree file = .ok (some role) := by
  obtain ⟨found, hfound, hmem⟩ := h.mem
  exact (companions_inv hfound hmem).2

/-- Of the files found next to a construct of some kind, those that it takes along. -/
def kept (kind : ConstructKind) (found : List (CompanionRole × Path)) : List (CompanionRole × Path) :=
  found.filter fun (role, _) => !(kind = .controller && role == CompanionRole.controller)

theorem mem_kept {kind : ConstructKind} {found : List (CompanionRole × Path)} {role : CompanionRole} {file : Path} :
    (role, file) ∈ kept kind found ↔ (role, file) ∈ found ∧ ¬(kind = .controller ∧ role = .controller) := by
  simp [kept, List.mem_filter, -not_and, not_and_or]

/-- What discovery finds at a path: the construct there with the texts of its companions. -/
theorem discoverAt_inv {tree : FileTree} {path : Path} {one : Discovered} {records : List LogRecord}
    (h : discoverAt tree path = .ok (some one, records)) :
    one.source.path = path ∧ IsConstruct tree path one.source.text one.source.kind ∧
      ∃ found, companions tree path = .ok found ∧ one.companionFiles = (kept one.source.kind found).map (·.2) ∧
        List.Forall₂ (fun entry companion => entry.1 = companion.1 ∧ sourceText tree entry.2 = .ok companion.2)
          (kept one.source.kind found) one.source.companions := by
  obtain ⟨text, htext, h⟩ := FileTree.exists_of_bind_eq_ok h
  split at h
  · exact nomatch h
  · exact nomatch h
  · next kind hne hkind =>
    obtain ⟨found, hfound, h⟩ := FileTree.exists_of_bind_eq_ok h
    obtain ⟨texts, htexts, h⟩ := FileTree.exists_of_bind_eq_ok h
    obtain rfl := Option.some.inj (Prod.mk.inj (Except.ok.inj h)).1
    refine ⟨rfl, ⟨htext, hkind, hne⟩, found, hfound, rfl, ?_⟩
    refine (mapM_eq_ok_iff.1 htexts).imp ?_
    rintro ⟨role, file⟩ companion hstep
    obtain ⟨fileText, hfileText, hcompanion⟩ := FileTree.exists_of_bind_eq_ok hstep
    obtain rfl := Except.ok.inj hcompanion
    exact ⟨rfl, hfileText⟩

/-- Discovery finds the construct at a path, if it comes to an end there. -/
theorem IsConstruct.exists_found {tree : FileTree} {path : Path} {text : Text} {kind : ConstructKind}
    (hconstruct : IsConstruct tree path text kind) {found? : Option Discovered} {records : List LogRecord}
    (h : discoverAt tree path = .ok (found?, records)) : ∃ one, found? = some one := by
  obtain ⟨read, hread, h⟩ := FileTree.exists_of_bind_eq_ok h
  obtain rfl : text = read := Except.ok.inj (hconstruct.text_eq.symm.trans hread)
  rw [hconstruct.detect_eq] at h
  split at h
  · next hnone => exact nomatch hnone
  · next hspec => exact absurd (Option.some.inj hspec) hconstruct.ne_spec
  · obtain ⟨found, -, h⟩ := FileTree.exists_of_bind_eq_ok h
    obtain ⟨texts, -, h⟩ := FileTree.exists_of_bind_eq_ok h
    exact ⟨_, (Prod.mk.inj (Except.ok.inj h)).1.symm⟩

section Companions

variable {tree : FileTree} {path file : Path} {one : Discovered} {records : List LogRecord}

theorem isCompanion_iff (h : discoverAt tree path = .ok (some one, records)) {found : List (CompanionRole × Path)}
    (hfound : companions tree path = .ok found) {role : CompanionRole} :
    IsCompanion tree path file role ↔ (role, file) ∈ kept one.source.kind found := by
  obtain ⟨-, hconstruct, -⟩ := discoverAt_inv h
  rw [mem_kept]
  constructor
  · rintro ⟨⟨other, hother, hmem⟩, text, kind, hsame, hdistinct⟩
    obtain rfl := Except.ok.inj (hfound.symm.trans hother)
    obtain ⟨-, rfl⟩ := hconstruct.unique hsame
    exact ⟨hmem, hdistinct⟩
  · rintro ⟨hmem, hdistinct⟩
    exact ⟨⟨found, hfound, hmem⟩, _, _, hconstruct, hdistinct⟩

/-- The files that discovery takes along with a construct are its companions. -/
theorem mem_companionFiles (h : discoverAt tree path = .ok (some one, records)) :
    file ∈ one.companionFiles ↔ Claims tree path file := by
  obtain ⟨-, -, found, hfound, hfiles, -⟩ := discoverAt_inv h
  rw [hfiles, List.mem_map]
  constructor
  · rintro ⟨⟨role, other⟩, hmem, rfl⟩
    exact ⟨role, (isCompanion_iff h hfound).2 hmem⟩
  · rintro ⟨role, hrole⟩
    exact ⟨(role, file), (isCompanion_iff h hfound).1 hrole, rfl⟩

/-- The text of a companion is at hand under its role. -/
theorem IsCompanion.mem_companions {role : CompanionRole} (hrole : IsCompanion tree path file role)
    (h : discoverAt tree path = .ok (some one, records)) {text : Text} (htext : sourceText tree file = .ok text) :
    (role, text) ∈ one.source.companions := by
  obtain ⟨-, -, found, hfound, -, htexts⟩ := discoverAt_inv h
  obtain ⟨⟨companionRole, companionText⟩, hmem, rfl, hsame⟩ :=
    exists_of_mem_left htexts ((isCompanion_iff h hfound).1 hrole)
  obtain rfl := Except.ok.inj (htext.symm.trans hsame)
  exact hmem

end Companions

/-! ### What discovery returns -/

/-- A script that discovery looks at. -/
def IsScanned (tree : FileTree) (exclude : List Text) (paths : List Path) (path : Path) : Prop :=
  ∃ base ∈ paths, ∃ scripts, sourcePaths tree exclude base = .ok scripts ∧ path ∈ scripts

/-- No script that discovery looks at claims the file. -/
def IsFree (tree : FileTree) (exclude : List Text) (paths : List Path) (file : Path) : Prop :=
  ∀ path, IsScanned tree exclude paths path → ¬Claims tree path file

theorem not_isFree_iff {tree : FileTree} {exclude : List Text} {paths : List Path} {file : Path} :
    ¬IsFree tree exclude paths file ↔ ∃ path, IsScanned tree exclude paths path ∧ Claims tree path file := by
  simp [IsFree]

/-- A construct is accounted for by sources: it is one of them or a companion of one of them. -/
def IsAccounted (tree : FileTree) (sources : List Source) (path : Path) (text : Text) (kind : ConstructKind) : Prop :=
  ∃ source ∈ sources, source.path = path ∧ source.text = text ∧ source.kind = kind ∨
    ∃ role, IsCompanion tree source.path path role ∧ (role, text) ∈ source.companions

section Discover

variable {tree : FileTree} {exclude : List Text} {paths : List Path} {sources : List Source} {records : List LogRecord}

/-- Discovery comes to an end at every script, and returns what it finds there unless it is also a companion. -/
theorem discover_inv (h : discover tree exclude paths = .ok (sources, records)) :
    ∃ found : List Discovered,
      (∀ path, IsScanned tree exclude paths path → ∃ found? log, discoverAt tree path = .ok (found?, log) ∧
        ∀ one, found? = some one → one ∈ found) ∧
      (∀ one ∈ found, ∃ path log, IsScanned tree exclude paths path ∧ discoverAt tree path = .ok (some one, log)) ∧
      ∀ source, source ∈ sources ↔ (∃ one ∈ found, one.source = source) ∧
        ∀ one ∈ found, source.path ∉ one.companionFiles := by
  obtain ⟨groups, hgroups, h⟩ := FileTree.exists_of_bind_eq_ok h
  obtain ⟨outcomes, houtcomes, h⟩ := FileTree.exists_of_bind_eq_ok h
  obtain ⟨rfl, -⟩ := Prod.mk.inj (Except.ok.inj h)
  replace hgroups := mapM_eq_ok_iff.1 hgroups
  replace houtcomes := mapM_eq_ok_iff.1 houtcomes
  refine ⟨outcomes.filterMap (·.1), ?_, ?_, ?_⟩
  · rintro path ⟨base, hbase, scripts, hscripts, hpath⟩
    obtain ⟨group, hgroup, hsame⟩ := exists_of_mem_left hgroups hbase
    obtain rfl := Except.ok.inj (hscripts.symm.trans hsame)
    obtain ⟨⟨found?, log⟩, houtcome, hat⟩ := exists_of_mem_left houtcomes (List.mem_flatten.2 ⟨scripts, hgroup, hpath⟩)
    refine ⟨found?, log, hat, ?_⟩
    rintro one rfl
    exact List.mem_filterMap.2 ⟨_, houtcome, rfl⟩
  · intro one hone
    obtain ⟨⟨found?, log⟩, houtcome, hsome⟩ := List.mem_filterMap.1 hone
    obtain rfl : found? = some one := hsome
    obtain ⟨path, hpath, hat⟩ := exists_of_mem_right houtcomes houtcome
    obtain ⟨group, hgroup, hpath⟩ := List.mem_flatten.1 hpath
    obtain ⟨base, hbase, hgroupAt⟩ := exists_of_mem_right hgroups hgroup
    exact ⟨path, log, ⟨base, hbase, group, hgroupAt, hpath⟩, hat⟩
  · intro source
    simp [List.mem_filter]

theorem mem_sources_iff (h : discover tree exclude paths = .ok (sources, records)) {source : Source} :
    source ∈ sources ↔ ∃ one log, IsScanned tree exclude paths source.path ∧
      discoverAt tree source.path = .ok (some one, log) ∧ one.source = source ∧
      IsFree tree exclude paths source.path := by
  obtain ⟨found, hscanned, hfound, hsources⟩ := discover_inv h
  have hfree : ∀ file, (∀ one ∈ found, file ∉ one.companionFiles) ↔ IsFree tree exclude paths file := by
    intro file
    constructor
    · rintro hnone path hpath ⟨role, hrole⟩
      obtain ⟨text, kind, hconstruct, -⟩ := hrole.construct
      obtain ⟨found?, log, hat, hmem⟩ := hscanned path hpath
      obtain ⟨one, rfl⟩ := hconstruct.exists_found hat
      exact hnone one (hmem one rfl) ((mem_companionFiles hat).2 ⟨role, hrole⟩)
    · intro hfree one hone hfile
      obtain ⟨path, log, hpath, hat⟩ := hfound one hone
      exact hfree path hpath ((mem_companionFiles hat).1 hfile)
  rw [hsources, hfree]
  constructor
  · rintro ⟨⟨one, hone, rfl⟩, hfree⟩
    obtain ⟨path, log, hpath, hat⟩ := hfound one hone
    obtain rfl := (discoverAt_inv hat).1
    exact ⟨one, log, hpath, hat, rfl, hfree⟩
  · rintro ⟨one, log, hpath, hat, rfl, hfree⟩
    obtain ⟨found?, otherLog, hsame, hmem⟩ := hscanned _ hpath
    obtain ⟨rfl, -⟩ := Prod.mk.inj (Except.ok.inj (hat.symm.trans hsame))
    exact ⟨⟨one, hmem one rfl, rfl⟩, hfree⟩

/-- Discovery returns every construct that it looks at and that nothing claims. -/
theorem IsConstruct.exists_source (h : discover tree exclude paths = .ok (sources, records)) {path : Path} {text : Text}
    {kind : ConstructKind} (hconstruct : IsConstruct tree path text kind) (hpath : IsScanned tree exclude paths path)
    (hfree : IsFree tree exclude paths path) :
    ∃ one log, discoverAt tree path = .ok (some one, log) ∧ one.source ∈ sources ∧ one.source.path = path ∧
      one.source.text = text ∧ one.source.kind = kind := by
  obtain ⟨found, hscanned, -, -⟩ := discover_inv h
  obtain ⟨found?, log, hat, -⟩ := hscanned path hpath
  obtain ⟨one, rfl⟩ := hconstruct.exists_found hat
  obtain ⟨rfl, hsame, -⟩ := discoverAt_inv hat
  obtain ⟨htext, hkind⟩ := hsame.unique hconstruct
  exact ⟨one, log, hat, (mem_sources_iff h).2 ⟨one, log, hpath, hat, rfl, hfree⟩, rfl, htext, hkind⟩

/-- A construct is accounted for if nothing claims it, or if something claims it that nothing else claims. -/
theorem isAccounted_iff (h : discover tree exclude paths = .ok (sources, records)) {path : Path} {text : Text}
    {kind : ConstructKind} (hpath : IsScanned tree exclude paths path) (hconstruct : IsConstruct tree path text kind) :
    IsAccounted tree sources path text kind ↔ IsFree tree exclude paths path ∨
      ∃ claimant, IsScanned tree exclude paths claimant ∧ Claims tree claimant path ∧
        IsFree tree exclude paths claimant := by
  constructor
  · rintro ⟨source, hsource, ⟨rfl, -, -⟩ | ⟨role, hrole, -⟩⟩
    · obtain ⟨-, -, -, -, -, hfree⟩ := (mem_sources_iff h).1 hsource
      exact Or.inl hfree
    · obtain ⟨-, -, hclaimant, -, -, hfree⟩ := (mem_sources_iff h).1 hsource
      exact Or.inr ⟨source.path, hclaimant, ⟨role, hrole⟩, hfree⟩
  · rintro (hfree | ⟨claimant, hclaimant, ⟨role, hrole⟩, hfree⟩)
    · obtain ⟨one, log, -, hmem, hsame⟩ := hconstruct.exists_source h hpath hfree
      exact ⟨one.source, hmem, Or.inl hsame⟩
    · obtain ⟨claimantText, claimantKind, hclaimantConstruct, -⟩ := hrole.construct
      obtain ⟨one, log, hat, hmem, rfl, -⟩ := hclaimantConstruct.exists_source h hclaimant hfree
      exact ⟨one.source, hmem, Or.inr ⟨role, hrole, hrole.mem_companions hat hconstruct.text_eq⟩⟩

/-- A construct that is lost has a script beside it that claims it, and that has a script beside it that claims it in
turn. -/
theorem exists_rival (h : discover tree exclude paths = .ok (sources, records)) {path : Path} {text : Text}
    {kind : ConstructKind} (hpath : IsScanned tree exclude paths path) (hconstruct : IsConstruct tree path text kind)
    (hlost : ¬IsAccounted tree sources path text kind) :
    ∃ claimant rival, IsScanned tree exclude paths claimant ∧ IsScanned tree exclude paths rival ∧
      IsSibling tree path claimant ∧ IsSibling tree claimant rival := by
  rw [isAccounted_iff h hpath hconstruct, not_or] at hlost
  obtain ⟨hclaimed, hothers⟩ := hlost
  obtain ⟨claimant, hclaimant, hclaims⟩ := not_isFree_iff.1 hclaimed
  have htaken : ¬IsFree tree exclude paths claimant := fun hfree => hothers ⟨claimant, hclaimant, hclaims, hfree⟩
  obtain ⟨rival, hrival, hturn⟩ := not_isFree_iff.1 htaken
  exact ⟨claimant, rival, hclaimant, hrival, hclaims.isSibling, hturn.isSibling⟩

/-- Constructs with the name or the mark of a companion are controllers, and nothing else. -/
def OnlyControllersServe (tree : FileTree) (exclude : List Text) (paths : List Path) : Prop :=
  ∀ path text kind role, IsScanned tree exclude paths path → IsConstruct tree path text kind →
    companionRole? tree path = .ok (some role) → kind = .controller ∧ role = .controller

/-- What claims a controller is itself free, if nothing but controllers is ever claimed. -/
theorem OnlyControllersServe.isFree (h : OnlyControllersServe tree exclude paths) {claimant path : Path} {text : Text}
    {kind : ConstructKind} (hpath : IsScanned tree exclude paths path) (hconstruct : IsConstruct tree path text kind)
    (hclaimant : IsScanned tree exclude paths claimant) (hclaims : Claims tree claimant path) :
    IsFree tree exclude paths claimant := by
  obtain ⟨role, hrole⟩ := hclaims
  obtain ⟨-, rfl⟩ := h path text kind role hpath hconstruct hrole.role_eq
  -- The claimant takes a controller along, so it is none, and nothing takes it along.
  obtain ⟨claimantText, claimantKind, hclaimantConstruct, hdistinct⟩ := hrole.construct
  rintro other - ⟨otherRole, hother⟩
  obtain ⟨hkind, -⟩ := h claimant claimantText claimantKind otherRole hclaimant hclaimantConstruct hother.role_eq
  exact hdistinct ⟨hkind, rfl⟩

end Discover

/-! ### Discovery comes to an end -/

theorem companionRole?_total {tree : FileTree} {path : Path} {text : Text} (h : sourceText tree path = .ok text) :
    ∃ role?, companionRole? tree path = .ok role? := by
  rw [companionRole?, h]
  -- Only the last of the rules looks into the file.
  simp only [bind, Except.bind, pure, Except.pure]
  split_ifs
  all_goals exact ⟨_, rfl⟩

section Total

variable {tree : FileTree} {folder : Path} {place : List Text}

theorem companions_total (hsound : tree.IsSound) (h : tree.Houses folder place) (name : Text) :
    ∃ found, companions tree (folder.below [name]) = .ok found := by
  obtain ⟨names, hnames, hfiles⟩ := h.fileNames
  rw [companions, Path.parent_below, hnames]
  refine exists_bind_eq_ok ⟨names, rfl⟩ ?_
  rintro _ ⟨⟩
  refine exists_bind_eq_ok (exists_mapM_eq_ok ?_) fun roles _ => ⟨_, rfl⟩
  intro candidate hcandidate
  obtain ⟨other, hother, rfl⟩ := List.mem_map.1 (List.mem_filter.1 hcandidate).1
  obtain ⟨text, htext⟩ := h.sourceText hsound (hfiles other (List.mem_filter.1 hother).1)
  exact exists_bind_eq_ok (companionRole?_total htext) fun role? _ => ⟨_, rfl⟩

theorem discoverAt_total (hsound : tree.IsSound) (h : tree.Houses folder place) {name : Text}
    (hfile : place ++ [name] ∈ tree.places) : ∃ outcome, discoverAt tree (folder.below [name]) = .ok outcome := by
  rw [discoverAt]
  refine exists_bind_eq_ok (h.sourceText hsound hfile) ?_
  rintro text -
  split
  · exact ⟨_, rfl⟩
  · exact ⟨_, rfl⟩
  · refine exists_bind_eq_ok (companions_total hsound h name) ?_
    intro found hfound
    refine exists_bind_eq_ok (exists_mapM_eq_ok ?_) fun texts _ => ⟨_, rfl⟩
    rintro ⟨role, file⟩ hentry
    -- Companions are files of the same folder.
    have hsibling := (companions_inv hfound (List.mem_filter.1 hentry).1).1
    obtain ⟨names, hnames, hlisted⟩ := hsibling.listed
    obtain ⟨listed, hsame, hfiles⟩ := h.fileNames
    rw [Path.parent_below, hsame] at hnames
    obtain rfl := Except.ok.inj hnames
    have hread := h.sourceText hsound (hfiles file.name hlisted)
    have hfileEq := hsibling.file_eq
    rw [Path.parent_below] at hfileEq
    rw [← hfileEq] at hread
    exact exists_bind_eq_ok hread fun fileText _ => ⟨_, rfl⟩

end Total

theorem discover_total {tree : FileTree} (hsound : tree.IsSound) (exclude : List Text) {paths : List Path}
    (hpaths : ∀ base ∈ paths, tree.Reaches base) :
    ∃ outcome, discover tree exclude paths = .ok outcome := by
  have hlist : ∀ base ∈ paths, ∃ scripts, sourcePaths tree exclude base = .ok scripts := by
    intro base hbase
    obtain ⟨scripts, hscripts, -⟩ := FileTree.exists_houses hsound exclude (hpaths base hbase)
    exact ⟨scripts, hscripts⟩
  rw [discover]
  refine exists_bind_eq_ok (exists_mapM_eq_ok hlist) ?_
  intro groups hgroups
  refine exists_bind_eq_ok (exists_mapM_eq_ok ?_) fun outcomes _ => ⟨_, rfl⟩
  intro path hpath
  obtain ⟨group, hgroup, hmem⟩ := List.mem_flatten.1 hpath
  obtain ⟨base, hbase, hscripts⟩ := exists_of_mem_right (mapM_eq_ok_iff.1 hgroups) hgroup
  obtain ⟨scripts, hsame, hhoused⟩ := FileTree.exists_houses hsound exclude (hpaths base hbase)
  obtain rfl := Except.ok.inj (hsame.symm.trans hscripts)
  obtain ⟨folder, place, name, rfl, hhouse, hfile⟩ := hhoused path hmem
  exact discoverAt_total hsound hhouse hfile

/-! ### Accounting for constructs -/

/-- Discovery comes to an end within the limits of a file system. A construct that it looks at is accounted for
exactly if nothing claims it, or if something claims it that nothing else claims. It takes two scripts beside it to
lose it, and nothing is lost where constructs with the name or the mark of a companion are only ever controllers. -/
theorem discover_accounts (tree : FileTree) (exclude : List Text) (paths : List Path) :
    (tree.IsSound → (∀ base ∈ paths, tree.Reaches base) → ∃ outcome, discover tree exclude paths = .ok outcome) ∧
    ∀ sources records, discover tree exclude paths = .ok (sources, records) →
      ∀ path text kind, IsScanned tree exclude paths path → IsConstruct tree path text kind →
        (IsAccounted tree sources path text kind ↔ IsFree tree exclude paths path ∨
          ∃ claimant, IsScanned tree exclude paths claimant ∧ Claims tree claimant path ∧
            IsFree tree exclude paths claimant) ∧
        (¬IsAccounted tree sources path text kind →
          ∃ claimant rival, IsScanned tree exclude paths claimant ∧ IsScanned tree exclude paths rival ∧
            IsSibling tree path claimant ∧ IsSibling tree claimant rival) ∧
        (OnlyControllersServe tree exclude paths → IsAccounted tree sources path text kind) := by
  refine ⟨fun hsound hpaths => discover_total hsound exclude hpaths, ?_⟩
  intro sources records h path text kind hpath hconstruct
  refine ⟨isAccounted_iff h hpath hconstruct, exists_rival h hpath hconstruct, ?_⟩
  intro hserve
  rw [isAccounted_iff h hpath hconstruct]
  by_cases hfree : IsFree tree exclude paths path
  · exact Or.inl hfree
  · obtain ⟨claimant, hclaimant, hclaims⟩ := not_isFree_iff.1 hfree
    exact Or.inr ⟨claimant, hclaimant, hclaims, hserve.isFree hpath hconstruct hclaimant hclaims⟩

/-- The path to the root of a tree. -/
def Path.root : Path := { anchor := ['/'] }

/-- The path to a file at the root of a tree. -/
def Path.atRoot (name : String) : Path := root.below [txt name]

/-- The content of a script that registers a component. -/
def cardScript : Text := txt "angular.module('shop').component('card', \x7b\x7d)"

/-- The content of a script that registers the controller of a component. -/
def cardControllerScript : Text := txt "angular.module('shop').controller('CardController', [])"

/-- A component with its controller in a file of its own. -/
def cardTree : FileTree where
  files :=
    [([txt "card.component.js"], Utf8.encode cardScript),
      ([txt "card.controller.js"], Utf8.encode cardControllerScript)]

theorem sourcePaths_cardTree :
    sourcePaths cardTree [] .root = .ok [.atRoot "card.component.js", .atRoot "card.controller.js"] := by
  cbv

theorem isConstruct_cardController :
    IsConstruct cardTree (.atRoot "card.controller.js") cardControllerScript .controller :=
  ⟨by decide +kernel, by decide +kernel, by decide⟩

theorem onlyControllersServe_cardTree : OnlyControllersServe cardTree [] [.root] := by
  rintro path text kind role ⟨base, hbase, scripts, hscripts, hpath⟩ hconstruct hrole
  obtain rfl := List.mem_singleton.1 hbase
  obtain rfl := Except.ok.inj (sourcePaths_cardTree.symm.trans hscripts)
  rcases List.mem_cons.1 hpath with rfl | hsecond
  · have hnone : companionRole? cardTree (.atRoot "card.component.js") = .ok none := by decide +kernel
    exact nomatch Except.ok.inj (hnone.symm.trans hrole)
  · obtain rfl := List.mem_singleton.1 hsecond
    have hnamed : companionRole? cardTree (.atRoot "card.controller.js") = .ok (some .controller) := by decide +kernel
    exact ⟨(hconstruct.unique isConstruct_cardController).2,
      Option.some.inj (Except.ok.inj (hrole.symm.trans hnamed))⟩

/-- The controller of the component is accounted for. -/
theorem card_controller_accounted : cardTree.IsSound ∧ (∀ base ∈ [Path.root], cardTree.Reaches base) ∧
    OnlyControllersServe cardTree [] [.root] ∧ ∃ sources records,
      discover cardTree [] [.root] = .ok (sources, records) ∧
      IsAccounted cardTree sources (.atRoot "card.controller.js") cardControllerScript .controller := by
  have hsound : cardTree.IsSound := by decide +kernel
  have hreach : ∀ base ∈ [Path.root], cardTree.Reaches base := by decide +kernel
  have hscanned : IsScanned cardTree [] [.root] (.atRoot "card.controller.js") :=
    ⟨.root, List.mem_singleton_self _, _, sourcePaths_cardTree, List.mem_cons_of_mem _ (List.mem_singleton_self _)⟩
  obtain ⟨⟨sources, records⟩, h⟩ := (discover_accounts cardTree [] [.root]).1 hsound hreach
  have haccounts := (discover_accounts cardTree [] [.root]).2 sources records h _ _ _ hscanned
    isConstruct_cardController
  exact ⟨hsound, hreach, onlyControllersServe_cardTree, sources, records, h,
    haccounts.2.2 onlyControllersServe_cardTree⟩

/-- The content of a script that registers a component together with a controller. -/
def userScript : Text := txt "angular.module('shop').component('user', \x7b\x7d).controller('UserController', [])"

/-- The content of a script that registers a service together with a controller. -/
def usersScript : Text := txt "angular.module('shop').service('users', []).controller('UsersController', [])"

/-- A component and a service under one key, each with a controller beside it. -/
def userTree : FileTree where
  files := [([txt "user.component.js"], Utf8.encode userScript), ([txt "user.service.js"], Utf8.encode usersScript)]

theorem sourcePaths_userTree :
    sourcePaths userTree [] .root = .ok [.atRoot "user.component.js", .atRoot "user.service.js"] := by
  cbv

theorem fileNames_userTree :
    userTree.fileNames {} .root = .ok [txt "user.component.js", txt "user.service.js"] := by
  cbv

/-- The component and the service claim each other, so neither is returned and both are lost. -/
theorem rivals_lost : ∃ records, discover userTree [] [.root] = .ok ([], records) ∧
    (IsScanned userTree [] [.root] (.atRoot "user.component.js") ∧
      IsConstruct userTree (.atRoot "user.component.js") userScript .component ∧
      ¬IsAccounted userTree [] (.atRoot "user.component.js") userScript .component) ∧
    (IsScanned userTree [] [.root] (.atRoot "user.service.js") ∧
      IsConstruct userTree (.atRoot "user.service.js") usersScript .service ∧
      ¬IsAccounted userTree [] (.atRoot "user.service.js") usersScript .service) := by
  have hscanned : ∀ path ∈ [Path.atRoot "user.component.js", .atRoot "user.service.js"],
      IsScanned userTree [] [.root] path :=
    fun path hpath => ⟨.root, List.mem_singleton_self _, _, sourcePaths_userTree, hpath⟩
  have hcomponent : IsConstruct userTree (.atRoot "user.component.js") userScript .component :=
    ⟨by decide +kernel, by decide +kernel, by decide⟩
  have hservice : IsConstruct userTree (.atRoot "user.service.js") usersScript .service :=
    ⟨by decide +kernel, by decide +kernel, by decide⟩
  have hfirst : Claims userTree (.atRoot "user.component.js") (.atRoot "user.service.js") := by
    refine ⟨.controller, ⟨[(.controller, .atRoot "user.service.js")], ?_, List.mem_singleton_self _⟩, _, _,
      hcomponent, by decide⟩
    rw [companions, Path.atRoot, Path.parent_below, fileNames_userTree]
    decide +kernel
  have hsecond : Claims userTree (.atRoot "user.service.js") (.atRoot "user.component.js") := by
    refine ⟨.controller, ⟨[(.controller, .atRoot "user.component.js")], ?_, List.mem_singleton_self _⟩, _, _,
      hservice, by decide⟩
    rw [companions, Path.atRoot, Path.parent_below, fileNames_userTree]
    decide +kernel
  have hreach : ∀ base ∈ [Path.root], userTree.Reaches base := by decide +kernel
  obtain ⟨⟨sources, records⟩, h⟩ := discover_total (by decide +kernel) [] hreach
  have hnone : sources = [] := by
    rw [List.eq_nil_iff_forall_not_mem]
    intro source hsource
    obtain ⟨one, log, ⟨base, hbase, scripts, hscripts, hpath⟩, -, -, hfree⟩ := (mem_sources_iff h).1 hsource
    obtain rfl := List.mem_singleton.1 hbase
    obtain rfl := Except.ok.inj (sourcePaths_userTree.symm.trans hscripts)
    rcases List.mem_cons.1 hpath with hpath | hpath
    · rw [hpath] at hfree
      exact hfree _ (hscanned _ (List.mem_cons_of_mem _ (List.mem_singleton_self _))) hsecond
    · rw [List.mem_singleton.1 hpath] at hfree
      exact hfree _ (hscanned _ List.mem_cons_self) hfirst
  subst hnone
  exact ⟨records, h, ⟨hscanned _ List.mem_cons_self, hcomponent, nofun⟩,
    hscanned _ (List.mem_cons_of_mem _ (List.mem_singleton_self _)), hservice, nofun⟩

end AngularUplift
