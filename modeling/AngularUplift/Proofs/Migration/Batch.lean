import AngularUplift.Proofs.Migration.Isolation
import AngularUplift.Proofs.Sorting
import Mathlib.Data.List.Nodup

/-!
# What a batch produces

A batch that writes nothing produces what its sources produce on their own: no source that fails, and no other
source before it, changes what becomes of a source. Only the constants of several sources come together, in one
file at the end.

## Main definitions

* `Batch.ofKind`, `Batch.byKind`: the sources of one kind, and the sources kind by kind.
* `Batch.gathered`: the constants that the sources declare, the first one of each name.
* `Batch.expected`: the summary that the sources on their own amount to.

## Main statements

* `Batch.ordered_eq`: a batch takes its sources kind by kind, and within a kind in their order.
* `Batch.step_dryRun`, `Batch.foldl_step_dryRun`: what one source, and what several, add to the summary.
* `Batch.run_dryRun`: the summary of a batch.
-/

namespace AngularUplift

/-- What came of two parts of a batch, one after the other. -/
def Summary.followedBy (first second : Summary) : Summary where
  artifacts := first.artifacts ++ second.artifacts
  written := first.written ++ second.written
  skipped := first.skipped ++ second.skipped
  failures := first.failures ++ second.failures

namespace Summary

/-- What came of several parts of a batch, one after the other. -/
def total (parts : List Summary) : Summary where
  artifacts := parts.flatMap (·.artifacts)
  written := parts.flatMap (·.written)
  skipped := parts.flatMap (·.skipped)
  failures := parts.flatMap (·.failures)

/-- Nothing comes of a part without entries. -/
@[simp]
theorem followedBy_empty (summary : Summary) : summary.followedBy {} = summary := by
  simp [followedBy]

/-- The first of several parts, and then the others. -/
theorem followedBy_total_cons (summary part : Summary) (parts : List Summary) :
    (summary.followedBy part).followedBy (total parts) = summary.followedBy (total (part :: parts)) := by
  simp [followedBy, total]

end Summary

namespace Batch

/-! ### The order of a batch -/

/-- The sources of a kind, in their order. -/
def ofKind (kind : ConstructKind) (sources : List Source) : List Source :=
  sources.filter fun source => source.kind = kind

/-- The sources that are migrated, kind by kind, and within a kind in their order. -/
def byKind (sources : List Source) : List Source :=
  ConstructKind.migrationOrder.flatMap fun kind => ofKind kind sources

/-- The place of a source's kind among the kinds that are migrated; other kinds come last. -/
def rank (source : Source) : Nat := ConstructKind.migrationOrder.idxOf source.kind

/-- Sources of the same rank are of the same kind. -/
theorem kind_eq_of_rank_eq {a b : Source} (h : rank a = rank b) : a.kind = b.kind := by
  have hinjective : ∀ first second : ConstructKind,
      ConstructKind.migrationOrder.idxOf first = ConstructKind.migrationOrder.idxOf second →
        first = second := by
    intro first second
    cases first <;> cases second <;> decide
  exact hinjective _ _ h

/-- Two lists that are sorted by rank and have the same sources of each kind are the same. -/
theorem eq_of_ofKind_eq {sources others : List Source} (hsources : sources.Pairwise (rank · ≤ rank ·))
    (hothers : others.Pairwise (rank · ≤ rank ·)) (h : ∀ kind, ofKind kind sources = ofKind kind others) :
    sources = others := by
  induction sources generalizing others with
  | nil =>
    cases others with
    | nil => rfl
    | cons other others => simpa [ofKind] using h other.kind
  | cons source sources ih =>
    cases others with
    | nil => simpa [ofKind] using h source.kind
    | cons other others =>
      obtain ⟨hfirst, hrest⟩ := List.pairwise_cons.1 hsources
      obtain ⟨hother, hotherRest⟩ := List.pairwise_cons.1 hothers
      -- The first source of each list is also in the other one, so neither comes before the other.
      have hmem : source ∈ other :: others := by
        have hin : source ∈ ofKind source.kind (source :: sources) := by simp [ofKind]
        rw [h] at hin
        exact (List.mem_filter.1 hin).1
      have hotherMem : other ∈ source :: sources := by
        have hin : other ∈ ofKind other.kind (other :: others) := by simp [ofKind]
        rw [← h] at hin
        exact (List.mem_filter.1 hin).1
      have hrank : rank source = rank other := by
        refine Nat.le_antisymm ?_ ?_
        · rcases List.mem_cons.1 hotherMem with rfl | hin
          · exact Nat.le_refl _
          · exact hfirst other hin
        · rcases List.mem_cons.1 hmem with rfl | hin
          · exact Nat.le_refl _
          · exact hother source hin
      -- Being of the same kind, both are the first of that kind, and so the same source.
      have hkind := kind_eq_of_rank_eq hrank
      have hheads := h source.kind
      simp only [ofKind, hkind, List.filter_cons, decide_true, if_true, List.cons.injEq] at hheads
      obtain rfl := hheads.1
      rw [ih hrest hotherRest fun kind => ?_]
      have htails := h kind
      simp only [ofKind, List.filter_cons] at htails
      split at htails
      · exact (List.cons.inj htails).2
      · exact htails

/-- The kind of a source of a kind. -/
theorem kind_of_mem_ofKind {kind : ConstructKind} {sources : List Source} {source : Source}
    (h : source ∈ ofKind kind sources) : source.kind = kind :=
  of_decide_eq_true (List.mem_filter.1 h).2

/-- Of the sources of one kind, all or none are of another kind. -/
theorem ofKind_ofKind (kind other : ConstructKind) (sources : List Source) :
    ofKind kind (ofKind other sources) = if other = kind then ofKind kind sources else [] := by
  split
  · next heq =>
    subst heq
    exact List.filter_eq_self.2 fun source hsource => decide_eq_true (kind_of_mem_ofKind hsource)
  · next hne =>
    refine List.filter_eq_nil_iff.2 fun source hsource hkind => hne ?_
    rw [← kind_of_mem_ofKind hsource, of_decide_eq_true hkind]

/-- Sources of one kind are sorted by rank. -/
theorem pairwise_ofKind (kind : ConstructKind) (sources : List Source) :
    (ofKind kind sources).Pairwise (rank · ≤ rank ·) := by
  refine List.pairwise_of_forall_mem_list fun a ha b hb => Nat.le_of_eq ?_
  rw [rank, rank, kind_of_mem_ofKind ha, kind_of_mem_ofKind hb]

/-- A batch takes its sources in an order that is sorted by rank. -/
theorem pairwise_ordered (sources : List Source) : (ordered sources).Pairwise (rank · ≤ rank ·) :=
  (List.pairwise_mergeSort (key_le_trans rank) (key_le_total rank) sources).imp fun h => of_decide_eq_true h

/-- Ordering the sources of a batch keeps the order within a kind. -/
theorem ofKind_ordered (kind : ConstructKind) (sources : List Source) :
    ofKind kind (ordered sources) = ofKind kind sources := by
  refine filter_mergeSort (key_le_trans rank) (key_le_total rank) (fun a b ha hb => decide_eq_true ?_) sources
  refine Nat.le_of_eq ?_
  rw [rank, rank, of_decide_eq_true ha, of_decide_eq_true hb]

/-- A batch takes its sources kind by kind, and within a kind in their order; unit tests come last. -/
theorem ordered_eq (sources : List Source) : ordered sources = byKind sources ++ ofKind .spec sources := by
  have hall : byKind sources ++ ofKind .spec sources =
      (ConstructKind.migrationOrder ++ [ConstructKind.spec]).flatMap fun kind => ofKind kind sources := by
    rw [List.flatMap_append, List.flatMap_singleton, byKind]
  -- Both lists are sorted by rank and agree on every kind.
  rw [hall]
  refine eq_of_ofKind_eq (pairwise_ordered sources) ?_ fun kind => ?_
  · refine List.pairwise_flatMap.2 ⟨fun kind _ => pairwise_ofKind kind sources, ?_⟩
    have hkinds : (ConstructKind.migrationOrder ++ [ConstructKind.spec]).Pairwise fun first second =>
        ConstructKind.migrationOrder.idxOf first ≤ ConstructKind.migrationOrder.idxOf second := by decide
    refine hkinds.imp fun hle a ha b hb => ?_
    rwa [rank, rank, kind_of_mem_ofKind ha, kind_of_mem_ofKind hb]
  · rw [ofKind_ordered, ofKind, ofKind, List.filter_flatMap]
    have hfilter : ∀ other : ConstructKind,
        (ofKind other sources).filter (fun source => source.kind = kind) =
          if other = kind then ofKind kind sources else [] := fun other => ofKind_ofKind kind other sources
    simp only [hfilter]
    cases kind <;> simp [ConstructKind.migrationOrder, ofKind]

/-! ### One source -/

/-- What a step of a batch that writes nothing adds to the summary: its artifacts, or its failure. -/
def entry (path : Option Path) (kind : ConstructKind) : Except Fault (List Artifact) → Summary
  | .ok artifacts => { artifacts }
  | .error fault => { failures := [⟨path, kind, fault⟩] }

/-- What a source adds to the summary of a batch that writes nothing. -/
def contribution (settings : Settings) (source : Source) : Summary :=
  if source.kind = .spec then { skipped := [source.path] }
  else entry (some source.path) source.kind (source.outcome settings)

/-- Writing nothing, artifacts are only listed and logged, and no fault can arise. -/
theorem emit_dryRun (s : State) (artifacts : List Artifact) :
    ∃ records, emit .dryRun s artifacts =
      ({ s with
          journal := { s.journal with records }
          summary := { s.summary with artifacts := s.summary.artifacts ++ artifacts } }, none) := by
  induction artifacts generalizing s with
  | nil => exact ⟨s.journal.records, by simp [emit]⟩
  | cons artifact artifacts ih =>
    obtain ⟨records, hrest⟩ := ih (emitOne .dryRun s artifact).1
    refine ⟨records, ?_⟩
    rw [emit]
    change emit .dryRun (emitOne .dryRun s artifact).1 artifacts = _
    rw [hrest]
    simp [emitOne, State.info, State.log]

/-- A step of a batch that writes nothing adds its artifacts or its failure to the summary, and leaves the constants
that the step itself leaves. -/
theorem attempt_dryRun (path : Option Path) (kind : ConstructKind) (work : Migration (List Artifact)) (s : State) :
    (attempt .dryRun path kind work s).summary =
        s.summary.followedBy (entry path kind (work.runFrom s.journal).1) ∧
      (attempt .dryRun path kind work s).journal.constants = (work.runFrom s.journal).2.constants ∧
      (attempt .dryRun path kind work s).tree = s.tree := by
  unfold attempt
  generalize work.runFrom s.journal = ran
  obtain ⟨outcome, journal⟩ := ran
  cases outcome with
  | error fault =>
    refine ⟨?_, rfl, rfl⟩
    simp [fail, State.log, State.report, entry, Summary.followedBy]
  | ok artifacts =>
    -- Emitting could fail only while a file is written.
    obtain ⟨records, hemit⟩ := emit_dryRun { s with journal } artifacts
    simp only [hemit, entry, Summary.followedBy, List.append_nil, and_self]

/-- Every kind but unit tests is migrated. -/
theorem elem_migrationOrder {kind : ConstructKind} (h : kind ≠ .spec) :
    ConstructKind.migrationOrder.elem kind = true := by
  revert h
  cases kind <;> decide

/-- A source of a batch that writes nothing adds its contribution to the summary, and its constants to those set
aside. -/
theorem step_dryRun (settings : Settings) (s : State) (source : Source) :
    (step settings ConstructKind.migrationOrder .dryRun s source).summary =
        s.summary.followedBy (contribution settings source) ∧
      (step settings ConstructKind.migrationOrder .dryRun s source).journal.constants =
        source.declared.foldl Migration.setAside s.journal.constants ∧
      (step settings ConstructKind.migrationOrder .dryRun s source).tree = s.tree := by
  unfold step contribution
  by_cases hkind : source.kind = .spec
  · have hskipped : ConstructKind.migrationOrder.elem source.kind = false := by
      rw [hkind]
      decide
    rw [hskipped, if_pos hkind, Source.declared_eq_nil (by simp [hkind])]
    refine ⟨?_, rfl, rfl⟩
    simp [State.log, Summary.followedBy]
  · rw [if_pos (elem_migrationOrder hkind), if_neg hkind]
    obtain ⟨hsummary, hconstants, htree⟩ := attempt_dryRun (some source.path) source.kind
      (migrate settings source) (s.report (.title (source.kind.label ++ [' '] ++ source.path.name) 2 []) false)
    obtain ⟨houtcome, hdeclared⟩ := runFrom_migrate settings source
      (s.report (.title (source.kind.label ++ [' '] ++ source.path.name) 2 []) false).journal
    rw [houtcome] at hsummary
    exact ⟨hsummary, hconstants.trans hdeclared, htree⟩

/-! ### All sources -/

/-- Sources of a batch that writes nothing add their contributions to the summary, one after the other, and their
constants to those set aside. -/
theorem foldl_step_dryRun (settings : Settings) (s : State) (sources : List Source) :
    let final := sources.foldl (step settings ConstructKind.migrationOrder .dryRun) s
    final.summary = s.summary.followedBy (Summary.total (sources.map (contribution settings))) ∧
      final.journal.constants =
        (sources.flatMap Source.declared).foldl Migration.setAside s.journal.constants ∧
      final.tree = s.tree := by
  induction sources generalizing s with
  | nil => exact ⟨(Summary.followedBy_empty _).symm, rfl, rfl⟩
  | cons source sources ih =>
    obtain ⟨hsummary, hconstants, htree⟩ := step_dryRun settings s source
    obtain ⟨hrest, hrestConstants, hrestTree⟩ :=
      ih (step settings ConstructKind.migrationOrder .dryRun s source)
    refine ⟨hrest.trans ?_, hrestConstants.trans ?_, hrestTree.trans htree⟩
    · rw [hsummary, Summary.followedBy_total_cons, List.map_cons]
    · rw [hconstants, List.flatMap_cons, List.foldl_append]

/-- The end of a kind without constants adds nothing. -/
theorem foldl_finish_dryRun (settings : Settings) (s : State) {kinds : List ConstructKind}
    (h : ∀ kind ∈ kinds, kind ≠ .constant) :
    let final := kinds.foldl (fun s kind => attempt .dryRun none kind (finish settings kind) s) s
    final.summary = s.summary ∧ final.journal.constants = s.journal.constants ∧ final.tree = s.tree := by
  induction kinds generalizing s with
  | nil => exact ⟨rfl, rfl, rfl⟩
  | cons kind kinds ih =>
    obtain ⟨hkind, hkinds⟩ := List.forall_mem_cons.1 h
    have hfinish : finish settings kind = pure [] := if_neg hkind
    obtain ⟨hsummary, hconstants, htree⟩ := attempt_dryRun none kind (finish settings kind) s
    rw [hfinish] at hsummary hconstants htree
    obtain ⟨hrest, hrestConstants, hrestTree⟩ := ih (attempt .dryRun none kind (pure []) s) hkinds
    rw [List.foldl_cons, hfinish]
    exact ⟨hrest.trans (hsummary.trans (Summary.followedBy_empty _)), hrestConstants.trans hconstants,
      hrestTree.trans htree⟩

/-- The artifacts that a source gives on its own; none when its migration fails. -/
def produced (settings : Settings) (source : Source) : List Artifact :=
  match source.outcome settings with
  | .ok artifacts => artifacts
  | .error _ => []

/-- The failure of a source that cannot be migrated on its own. -/
def failure? (settings : Settings) (source : Source) : Option Failure :=
  match source.outcome settings with
  | .ok _ => none
  | .error fault => some ⟨some source.path, source.kind, fault⟩

/-- The constants that the sources of constants declare, in their order; the first one of each name stays. -/
def gathered (sources : List Source) : List Variable :=
  ((ofKind .constant sources).flatMap Source.declared).foldl Migration.setAside []

/-- What sources on their own amount to: the artifacts of each, kind by kind, and the file of the constants, the
failures in the same order, and the unit tests, which are skipped. Nothing is written. -/
def expected (settings : Settings) (sources : List Source) : Summary where
  artifacts :=
    (byKind sources).flatMap (produced settings) ++ Migration.constantsFile settings (gathered sources)
  failures := (byKind sources).filterMap (failure? settings)
  skipped := (ofKind .spec sources).map (·.path)

/-- The sources that are migrated are those of other kinds than unit tests. -/
theorem kind_ne_spec_of_mem_byKind {sources : List Source} {source : Source} (h : source ∈ byKind sources) :
    source.kind ≠ .spec := by
  obtain ⟨kind, hkind, hsource⟩ := List.mem_flatMap.1 h
  rw [kind_of_mem_ofKind hsource]
  rintro rfl
  simp [ConstructKind.migrationOrder] at hkind

/-- The contributions of the sources in the order of a batch. -/
theorem total_contributions (settings : Settings) (sources : List Source) :
    Summary.total ((ordered sources).map (contribution settings)) =
      { artifacts := (byKind sources).flatMap (produced settings)
        failures := (byKind sources).filterMap (failure? settings)
        skipped := (ofKind .spec sources).map (·.path) } := by
  have hspec : ∀ source ∈ ofKind .spec sources,
      contribution settings source = { skipped := [source.path] } :=
    fun source hsource => if_pos (kind_of_mem_ofKind hsource)
  have hkinds : ∀ source ∈ byKind sources,
      contribution settings source =
        { artifacts := produced settings source, failures := (failure? settings source).toList } := by
    intro source hsource
    rw [contribution, if_neg (kind_ne_spec_of_mem_byKind hsource), produced, failure?]
    cases source.outcome settings <;> rfl
  have hempty : ∀ (β : Type) (list : List Source), list.flatMap (fun _ => ([] : List β)) = [] :=
    fun β list => List.flatMap_eq_nil_iff.2 fun _ _ => rfl
  rw [ordered_eq, List.map_append, List.map_congr_left hspec, List.map_congr_left hkinds]
  simp only [Summary.total, List.flatMap_append, List.flatMap_map, hempty, List.append_nil, List.nil_append,
    ← List.map_eq_flatMap, ← List.filterMap_eq_flatMap_toList]

/-- The constants that the sources declare in the order of a batch are those of the sources of constants. -/
theorem flatMap_declared_ordered (sources : List Source) :
    (ordered sources).flatMap Source.declared = (ofKind .constant sources).flatMap Source.declared := by
  have hnone : ∀ kind ≠ ConstructKind.constant, (ofKind kind sources).flatMap Source.declared = [] := by
    intro kind hkind
    refine List.flatMap_eq_nil_iff.2 fun source hsource => Source.declared_eq_nil ?_
    rwa [kind_of_mem_ofKind hsource]
  simp [ordered_eq, byKind, ConstructKind.migrationOrder, List.flatMap_append, hnone]

/-- A batch that writes nothing, with no constants set aside before, gives the summary that its sources on their own
amount to. Afterwards no constants are set aside, and the files are as before. -/
theorem run_dryRun (settings : Settings) {journal : Journal} (h : journal.constants = []) (tree : FileTree)
    (sources : List Source) :
    let final := run settings ConstructKind.migrationOrder .dryRun journal tree sources
    final.summary = expected settings sources ∧ final.journal.constants = [] ∧ final.tree = tree := by
  intro final
  -- The batch: a log record, the sources, the end of each kind, and another log record.
  let started : State :=
    ({ journal, tree } : State).info (txt "Migrating " ++ Text.ofNat sources.length ++ txt " source file(s)")
  let migrated := (ordered sources).foldl (step settings ConstructKind.migrationOrder .dryRun) started
  let collected := attempt .dryRun none .constant (finish settings .constant) migrated
  let ended := (ConstructKind.migrationOrder.drop 1).foldl
    (fun s kind => attempt .dryRun none kind (finish settings kind) s) collected
  have hends : ConstructKind.migrationOrder.filter ConstructKind.migrationOrder.elem =
      ConstructKind.migrationOrder := by decide
  have hfinal : final = ended.info (closing .dryRun ended.summary) := by
    simp only [final, run, hends]
    rfl
  obtain ⟨hmigrated, hdeclared, htree⟩ := foldl_step_dryRun settings started (ordered sources)
  obtain ⟨hcollected, hconstants, hcollectedTree⟩ :=
    attempt_dryRun none .constant (finish settings .constant) migrated
  obtain ⟨hended, hendedConstants, hendedTree⟩ :=
    foldl_finish_dryRun settings collected
      (by decide : ∀ kind ∈ ConstructKind.migrationOrder.drop 1, kind ≠ .constant)
  have hfinish : finish settings .constant = Migration.gatherConstants settings := if_pos rfl
  obtain ⟨hfile, hemptied⟩ := Migration.runFrom_gatherConstants settings migrated.journal
  have hgathered : migrated.journal.constants = gathered sources := by
    have hstarted : started.journal.constants = [] := h
    rw [hdeclared, flatMap_declared_ordered, hstarted, gathered]
  -- The end of the constants comes first and empties what was set aside.
  rw [hfinish, hfile, hgathered, hmigrated, total_contributions] at hcollected
  rw [hfinish, hemptied] at hconstants
  rw [hfinal]
  refine ⟨hended.trans (hcollected.trans ?_), hendedConstants.trans hconstants, hendedTree.trans ?_⟩
  · simp [Summary.followedBy, entry, expected, started, State.info, State.log]
  · exact hcollectedTree.trans htree

/-! ### Consequences -/

/-- Setting constants aside never gives one up. -/
theorem foldl_setAside_ne_nil {known : List Variable} (h : known ≠ []) (constants : List Variable) :
    constants.foldl Migration.setAside known ≠ [] := by
  induction constants generalizing known with
  | nil => exact h
  | cons constant constants ih =>
    refine ih ?_
    rw [Migration.setAside]
    split
    · exact h
    · simp

/-- A source of constants can be migrated exactly when it declares some. -/
theorem declared_ne_nil_iff (settings : Settings) {source : Source} (h : source.kind = .constant) :
    source.declared ≠ [] ↔ ∃ artifacts, source.outcome settings = .ok artifacts := by
  obtain ⟨hok, herror⟩ := source.outcome_constant settings h
  constructor
  · exact fun hne => ⟨[], hok hne⟩
  · rintro ⟨artifacts, houtcome⟩ hnil
    obtain ⟨fault, hfault⟩ := herror hnil
    simp [houtcome] at hfault

/-- Constants are gathered exactly when a source of constants can be migrated. -/
theorem gathered_ne_nil_iff (settings : Settings) (sources : List Source) :
    gathered sources ≠ [] ↔
      ∃ source ∈ sources, source.kind = .constant ∧ ∃ artifacts, source.outcome settings = .ok artifacts := by
  have hdeclares : gathered sources ≠ [] ↔ ∃ source ∈ ofKind .constant sources, source.declared ≠ [] := by
    rw [gathered]
    -- The first constant that is declared is always set aside.
    cases hall : (ofKind .constant sources).flatMap Source.declared with
    | nil =>
      have hnone := List.flatMap_eq_nil_iff.1 hall
      simpa using hnone
    | cons first rest =>
      have hfirst : first ∈ (ofKind .constant sources).flatMap Source.declared := by simp [hall]
      obtain ⟨source, hsource, hmem⟩ := List.mem_flatMap.1 hfirst
      refine iff_of_true (foldl_setAside_ne_nil ?_ rest) ⟨source, hsource, List.ne_nil_of_mem hmem⟩
      simp [Migration.setAside]
  rw [hdeclares]
  constructor
  · rintro ⟨source, hsource, hne⟩
    have hkind := kind_of_mem_ofKind hsource
    exact ⟨source, (List.mem_filter.1 hsource).1, hkind, (declared_ne_nil_iff settings hkind).1 hne⟩
  · rintro ⟨source, hsource, hkind, hok⟩
    exact ⟨source, List.mem_filter.2 ⟨hsource, decide_eq_true hkind⟩, (declared_ne_nil_iff settings hkind).2 hok⟩

/-- A batch takes every source once. -/
theorem byKind_append_perm (sources : List Source) : (byKind sources ++ ofKind .spec sources).Perm sources := by
  rw [← ordered_eq]
  exact List.mergeSort_perm ..

/-- Sources that have the same sources of each kind amount to the same. -/
theorem expected_congr (settings : Settings) {sources others : List Source}
    (h : ∀ kind, ofKind kind others = ofKind kind sources) :
    expected settings others = expected settings sources := by
  simp only [expected, byKind, gathered, h]

/-- The sources of a kind, with one more source among them. -/
theorem ofKind_append_cons (kind : ConstructKind) (before after : List Source) (source : Source) :
    ofKind kind (before ++ source :: after) =
      ofKind kind before ++ (if source.kind = kind then [source] else []) ++ ofKind kind after := by
  rw [ofKind, List.filter_append, List.filter_cons]
  split
  · next h =>
    rw [if_pos (of_decide_eq_true h)]
    simp [ofKind]
  · next h =>
    rw [if_neg fun hkind => h (decide_eq_true hkind)]
    simp [ofKind]

/-- The sources of a batch, kind by kind, with one more source among them. -/
theorem byKind_append_cons (before after : List Source) {source : Source} (h : source.kind ≠ .spec) :
    ∃ first last, byKind (before ++ source :: after) = first ++ source :: last ∧
      byKind (before ++ after) = first ++ last := by
  have hmem : source.kind ∈ ConstructKind.migrationOrder := by
    revert h
    cases source.kind <;> simp [ConstructKind.migrationOrder]
  have hnodup : ConstructKind.migrationOrder.Nodup := by simp [ConstructKind.migrationOrder]
  -- Only the sources of this one kind, which is migrated once, are not the same.
  obtain ⟨earlier, later, horder⟩ := List.append_of_mem hmem
  rw [horder, List.nodup_middle, List.nodup_cons, List.mem_append] at hnodup
  have hother : ∀ kinds : List ConstructKind, source.kind ∉ kinds →
      kinds.flatMap (fun kind => ofKind kind (before ++ source :: after)) =
        kinds.flatMap fun kind => ofKind kind (before ++ after) := by
    intro kinds hkinds
    refine List.flatMap_congr fun kind hkind => ?_
    have hne : source.kind ≠ kind := fun heq => hkinds (heq ▸ hkind)
    rw [ofKind_append_cons, if_neg hne, List.append_nil, ofKind, ofKind, ofKind, List.filter_append]
  refine ⟨earlier.flatMap (fun kind => ofKind kind (before ++ after)) ++ ofKind source.kind before,
    ofKind source.kind after ++ later.flatMap fun kind => ofKind kind (before ++ after), ?_, ?_⟩
  · rw [byKind, horder, List.flatMap_append, List.flatMap_cons, hother earlier fun hin => hnodup.1 (.inl hin),
      hother later fun hin => hnodup.1 (.inr hin), ofKind_append_cons, if_pos rfl]
    simp
  · rw [byKind, horder, List.flatMap_append, List.flatMap_cons, ofKind, ofKind, ofKind, List.filter_append]
    simp

/-- A summary that is the same but for one failure, which is left out. -/
def Omits (failure : Failure) (whole rest : Summary) : Prop :=
  rest.artifacts = whole.artifacts ∧ rest.written = whole.written ∧ rest.skipped = whole.skipped ∧
    ∃ first last, whole.failures = first ++ failure :: last ∧ rest.failures = first ++ last

/-- Without a source that fails, the other sources amount to the same. -/
theorem omits_expected {settings : Settings} {before later : List Source} {failing : Source} {fault : Fault}
    (hkind : failing.kind ≠ .spec) (hfault : failing.outcome settings = .error fault) :
    Omits ⟨some failing.path, failing.kind, fault⟩ (expected settings (before ++ failing :: later))
      (expected settings (before ++ later)) := by
  obtain ⟨first, last, hwith, hwithout⟩ := byKind_append_cons before later hkind
  have hproduced : produced settings failing = [] := by simp [produced, hfault]
  have hfailure : failure? settings failing = some ⟨some failing.path, failing.kind, fault⟩ := by
    simp [failure?, hfault]
  have hspec : ofKind .spec (before ++ failing :: later) = ofKind .spec (before ++ later) := by
    simp [ofKind, hkind]
  have hgathered : gathered (before ++ failing :: later) = gathered (before ++ later) := by
    -- A source that declares constants is of that kind and can be migrated.
    have hdeclared : failing.declared = [] := by
      by_contra hne
      have hconstant : failing.kind = .constant := by
        by_contra hother
        exact hne (Source.declared_eq_nil hother)
      have hok := (failing.outcome_constant settings hconstant).1 hne
      simp [hfault] at hok
    rw [gathered, gathered, ofKind_append_cons]
    congr 1
    split
    · simp [ofKind, List.flatMap_append, hdeclared]
    · simp [ofKind]
  refine ⟨?_, rfl, ?_, first.filterMap (failure? settings), last.filterMap (failure? settings), ?_, ?_⟩
  · simp [expected, hwith, hwithout, hproduced, hgathered]
  · simp only [expected, hspec]
  · simp [expected, hwith, hfailure]
  · simp [expected, hwithout]

/-- A source can be migrated on its own. -/
def succeeds (settings : Settings) (source : Source) : Bool := (source.outcome settings).isOk

/-- The sources that can be migrated, those that fail and those that are skipped are all the sources. -/
theorem length_expected (settings : Settings) (sources : List Source) :
    ((byKind sources).filter (succeeds settings)).length +
        (expected settings sources).failures.length + (expected settings sources).skipped.length =
      sources.length := by
  -- Each source that is migrated either succeeds or fails.
  have hsplit : ∀ list : List Source,
      (list.filter (succeeds settings)).length +
        (list.filterMap (failure? settings)).length = list.length := by
    intro list
    induction list with
    | nil => rfl
    | cons source list ih =>
      cases houtcome : source.outcome settings with
      | ok artifacts =>
        have hok : succeeds settings source = true := by simp [succeeds, houtcome, Except.isOk, Except.toBool]
        have hnone : failure? settings source = none := by simp [failure?, houtcome]
        rw [List.filter_cons_of_pos hok, List.filterMap_cons_none hnone, List.length_cons, List.length_cons]
        omega
      | error fault =>
        have hfails : ¬succeeds settings source = true := by simp [succeeds, houtcome, Except.isOk, Except.toBool]
        have hsome : failure? settings source = some ⟨some source.path, source.kind, fault⟩ := by
          simp [failure?, houtcome]
        rw [List.filter_cons_of_neg hfails, List.filterMap_cons_some hsome, List.length_cons, List.length_cons]
        omega
  have hall := (byKind_append_perm sources).length_eq
  rw [List.length_append, ← hsplit (byKind sources)] at hall
  simpa [expected] using hall

end Batch

end AngularUplift
