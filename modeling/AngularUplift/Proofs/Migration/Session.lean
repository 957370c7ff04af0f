import AngularUplift.Proofs.Migration.Batch

/-!
# Sessions

A session is a sequence of calls that share one journal: batches that write nothing, and texts that are migrated on
their own. Whatever the calls before came to, no constants stay set aside after a call, so each call gives what it
gives on a fresh journal.

## Main definitions

* `Call`, `Session.perform`: a call, and the journal after it.
* `Session.after`: the journal after a sequence of calls.

## Main statements

* `Session.constants_after`: between calls no constants are set aside.
* `Session.batch_isolated`: what a batch gives, and that no source in it depends on another one.
* `Session.migrateText_stable`: what a text gives depends on no call before it.
-/

namespace AngularUplift

open Batch

/-- A call of a session. -/
inductive Call where
  /-- A batch that writes nothing, among given files. -/
  | batch (tree : FileTree) (sources : List Source)
  /-- A text that is migrated on its own. -/
  | text (kind : ConstructKind) (text key : Text) (companions : List (CompanionRole × Text))

/-- The source that a text on its own stands for; without a key the kind's name is the key. -/
def Source.ofText (kind : ConstructKind) (text key : Text) (companions : List (CompanionRole × Text)) : Source :=
  let key := if key.isEmpty then kind.label else key
  ⟨textPath key, text, kind, companions, key⟩

namespace Session

/-- The journal after a call, whether it succeeds or fails. -/
def perform (settings : Settings) (journal : Journal) : Call → Journal
  | .batch tree sources => (run settings ConstructKind.migrationOrder .dryRun journal tree sources).journal
  | .text kind text key companions => ((migrateText settings kind text key companions).runFrom journal).2

/-- The journal after a sequence of calls on a fresh one. -/
def after (settings : Settings) (history : List Call) : Journal :=
  history.foldl (perform settings) {}

/-! ### A text on its own -/

/-- What a text on its own comes to: the artifacts of its source, and the file of its constants if it declares
any. -/
def textOutcome (settings : Settings) (source : Source) : Except Fault (List Artifact) :=
  (source.outcome settings).map (· ++ Migration.constantsFile settings (gathered [source]))

/-- The constants that are gathered from a single source. -/
theorem gathered_singleton (source : Source) :
    gathered [source] = source.declared.foldl Migration.setAside [] := by
  by_cases hkind : source.kind = .constant
  · simp [gathered, ofKind, hkind]
  · simp [gathered, ofKind, hkind, Source.declared_eq_nil hkind]

/-- Nothing is left of the constants of a text when the end of its kind is reached. -/
theorem runFrom_finish (settings : Settings) {source : Source} {journal : Journal}
    (h : journal.constants = gathered [source]) :
    ((finish settings source.kind).runFrom journal).1 =
        .ok (Migration.constantsFile settings (gathered [source])) ∧
      ((finish settings source.kind).runFrom journal).2.constants = [] := by
  by_cases hkind : source.kind = .constant
  · obtain ⟨hfile, hemptied⟩ := Migration.runFrom_gatherConstants settings journal
    rw [finish, if_pos hkind, ← h]
    exact ⟨hfile, hemptied⟩
  · have hnone : gathered [source] = [] := by
      rw [gathered_singleton, Source.declared_eq_nil hkind]
      rfl
    rw [finish, if_neg hkind, Migration.runFrom_pure, hnone]
    exact ⟨rfl, h.trans hnone⟩

/-- A text that fails has set no constants aside. -/
theorem gathered_eq_nil_of_error (settings : Settings) {source : Source} {fault : Fault}
    (h : source.outcome settings = .error fault) : gathered [source] = [] := by
  by_contra hne
  obtain ⟨other, hmem, -, artifacts, hok⟩ := (gathered_ne_nil_iff settings [source]).1 hne
  obtain rfl := List.mem_singleton.1 hmem
  simp [h] at hok

/-- A text that is migrated while no constants are set aside comes to what its source comes to on its own, and
leaves no constants set aside. -/
theorem runFrom_migrateText (settings : Settings) (kind : ConstructKind) (text key : Text)
    (companions : List (CompanionRole × Text)) {journal : Journal} (h : journal.constants = []) :
    ((migrateText settings kind text key companions).runFrom journal).1 =
        textOutcome settings (Source.ofText kind text key companions) ∧
      ((migrateText settings kind text key companions).runFrom journal).2.constants = [] := by
  by_cases hkind : kind = .spec
  · subst hkind
    exact ⟨rfl, h⟩
  -- The text is migrated as its source is, and then the end of its kind is reached.
  let source := Source.ofText kind text key companions
  have hbody : migrateText settings kind text key companions = (do
      let moved ← migrate settings source
      let rest ← finish settings source.kind
      return moved ++ rest) := by
    rw [migrateText, elem_migrationOrder hkind]
    rfl
  have htarget : textOutcome settings (Source.ofText kind text key companions) = textOutcome settings source := rfl
  obtain ⟨houtcome, hconstants⟩ := runFrom_migrate settings source journal
  rw [h, ← gathered_singleton] at hconstants
  rw [hbody, htarget, Migration.runFrom_bind, textOutcome, ← houtcome]
  generalize hran : (migrate settings source).runFrom journal = ran at houtcome hconstants
  obtain ⟨outcome, left⟩ := ran
  cases outcome with
  -- After a fault the end of the kind is not reached; but then no constants were set aside.
  | error fault => exact ⟨rfl, hconstants.trans (gathered_eq_nil_of_error settings houtcome.symm)⟩
  | ok moved =>
    obtain ⟨hrest, hemptied⟩ := runFrom_finish settings hconstants
    simp only [Migration.runFrom_bind]
    generalize (finish settings source.kind).runFrom left = ended at hrest hemptied
    obtain ⟨outcome, final⟩ := ended
    subst hrest
    exact ⟨rfl, hemptied⟩

/-- The artifacts of a batch of one source are those of its text on its own. -/
theorem artifacts_expected_singleton {settings : Settings} {source : Source} {artifacts : List Artifact}
    (h : textOutcome settings source = .ok artifacts) : (expected settings [source]).artifacts = artifacts := by
  rw [textOutcome] at h
  cases hmoved : source.outcome settings with
  | error fault => simp [hmoved, Except.map] at h
  | ok moved =>
    -- Unit tests are not migrated on their own, so the source is not among those that are skipped.
    have hkind : source.kind ≠ .spec := by
      intro hspec
      rw [Source.outcome, migrate, hspec] at hmoved
      cases hmoved
    have hsingle : byKind [source] = [source] := by
      have hperm := byKind_append_perm [source]
      rw [show ofKind .spec [source] = [] by simp [ofKind, hkind], List.append_nil] at hperm
      exact List.perm_singleton.1 hperm
    rw [hmoved] at h
    obtain rfl := Except.ok.inj h
    rw [expected, hsingle]
    simp [produced, hmoved]

/-! ### Any calls -/

/-- A call leaves no constants set aside if there were none. -/
theorem constants_perform (settings : Settings) {journal : Journal} (h : journal.constants = []) (call : Call) :
    (perform settings journal call).constants = [] := by
  cases call with
  | batch tree sources => exact (run_dryRun settings h tree sources).2.1
  | text kind text key companions => exact (runFrom_migrateText settings kind text key companions h).2

/-- Between calls no constants are set aside. -/
theorem constants_after (settings : Settings) (history : List Call) : (after settings history).constants = [] := by
  -- The invariant has to be carried from any journal, not only from a fresh one.
  suffices hfrom : ∀ journal : Journal, journal.constants = [] →
      (history.foldl (perform settings) journal).constants = [] from hfrom {} rfl
  induction history with
  | nil => exact fun _ h => h
  | cons call history ih => exact fun journal h => ih _ (constants_perform settings h call)

/-! ### What a call gives -/

/-- What a batch gives that writes nothing, after any calls: the artifacts of each source on its own, kind by kind
and within a kind in the given order, then the file of the constants if a source of constants can be migrated; the
failures of the sources on their own in the same order; and the unit tests as skipped. Each source counts once, a
source that fails can be left out without any other change, and only the order within each kind matters. -/
theorem batch_isolated (settings : Settings) (history : List Call) (tree : FileTree) (sources : List Source) :
    let final := run settings ConstructKind.migrationOrder .dryRun (after settings history) tree
    let summary (sources : List Source) : Summary := (final sources).summary
    summary sources = expected settings sources ∧ (final sources).tree = tree ∧
      (Migration.constantsFile settings (gathered sources) ≠ [] ↔
        ∃ source ∈ sources, source.kind = .constant ∧ ∃ artifacts, source.outcome settings = .ok artifacts) ∧
      (byKind sources ++ ofKind .spec sources).Perm sources ∧
      ((byKind sources).filter (succeeds settings)).length + (summary sources).failures.length +
          (summary sources).skipped.length = sources.length ∧
      (∀ before failing later fault, failing.kind ≠ .spec → failing.outcome settings = .error fault →
        Omits ⟨some failing.path, failing.kind, fault⟩ (summary (before ++ failing :: later))
          (summary (before ++ later))) ∧
      ∀ others, (∀ kind, ofKind kind others = ofKind kind sources) → summary others = summary sources := by
  intro final summary
  have hrun := run_dryRun settings (constants_after settings history) tree
  -- Everything is read off what the sources amount to on their own.
  have hsummary : ∀ sources, summary sources = expected settings sources := fun sources => (hrun sources).1
  simp only [hsummary]
  refine ⟨trivial, (hrun sources).2.2, ?_, byKind_append_perm sources, length_expected settings sources, ?_, ?_⟩
  · rw [← gathered_ne_nil_iff, Migration.constantsFile]
    cases gathered sources with
    | nil => simp
    | cons first rest => simp
  · intro before failing later fault hkind hfault
    exact omits_expected hkind hfault
  · intro others hothers
    exact expected_congr settings hothers

/-- What a text gives that is migrated on its own depends on no call before it; and when it succeeds, it gives the
artifacts of a batch of that one source. -/
theorem migrateText_stable (settings : Settings) (history : List Call) (kind : ConstructKind) (text key : Text)
    (companions : List (CompanionRole × Text)) :
    let outcome (journal : Journal) : Except Fault (List Artifact) :=
      ((migrateText settings kind text key companions).runFrom journal).1
    outcome (after settings history) = outcome {} ∧
      ∀ artifacts, outcome (after settings history) = .ok artifacts → ∀ tree,
        (run settings ConstructKind.migrationOrder .dryRun {} tree
          [Source.ofText kind text key companions]).summary.artifacts = artifacts := by
  intro outcome
  let source := Source.ofText kind text key companions
  have hafter : outcome (after settings history) = textOutcome settings source :=
    (runFrom_migrateText settings kind text key companions (constants_after settings history)).1
  have hfresh : outcome {} = textOutcome settings source :=
    (runFrom_migrateText settings kind text key companions rfl).1
  refine ⟨hafter.trans hfresh.symm, fun artifacts hok tree => ?_⟩
  rw [hafter] at hok
  rw [(run_dryRun settings rfl tree _).1]
  exact artifacts_expected_singleton hok

end Session

end AngularUplift
