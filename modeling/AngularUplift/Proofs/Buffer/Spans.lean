import AngularUplift.Buffer
import Mathlib.Tactic.ByContra

/-!
# Canonical lists of spans

A set of positions of a text has exactly one list of spans that is sorted, holds no empty span and leaves at
least one position between any two spans. This module states that normal form and shows that inserting a span
and merging reaches it.

## Main definitions

* `Covers`: whether some span of a list contains a position.
* `Canonical`: the normal form of the lists of spans below a bound.

## Main statements

* `Canonical.eq_of_covers_iff`: a canonical list is determined by the positions it covers.
* `covers_merge_insertSpan`, `canonical_merge_insertSpan`: inserting and merging adds the positions of the span
  and keeps the normal form.
-/

namespace AngularUplift

/-- Some span of the list contains the position. -/
def Covers (spans : List Span) (index : Int) : Prop := ∃ span ∈ spans, span.Contains index

/-- Whether a list of spans covers a position is decidable. -/
instance (spans : List Span) (index : Int) : Decidable (Covers spans index) :=
  inferInstanceAs (Decidable (∃ span ∈ spans, span.Contains index))

/-- No position is covered by no spans. -/
@[simp]
theorem not_covers_nil (index : Int) : ¬Covers [] index := by
  simp [Covers]

/-- A position is covered by the first span or by the others. -/
@[simp]
theorem covers_cons (span : Span) (spans : List Span) (index : Int) :
    Covers (span :: spans) index ↔ span.Contains index ∨ Covers spans index := by
  simp [Covers]

/-- A position is covered by one of two lists. -/
@[simp]
theorem covers_append (first second : List Span) (index : Int) :
    Covers (first ++ second) index ↔ Covers first index ∨ Covers second index := by
  simp [Covers, or_and_right, exists_or]

/-- Sorted spans below a bound, none of them empty, with a position left between any two of them. -/
structure Canonical (bound : Nat) (spans : List Span) : Prop where
  /-- No span is empty. -/
  nonempty : ∀ span ∈ spans, span.start < span.stop
  /-- Every span ends at the bound or before it. -/
  bounded : ∀ span ∈ spans, span.stop ≤ bound
  /-- A span ends at least one position before any later span begins. -/
  separated : spans.Pairwise fun first second => first.stop < second.start

/-- Spans in the order of their first positions. -/
def SortedByStart (spans : List Span) : Prop :=
  spans.Pairwise fun first second => first.start ≤ second.start

namespace Canonical

variable {bound : Nat} {span : Span} {spans : List Span}

/-- The empty list is canonical. -/
theorem nil : Canonical bound [] := by
  constructor <;> simp

/-- A span before a canonical list, with a position left between them, gives a canonical list. -/
theorem cons (hnonempty : span.start < span.stop) (hbounded : span.stop ≤ bound)
    (hbefore : ∀ next ∈ spans, span.stop < next.start) (hspans : Canonical bound spans) :
    Canonical bound (span :: spans) where
  nonempty := List.forall_mem_cons.2 ⟨hnonempty, hspans.nonempty⟩
  bounded := List.forall_mem_cons.2 ⟨hbounded, hspans.bounded⟩
  separated := List.pairwise_cons.2 ⟨hbefore, hspans.separated⟩

/-- The spans after the first one are canonical. -/
theorem tail (h : Canonical bound (span :: spans)) : Canonical bound spans where
  nonempty := fun s hs => h.nonempty s (List.mem_cons_of_mem _ hs)
  bounded := fun s hs => h.bounded s (List.mem_cons_of_mem _ hs)
  separated := h.separated.of_cons

/-- The first span is not empty. -/
theorem head_nonempty (h : Canonical bound (span :: spans)) : span.start < span.stop :=
  h.nonempty span List.mem_cons_self

/-- The first span ends before every other span begins. -/
theorem head_lt (h : Canonical bound (span :: spans)) : ∀ next ∈ spans, span.stop < next.start :=
  (List.pairwise_cons.1 h.separated).1

/-- A canonical list is sorted. -/
theorem sortedByStart (h : Canonical bound spans) : SortedByStart spans := by
  refine h.separated.imp_of_mem ?_
  intro first second hfirst _ hlt
  have hnonempty := h.nonempty first hfirst
  omega

/-- The first span covers its own first position. -/
theorem covers_start (h : Canonical bound (span :: spans)) : Covers (span :: spans) span.start := by
  have hnonempty := h.head_nonempty
  exact ⟨span, List.mem_cons_self, by simp only [Span.Contains]; omega⟩

/-- Nothing before the first span is covered. -/
theorem start_le_of_covers (h : Canonical bound (span :: spans)) {index : Int}
    (hindex : Covers (span :: spans) index) : span.start ≤ index := by
  rcases (covers_cons ..).1 hindex with hhead | ⟨next, hnext, hcontains⟩
  · exact hhead.1
  · have hnonempty := h.head_nonempty
    have hlt := h.head_lt next hnext
    have hstart := hcontains.1
    omega

/-- What the other spans cover lies past the end of the first one. -/
theorem stop_lt_of_covers_tail (h : Canonical bound (span :: spans)) {index : Int}
    (hindex : Covers spans index) : span.stop < index := by
  obtain ⟨next, hnext, hcontains⟩ := hindex
  have hlt := h.head_lt next hnext
  have hstart := hcontains.1
  omega

/-- The position at which the first span ends is not covered. -/
theorem not_covers_stop (h : Canonical bound (span :: spans)) :
    ¬Covers (span :: spans) span.stop := by
  intro hcovers
  rcases (covers_cons ..).1 hcovers with hhead | htail
  · have hlt := hhead.2
    omega
  · have hlt := h.stop_lt_of_covers_tail htail
    omega

/-- Of two canonical lists that cover the same positions, the first span of one begins no later than the first
span of the other. -/
private theorem head_start_le {other : Span} {others : List Span}
    (h : Canonical bound (span :: spans)) (hother : Canonical bound (other :: others))
    (hsame : ∀ index, Covers (span :: spans) index ↔ Covers (other :: others) index) :
    span.start ≤ other.start := by
  have hcovers := (hsame other.start).2 hother.covers_start
  exact_mod_cast h.start_le_of_covers hcovers

/-- Of two canonical lists that cover the same positions and begin at the same one, the first span of one ends
no later than the first span of the other. -/
private theorem head_stop_le {other : Span} {others : List Span}
    (hother : Canonical bound (other :: others))
    (hsame : ∀ index, Covers (span :: spans) index ↔ Covers (other :: others) index)
    (hstart : span.start = other.start) :
    span.stop ≤ other.stop := by
  by_contra hlt
  have hnonempty := hother.head_nonempty
  -- Otherwise the position at which the second span ends would be covered by the first one.
  have hcovers : Covers (span :: spans) other.stop :=
    ⟨span, List.mem_cons_self, by simp only [Span.Contains]; omega⟩
  exact hother.not_covers_stop ((hsame _).1 hcovers)

/-- What the spans after the first one cover is covered by those after the same first span of another list. -/
private theorem covers_tail {others : List Span} (h : Canonical bound (span :: spans))
    (hsame : ∀ index, Covers (span :: spans) index ↔ Covers (span :: others) index) {index : Int}
    (hcovers : Covers spans index) : Covers others index := by
  -- The position lies past the common first span, so only the others can cover it.
  have hlt := h.stop_lt_of_covers_tail hcovers
  rcases (covers_cons ..).1 ((hsame index).1 ((covers_cons ..).2 (Or.inr hcovers))) with hhead | htail
  · exact absurd hhead.2 (by omega)
  · exact htail

/-- A canonical list is determined by the positions it covers. -/
theorem eq_of_covers_iff {others : List Span} (h : Canonical bound spans)
    (hother : Canonical bound others) (hsame : ∀ index, Covers spans index ↔ Covers others index) :
    spans = others := by
  induction spans generalizing others with
  | nil =>
    cases others with
    | nil => rfl
    | cons other others => exact absurd ((hsame _).2 hother.covers_start) (not_covers_nil _)
  | cons span spans ih =>
    cases others with
    | nil => exact absurd ((hsame _).1 h.covers_start) (not_covers_nil _)
    | cons other others =>
      have hstart : span.start = other.start :=
        Nat.le_antisymm (head_start_le h hother hsame)
          (head_start_le hother h fun index => (hsame index).symm)
      have hstop : span.stop = other.stop :=
        Nat.le_antisymm (head_stop_le hother hsame hstart)
          (head_stop_le h (fun index => (hsame index).symm) hstart.symm)
      obtain rfl : span = other := by
        cases span
        cases other
        simp_all
      have htails : ∀ index, Covers spans index ↔ Covers others index := fun index =>
        ⟨h.covers_tail hsame, hother.covers_tail fun index => (hsame index).symm⟩
      rw [ih h.tail hother.tail htails]

end Canonical

namespace SourceBuffer

/-! ### Inserting and merging -/

/-- The spans of a list into which a span was put are that span and those of the list. -/
theorem mem_insertSpan (span other : Span) (spans : List Span) :
    other ∈ insertSpan span spans ↔ other = span ∨ other ∈ spans := by
  induction spans with
  | nil => simp [insertSpan]
  | cons next rest ih =>
    rw [insertSpan]
    split
    · simp only [List.mem_cons, ih]
      exact or_left_comm
    · simp only [List.mem_cons]

/-- Putting a span into a sorted list keeps it sorted. -/
theorem sortedByStart_insertSpan (span : Span) {spans : List Span} (h : SortedByStart spans) :
    SortedByStart (insertSpan span spans) := by
  induction spans with
  | nil => simp [insertSpan, SortedByStart]
  | cons next rest ih =>
    obtain ⟨hnext, hrest⟩ := List.pairwise_cons.1 h
    rw [insertSpan]
    split
    · next hlt =>
      refine List.pairwise_cons.2 ⟨?_, ih hrest⟩
      intro other hother
      rcases (mem_insertSpan ..).1 hother with rfl | hmem
      · omega
      · exact hnext other hmem
    · next hge =>
      refine List.pairwise_cons.2 ⟨?_, h⟩
      intro other hother
      rcases List.mem_cons.1 hother with rfl | hmem
      · omega
      · have hle := hnext other hmem
        omega

/-- Joining the first two spans of a sorted list keeps it sorted, wherever the joined span ends. -/
theorem sortedByStart_join {current next : Span} {rest : List Span}
    (h : SortedByStart (current :: next :: rest)) (stop : Nat) :
    SortedByStart (⟨current.start, stop⟩ :: rest) := by
  obtain ⟨hcurrent, hrest⟩ := List.pairwise_cons.1 h
  exact List.pairwise_cons.2 ⟨fun other hother => hcurrent other (List.mem_cons_of_mem _ hother), hrest.of_cons⟩

/-- Every merged span begins no earlier than the span that the merge starts from. -/
theorem start_le_of_mem_mergeFrom {current span : Span} {rest : List Span}
    (h : SortedByStart (current :: rest)) (hspan : span ∈ mergeFrom current rest) :
    current.start ≤ span.start := by
  induction rest generalizing current with
  | nil => simp_all [mergeFrom]
  | cons next rest ih =>
    obtain ⟨hcurrent, hrest⟩ := List.pairwise_cons.1 h
    have hle := hcurrent next List.mem_cons_self
    rw [mergeFrom] at hspan
    split at hspan
    · have hjoined := sortedByStart_join h (max current.stop next.stop)
      have hstart := ih hjoined hspan
      exact hstart
    · rcases List.mem_cons.1 hspan with rfl | hmem
      · exact Nat.le_refl _
      · exact Nat.le_trans hle (ih hrest hmem)

/-- Merging keeps the covered positions. -/
theorem covers_mergeFrom {current : Span} {rest : List Span} (h : SortedByStart (current :: rest))
    (index : Int) : Covers (mergeFrom current rest) index ↔ Covers (current :: rest) index := by
  induction rest generalizing current with
  | nil => simp [mergeFrom]
  | cons next rest ih =>
    obtain ⟨hcurrent, hrest⟩ := List.pairwise_cons.1 h
    have hle := hcurrent next List.mem_cons_self
    rw [mergeFrom]
    split
    · next htouch =>
      rw [ih (sortedByStart_join h _)]
      -- Since the two spans touch, the joined span holds no position that neither of them has.
      have hunion : Span.Contains ⟨current.start, max current.stop next.stop⟩ index ↔
          current.Contains index ∨ next.Contains index := by
        simp only [Span.Contains]
        omega
      simp only [covers_cons, hunion, or_assoc]
    · simp only [covers_cons, ih hrest]

/-- Merging sorted spans of which none is empty gives a canonical list. -/
theorem canonical_mergeFrom {bound : Nat} {current : Span} {rest : List Span}
    (hsorted : SortedByStart (current :: rest))
    (hspans : ∀ span ∈ current :: rest, span.start < span.stop ∧ span.stop ≤ bound) :
    Canonical bound (mergeFrom current rest) := by
  induction rest generalizing current with
  | nil =>
    obtain ⟨hnonempty, hbounded⟩ := hspans current List.mem_cons_self
    exact Canonical.cons hnonempty hbounded (by simp) Canonical.nil
  | cons next rest ih =>
    have hrest : SortedByStart (next :: rest) := hsorted.of_cons
    obtain ⟨hhead, hothers⟩ := List.forall_mem_cons.1 hspans
    obtain ⟨hsecond, hlast⟩ := List.forall_mem_cons.1 hothers
    rw [mergeFrom]
    split
    · refine ih (sortedByStart_join hsorted _) (List.forall_mem_cons.2 ⟨?_, hlast⟩)
      simp only
      omega
    · next hgap =>
      -- The current span is complete: what is merged after it begins past its end.
      refine Canonical.cons hhead.1 hhead.2 ?_ (ih hrest hothers)
      intro span hspan
      have hle := start_le_of_mem_mergeFrom hrest hspan
      omega

/-- Putting a span into a canonical list and merging adds the positions of the span. -/
theorem covers_merge_insertSpan {bound : Nat} {spans : List Span} (h : Canonical bound spans)
    (span : Span) (index : Int) :
    Covers (merge (insertSpan span spans)) index ↔ span.Contains index ∨ Covers spans index := by
  have hsorted := sortedByStart_insertSpan span h.sortedByStart
  have hinserted : Covers (insertSpan span spans) index ↔ span.Contains index ∨ Covers spans index := by
    simp only [Covers, mem_insertSpan, or_and_right, exists_or, exists_eq_left]
  cases hlist : insertSpan span spans with
  | nil => rw [← hinserted, hlist, merge]
  | cons first rest =>
    rw [hlist] at hsorted
    rw [merge, covers_mergeFrom hsorted, ← hlist, hinserted]

/-- Putting a span into a canonical list and merging gives a canonical list. -/
theorem canonical_merge_insertSpan {bound : Nat} {spans : List Span} (h : Canonical bound spans)
    {span : Span} (hnonempty : span.start < span.stop) (hbounded : span.stop ≤ bound) :
    Canonical bound (merge (insertSpan span spans)) := by
  have hsorted := sortedByStart_insertSpan span h.sortedByStart
  have hspans : ∀ other ∈ insertSpan span spans, other.start < other.stop ∧ other.stop ≤ bound := by
    intro other hother
    rcases (mem_insertSpan ..).1 hother with rfl | hmem
    · exact ⟨hnonempty, hbounded⟩
    · exact ⟨h.nonempty other hmem, h.bounded other hmem⟩
  cases hlist : insertSpan span spans with
  | nil => exact Canonical.nil
  | cons first rest =>
    rw [hlist] at hsorted hspans
    exact canonical_mergeFrom hsorted hspans

end SourceBuffer

end AngularUplift
