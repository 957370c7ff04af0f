import AngularUplift.Proofs.Buffer.Spans
import AngularUplift.Proofs.Text.Slice

/-!
# What a run of consumptions leaves

Whatever is consumed of a text, directly or through views old and new, the spans of the buffer stay the
canonical list of the consumed positions, and the residual is the text without them. So only the set of consumed
positions counts, and neither the order nor the repetition of the consumptions.

## Main definitions

* `Consumption`, `SourceBuffer.consumeAll`: one consumption, and a run of them from an untouched text.
* `SourceBuffer.Consistent`: the invariant of a buffer.

## Main statements

* `SourceBuffer.Consistent.consume`, `SourceBuffer.Reachable.consistent`: consuming keeps the invariant.
* `SourceBuffer.Consistent.residual_eq`: the residual is the text without the covered positions.
* `SourceBuffer.consumeAll_canonical`: what holds after every run.
-/

namespace AngularUplift

/-! ### The text of a view -/

/-- The characters of a segment with their positions in the text. -/
def Segment.places (text : Text) (s : Segment) : List (Char × Nat) :=
  text.places s.sourceStart (s.sourceStart + s.length)

namespace SourceBuffer

/-- The characters of the segments, each with its position in the text, are those that no span covers. -/
theorem flatMap_places_segmentsFrom {text : Text} {spans : List Span}
    (h : Canonical text.length spans) {cursor : Nat} (hcursor : cursor ≤ text.length)
    (hspans : ∀ span ∈ spans, cursor ≤ span.start) (viewLength : Nat) :
    (segmentsFrom text.length cursor viewLength spans).flatMap (Segment.places text) =
      (text.places cursor text.length).filter fun place => ¬Covers spans place.2 := by
  induction spans generalizing cursor viewLength with
  | nil =>
    rw [Text.filter_places_eq_self (fun index => Covers [] index) (Nat.le_refl _)
      fun index _ _ => not_covers_nil index, segmentsFrom]
    split
    · simp [Segment.places, Nat.add_sub_cancel' hcursor]
    · next hend => rw [Text.places_eq_nil (by omega), List.flatMap_nil]
  | cons span rest ih =>
    have hnonempty := h.head_nonempty
    have hbounded := h.bounded span List.mem_cons_self
    have hstart := hspans span List.mem_cons_self
    -- The rest of the text falls into the part before the span, the span and the part after it.
    have hbefore : ((text.places cursor span.start).filter fun place =>
        ¬Covers (span :: rest) place.2) = text.places cursor span.start := by
      refine Text.filter_places_eq_self (fun index => Covers (span :: rest) index) (by omega)
        fun index _ hlt hcovers => ?_
      have hle := h.start_le_of_covers hcovers
      omega
    have hinside : ((text.places span.start span.stop).filter fun place =>
        ¬Covers (span :: rest) place.2) = [] :=
      Text.filter_places_eq_nil (fun index => Covers (span :: rest) index) hbounded
        fun index hge hlt => ⟨span, List.mem_cons_self, by simp only [Span.Contains]; omega⟩
    have hafter : ((text.places span.stop text.length).filter fun place =>
        ¬Covers (span :: rest) place.2) =
        (text.places span.stop text.length).filter fun place => ¬Covers rest place.2 := by
      refine Text.filter_places_congr (fun index => Covers (span :: rest) index)
        (fun index => Covers rest index) (Nat.le_refl _) fun index hge _ => ?_
      rw [covers_cons, or_iff_right]
      simp only [Span.Contains]
      omega
    have hmax : max cursor span.stop = span.stop := by omega
    have hrest := ih h.tail hbounded fun next hnext => Nat.le_of_lt (h.head_lt next hnext)
    rw [Text.places_eq_append (Nat.le_trans hstart (Nat.le_of_lt hnonempty)) hbounded (Nat.le_refl _),
      Text.places_eq_append hstart (Nat.le_of_lt hnonempty) hbounded, List.filter_append,
      List.filter_append, hbefore, hinside, hafter, List.append_nil, segmentsFrom, hmax]
    split
    · rw [List.flatMap_cons, hrest, Segment.places, Nat.add_sub_cancel' hstart]
    · next hnone =>
      have hempty : text.places cursor span.start = [] := Text.places_eq_nil (by omega)
      rw [hrest, hempty, List.nil_append]

/-- The text of a view is the text of the buffer without the covered positions. -/
theorem residual_eq_without {buffer : SourceBuffer} (h : Canonical buffer.text.length buffer.spans) :
    buffer.residual = buffer.text.without fun index => Covers buffer.spans index := by
  have hplaces := flatMap_places_segmentsFrom h (Nat.zero_le _) (fun span _ => Nat.zero_le _) 0
  have htext : ∀ s : Segment,
      (s.places buffer.text).map (·.1) = buffer.text.slice s.sourceStart (s.sourceStart + s.length) :=
    fun s => List.zipIdx_map_fst ..
  rw [Text.places_zero_length] at hplaces
  rw [Text.without, ← hplaces, List.map_flatMap]
  simp only [htext]
  rfl

/-- Nothing is missing from a text of which nothing was consumed. -/
theorem residual_ofText (text : Text) : (ofText text).residual = text := by
  simp only [residual, view, ofText, segmentsFrom]
  split
  · rw [List.flatMap_singleton, Nat.sub_zero, Nat.zero_add, Text.slice_length, List.drop_zero]
  · next hempty => rw [List.flatMap_nil, List.eq_nil_of_length_eq_zero (Nat.eq_zero_of_not_pos hempty)]

/-! ### One consumption -/

/-- The positions from `start` to `stop` that lie in a text of the given length, unless there are none. -/
def clip (length : Nat) (start stop : Int) : Option Span :=
  let span : Span := ⟨start.toNat, (min stop length).toNat⟩
  if span.stop ≤ span.start then none else some span

/-- What consuming does: nothing when no position is left, and otherwise one span more. -/
theorem consume_eq (buffer : SourceBuffer) (start stop : Int) :
    buffer.consume start stop =
      match clip buffer.text.length start stop with
      | none => buffer
      | some span =>
        { buffer with
          spans := merge (insertSpan span buffer.spans)
          history := buffer.history ++ [span] } := by
  simp only [consume, clip]
  split <;> rfl

/-- The span of a consumption lies in the text and is not empty. -/
theorem bounds_of_clip {length : Nat} {start stop : Int} {span : Span}
    (h : clip length start stop = some span) : span.start < span.stop ∧ span.stop ≤ length := by
  simp only [clip, Option.ite_none_left_eq_some, Option.some.injEq] at h
  obtain ⟨hlt, rfl⟩ := h
  simp only at hlt ⊢
  omega

/-- The span of a consumption holds the positions between its ends that lie in the text. -/
theorem contains_clip_iff (length : Nat) (start stop index : Int) :
    (∃ span, clip length start stop = some span ∧ span.Contains index) ↔
      (start ≤ index ∧ index < stop) ∧ 0 ≤ index ∧ index < length := by
  simp only [clip, Option.ite_none_left_eq_some, Option.some.injEq, Span.Contains]
  constructor
  · rintro ⟨span, ⟨hlt, rfl⟩, hcontains⟩
    simp only at hcontains
    omega
  · intro hindex
    refine ⟨_, ⟨?_, rfl⟩, ?_⟩
    · omega
    · simp only
      omega

/-- Consuming leaves the text as it is. -/
@[simp]
theorem text_consume (buffer : SourceBuffer) (start stop : Int) :
    (buffer.consume start stop).text = buffer.text := by
  rw [consume_eq]
  split <;> rfl

/-- The history grows by the consumed span, when it holds anything. -/
theorem history_consume (buffer : SourceBuffer) (start stop : Int) :
    (buffer.consume start stop).history =
      buffer.history ++ (clip buffer.text.length start stop).toList := by
  rw [consume_eq]
  split
  · next hclip => rw [hclip, Option.toList_none, List.append_nil]
  · next hclip => rw [hclip, Option.toList_some]

/-- Consuming keeps the spans canonical. -/
theorem canonical_consume {buffer : SourceBuffer} (h : Canonical buffer.text.length buffer.spans)
    (start stop : Int) :
    Canonical buffer.text.length (buffer.consume start stop).spans := by
  rw [consume_eq]
  split
  · exact h
  · next hclip =>
    obtain ⟨hnonempty, hbounded⟩ := bounds_of_clip hclip
    exact canonical_merge_insertSpan h hnonempty hbounded

/-- Consuming covers the positions between the two ends that lie in the text, and no others. -/
theorem covers_consume {buffer : SourceBuffer} (h : Canonical buffer.text.length buffer.spans)
    (start stop index : Int) :
    Covers (buffer.consume start stop).spans index ↔
      Covers buffer.spans index ∨
        (start ≤ index ∧ index < stop) ∧ 0 ≤ index ∧ index < buffer.text.length := by
  rw [← contains_clip_iff, consume_eq]
  split
  · next hclip => simp [hclip]
  · next span hclip =>
    rw [covers_merge_insertSpan h, hclip]
    simp [or_comm]

/-! ### Runs of consumptions -/

/-- The invariant of a buffer: its spans are canonical and cover what the consumed spans cover. -/
structure Consistent (buffer : SourceBuffer) : Prop where
  /-- The spans are canonical. -/
  canonical : Canonical buffer.text.length buffer.spans
  /-- The spans cover what was consumed. -/
  covers_iff : ∀ index, Covers buffer.spans index ↔ Covers buffer.history index

namespace Consistent

/-- An untouched text is consistent. -/
theorem ofText (text : Text) : Consistent (ofText text) where
  canonical := Canonical.nil
  covers_iff := fun _ => Iff.rfl

/-- Consuming once more keeps a buffer consistent. -/
theorem consume {buffer : SourceBuffer} (h : Consistent buffer) (start stop : Int) :
    Consistent (buffer.consume start stop) where
  canonical := by
    rw [text_consume]
    exact canonical_consume h.canonical start stop
  covers_iff := by
    intro index
    rw [covers_consume h.canonical, history_consume, covers_append, h.covers_iff, ← contains_clip_iff]
    cases clip buffer.text.length start stop <;> simp

/-- A position counts as consumed when a consumed span contains it. -/
theorem isConsumed_iff {buffer : SourceBuffer} (h : Consistent buffer) (index : Int) :
    buffer.isConsumed index = true ↔ Covers buffer.history index := by
  rw [← h.covers_iff, isConsumed, List.any_eq_true]
  simp only [decide_eq_true_eq, Covers]

/-- The residual is the text without the consumed spans. -/
theorem residual_eq {buffer : SourceBuffer} (h : Consistent buffer) :
    buffer.residual = buffer.text.without fun index => Covers buffer.history index := by
  rw [residual_eq_without h.canonical]
  exact Text.without_congr fun index _ => h.covers_iff index

/-- Consistent buffers of the same text with the same consumed positions have the same spans. -/
theorem spans_eq {buffer other : SourceBuffer} (h : Consistent buffer) (hother : Consistent other)
    (htext : buffer.text = other.text)
    (hsame : ∀ index, Covers buffer.history index ↔ Covers other.history index) :
    buffer.spans = other.spans := by
  refine h.canonical.eq_of_covers_iff (htext ▸ hother.canonical) fun index => ?_
  rw [h.covers_iff, hother.covers_iff, hsame]

end Consistent

/-- Every buffer that comes about by consuming is consistent. -/
theorem Reachable.consistent {buffer : SourceBuffer} (h : Reachable buffer) : Consistent buffer := by
  induction h with
  | ofText text => exact Consistent.ofText text
  | consume start stop _ ih => exact ih.consume start stop

end SourceBuffer

/-- One consumption of a buffer: of a span of its text, or of a span given by positions of a view, whatever
the buffer and the moment it was taken from. -/
inductive Consumption where
  /-- Consumes a span of the text. -/
  | direct (start stop : Int)
  /-- Consumes a span given by positions of a view. -/
  | through (view : SourceView) (start stop : Int)
deriving DecidableEq, Repr

namespace Consumption

/-- The ends of the consumed span in the text. -/
def bounds : Consumption → Int × Int
  | .direct start stop => (start, stop)
  | .through view start stop => view.sourceSpan start stop

/-- The buffer after the consumption. -/
def applyTo (buffer : SourceBuffer) : Consumption → SourceBuffer
  | .direct start stop => buffer.consume start stop
  | .through view start stop => buffer.consumeView view start stop

/-- A consumption through a view consumes the span of the text that the view gives for it. -/
theorem applyTo_eq (buffer : SourceBuffer) (c : Consumption) :
    c.applyTo buffer = buffer.consume c.bounds.1 c.bounds.2 := by
  cases c <;> rfl

end Consumption

namespace SourceBuffer

/-- The buffer after a run of consumptions of an untouched text. -/
def consumeAll (text : Text) (run : List Consumption) : SourceBuffer :=
  run.foldl Consumption.applyTo (ofText text)

/-- A run of consumptions reaches only reachable buffers, and changes neither the text nor what is already
recorded. -/
theorem foldl_applyTo {buffer : SourceBuffer} (h : Reachable buffer) (run : List Consumption) :
    Reachable (run.foldl Consumption.applyTo buffer) ∧
      (run.foldl Consumption.applyTo buffer).text = buffer.text ∧
      (run.foldl Consumption.applyTo buffer).history =
        buffer.history ++ run.filterMap fun c => clip buffer.text.length c.bounds.1 c.bounds.2 := by
  induction run generalizing buffer with
  | nil => simpa using h
  | cons c run ih =>
    obtain ⟨hreach, htext, hhistory⟩ := ih (h.consume c.bounds.1 c.bounds.2)
    rw [List.foldl_cons, Consumption.applyTo_eq]
    refine ⟨hreach, by rw [htext, text_consume], ?_⟩
    rw [hhistory, history_consume, text_consume, List.append_assoc, List.filterMap_cons]
    cases clip buffer.text.length c.bounds.1 c.bounds.2 <;> rfl

/-- After every run of consumptions the text is unchanged and the history holds the consumed spans in their order.
The spans are the one canonical list of the consumed positions, a position counts as consumed when it is one of
them, and the residual is the text without them. A run that consumes the same spans in another order, or some of
them more or less often, ends with the same spans and the same residual. -/
theorem consumeAll_canonical (text : Text) (run : List Consumption) :
    let buffer := consumeAll text run
    buffer.text = text ∧
      buffer.history = run.filterMap (fun c => clip text.length c.bounds.1 c.bounds.2) ∧
      Canonical text.length buffer.spans ∧
      (∀ index, Covers buffer.spans index ↔ Covers buffer.history index) ∧
      (∀ spans, Canonical text.length spans →
        (∀ index, Covers spans index ↔ Covers buffer.history index) → spans = buffer.spans) ∧
      (∀ index, buffer.isConsumed index = true ↔ Covers buffer.history index) ∧
      buffer.residual = text.without (fun index => Covers buffer.history index) ∧
      ∀ other : List Consumption,
        (∀ span, span ∈ (consumeAll text other).history ↔ span ∈ buffer.history) →
        (consumeAll text other).spans = buffer.spans ∧
          (consumeAll text other).residual = buffer.residual := by
  have hrun : ∀ run, Consistent (consumeAll text run) ∧ (consumeAll text run).text = text := fun run =>
    have hfold := foldl_applyTo (Reachable.ofText text) run
    ⟨hfold.1.consistent, hfold.2.1⟩
  obtain ⟨hbuffer, htext⟩ := hrun run
  have hhistory := (foldl_applyTo (Reachable.ofText text) run).2.2
  have hcanonical := hbuffer.canonical
  have hresidual := hbuffer.residual_eq
  rw [htext] at hcanonical hresidual
  refine ⟨htext, hhistory, hcanonical, hbuffer.covers_iff, ?_, hbuffer.isConsumed_iff, hresidual, ?_⟩
  · intro spans hspans hsame
    refine hspans.eq_of_covers_iff hcanonical fun index => ?_
    rw [hsame, hbuffer.covers_iff]
  · intro other hsame
    obtain ⟨hother, hotherText⟩ := hrun other
    -- Which positions a history covers depends only on the spans that occur in it.
    have hcovers : ∀ index,
        Covers (consumeAll text other).history index ↔ Covers (consumeAll text run).history index := by
      intro index
      simp only [Covers, hsame]
    refine ⟨hother.spans_eq hbuffer (hotherText.trans htext.symm) hcovers, ?_⟩
    rw [hother.residual_eq, hotherText, hresidual]
    exact Text.without_congr fun index _ => hcovers index

end SourceBuffer

end AngularUplift
