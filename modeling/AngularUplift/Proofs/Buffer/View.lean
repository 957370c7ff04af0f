import AngularUplift.Proofs.Buffer.Residual
import Mathlib.Data.Int.Order.Basic
import Mathlib.Data.List.Basic
import Mathlib.Order.Monotone.Basic

/-!
# Consuming through a view

A view maps its positions into the text it was taken from. The map is strictly increasing on all integers, also
before and past the view, and it sends the characters of the view to their places. So spans of a view that are
consumed through it, in whatever order and however far they reach, take exactly their characters out of the view,
even though the buffer has changed since the view was taken.

## Main definitions

* `Linked`: segments that follow each other without a gap in the view, in order and without overlap in the text.

## Main statements

* `SourceView.toSource_of_mem`, `SourceView.toSource_le_iff`: what the map of a view does.
* `SourceBuffer.residual_consumeSpans_view`: what is left after consuming spans of a view.
-/

namespace AngularUplift

/-- Segments of a text of the given length that continue a view after `viewStart` characters of it, and whose
characters come from `sourceStart` on. -/
def Linked (length : Nat) : (viewStart sourceStart : Nat) → List Segment → Prop
  | _, _, [] => True
  | viewStart, sourceStart, s :: rest =>
    s.viewStart = viewStart ∧ sourceStart ≤ s.sourceStart ∧ 0 < s.length ∧
      s.sourceStart + s.length ≤ length ∧
      Linked length (viewStart + s.length) (s.sourceStart + s.length) rest

namespace Linked

variable {length viewStart sourceStart : Nat} {segments : List Segment}

/-- Segments whose characters come from some position on come from any earlier position on. -/
theorem mono {earlier : Nat} (hle : earlier ≤ sourceStart)
    (h : Linked length viewStart sourceStart segments) : Linked length viewStart earlier segments := by
  cases segments with
  | nil => exact trivial
  | cons s rest => exact ⟨h.1, Nat.le_trans hle h.2.1, h.2.2⟩

/-- No segment begins before the place in the view at which the segments begin. -/
theorem viewStart_le_of_mem (h : Linked length viewStart sourceStart segments) {s : Segment}
    (hs : s ∈ segments) : viewStart ≤ s.viewStart := by
  induction segments generalizing viewStart sourceStart with
  | nil => exact absurd hs List.not_mem_nil
  | cons first rest ih =>
    obtain ⟨hview, -, -, -, hrest⟩ := h
    rcases List.mem_cons.1 hs with rfl | hmem
    · exact Nat.le_of_eq hview.symm
    · have hle := ih hrest hmem
      omega

/-- Every segment lies in the text. -/
theorem stop_le_of_mem (h : Linked length viewStart sourceStart segments) {s : Segment}
    (hs : s ∈ segments) : s.sourceStart + s.length ≤ length := by
  induction segments generalizing viewStart sourceStart with
  | nil => exact absurd hs List.not_mem_nil
  | cons first rest ih =>
    obtain ⟨-, -, -, hbounded, hrest⟩ := h
    rcases List.mem_cons.1 hs with rfl | hmem
    · exact hbounded
    · exact ih hrest hmem

end Linked

namespace SourceView

variable {length viewStart sourceStart : Nat} {segments : List Segment} (text : Text)

/-- The map of a view with several segments is that of its first segment up to the beginning of the next one. -/
theorem toSource_cons_cons (s next : Segment) (rest : List Segment) (index : Int) :
    toSource ⟨text, s :: next :: rest⟩ index =
      if (next.viewStart : Int) ≤ index then toSource ⟨text, next :: rest⟩ index
      else s.sourceStart + (index - s.viewStart) := by
  by_cases h : (next.viewStart : Int) ≤ index
  · simp only [toSource, segmentOf?, if_pos h]
  · simp only [toSource, segmentOf?, if_neg h]

/-- The map of a view sends the characters of a segment to their places. -/
theorem toSource_of_mem (h : Linked length viewStart sourceStart segments) {s : Segment}
    (hs : s ∈ segments) {offset : Nat} (hoffset : offset < s.length) :
    toSource ⟨text, segments⟩ (s.viewStart + offset : Nat) = (s.sourceStart + offset : Nat) := by
  induction segments generalizing viewStart sourceStart with
  | nil => exact absurd hs List.not_mem_nil
  | cons first rest ih =>
    obtain ⟨hview, -, -, -, hrest⟩ := h
    -- The map looks one segment ahead, so the last segment is a case of its own.
    cases rest with
    | nil =>
      obtain rfl := List.mem_singleton.1 hs
      simp only [toSource, segmentOf?]
      omega
    | cons next rest =>
      have hnext : next.viewStart = viewStart + first.length := hrest.1
      rw [toSource_cons_cons]
      rcases List.mem_cons.1 hs with rfl | hmem
      · rw [if_neg (by omega)]
        omega
      · have hle := hrest.viewStart_le_of_mem hmem
        rw [if_pos (by omega), ih hrest hmem]

/-- The map of a view sends the next position further into the text. -/
theorem toSource_lt_succ (h : Linked length viewStart sourceStart segments) (index : Int) :
    toSource ⟨text, segments⟩ index < toSource ⟨text, segments⟩ (index + 1) := by
  induction segments generalizing viewStart sourceStart with
  | nil =>
    simp only [toSource, segmentOf?]
    omega
  | cons first rest ih =>
    obtain ⟨hview, -, hpositive, -, hrest⟩ := h
    cases rest with
    | nil =>
      simp only [toSource, segmentOf?]
      omega
    | cons next rest =>
      obtain ⟨hnextView, hnextSource, hnextPositive, -, -⟩ := id hrest
      rw [toSource_cons_cons, toSource_cons_cons]
      rcases lt_trichotomy (index + 1) next.viewStart with hlt | heq | hgt
      · rw [if_neg (by omega), if_neg (by omega)]
        omega
      · -- The step crosses from the last character of the first segment to the next segment.
        have hcross := toSource_of_mem text hrest List.mem_cons_self hnextPositive
        rw [Nat.add_zero, Nat.add_zero, ← heq] at hcross
        rw [if_neg (by omega), if_pos (by omega), hcross]
        omega
      · rw [if_pos (by omega), if_pos (by omega)]
        exact ih hrest

/-- The map of a view keeps the order of positions, before, inside and past the view. -/
theorem toSource_le_iff (h : Linked length viewStart sourceStart segments) (first second : Int) :
    toSource ⟨text, segments⟩ first ≤ toSource ⟨text, segments⟩ second ↔ first ≤ second :=
  (strictMono_int_of_lt_succ (toSource_lt_succ text h)).le_iff_le

/-- The span that a view gives for a span of its own holds the place of a character exactly when the span holds
the character. -/
theorem sourceSpan_contains_iff (h : Linked length viewStart sourceStart segments)
    (start stop index : Int) :
    ((sourceSpan ⟨text, segments⟩ start stop).1 ≤ toSource ⟨text, segments⟩ index ∧
        toSource ⟨text, segments⟩ index < (sourceSpan ⟨text, segments⟩ start stop).2) ↔
      start ≤ index ∧ index < stop := by
  have horder := toSource_le_iff text h
  rw [sourceSpan]
  split
  · simp only
    omega
  · simp only [Int.lt_add_one_iff, horder]
    omega

end SourceView

/-! ### Views of a buffer -/

/-- Two texts without some positions are the same when the positions correspond. -/
theorem map_fst_filter_zipIdx (text : Text) {gone lost : Nat → Prop} [DecidablePred gone]
    [DecidablePred lost] (first second : Nat)
    (h : ∀ offset < text.length, gone (first + offset) ↔ lost (second + offset)) :
    (((text.zipIdx first).filter fun place => ¬gone place.2).map (·.1)) =
      ((text.zipIdx second).filter fun place => ¬lost place.2).map (·.1) := by
  induction text generalizing first second with
  | nil => rfl
  | cons c text ih =>
    have hhead := h 0 (Nat.succ_pos _)
    have htail := ih (first + 1) (second + 1) fun offset hoffset => by
      have hnext := h (offset + 1) (Nat.succ_lt_succ hoffset)
      rwa [← Nat.add_assoc, ← Nat.add_assoc, Nat.add_right_comm, Nat.add_right_comm second] at hnext
    rw [Nat.add_zero, Nat.add_zero] at hhead
    simp only [List.zipIdx_cons, List.filter_cons, decide_not, hhead] at htail ⊢
    split
    · rw [List.map_cons, List.map_cons, htail]
    · exact htail

namespace SourceBuffer

/-- The segments between canonical spans are linked. -/
theorem linked_segmentsFrom {length : Nat} {spans : List Span} (h : Canonical length spans)
    (cursor viewLength : Nat) :
    Linked length viewLength cursor (segmentsFrom length cursor viewLength spans) := by
  induction spans generalizing cursor viewLength with
  | nil =>
    rw [segmentsFrom]
    split
    · next hlt =>
      refine ⟨rfl, Nat.le_refl _, Nat.sub_pos_of_lt hlt, ?_, trivial⟩
      simp only
      omega
    · exact trivial
  | cons span rest ih =>
    have hnonempty := h.head_nonempty
    have hbounded := h.bounded span List.mem_cons_self
    rw [segmentsFrom]
    split
    · next hlt =>
      refine ⟨rfl, Nat.le_refl _, Nat.sub_pos_of_lt hlt, ?_, Linked.mono ?_ (ih h.tail _ _)⟩
      · simp only
        omega
      · simp only
        omega
    · exact Linked.mono (Nat.le_max_left ..) (ih h.tail _ _)

/-- The segments of a view of a buffer with canonical spans are linked. -/
theorem linked_view {buffer : SourceBuffer} (h : Canonical buffer.text.length buffer.spans) :
    Linked buffer.text.length 0 0 buffer.view.segments :=
  linked_segmentsFrom h 0 0

/-- The characters of linked segments with their positions in the view. -/
theorem zipIdx_flatMap_slice {text : Text} {viewStart sourceStart : Nat} {segments : List Segment}
    (h : Linked text.length viewStart sourceStart segments) :
    (segments.flatMap fun s => text.slice s.sourceStart (s.sourceStart + s.length)).zipIdx viewStart =
      segments.flatMap fun s =>
        (text.slice s.sourceStart (s.sourceStart + s.length)).zipIdx s.viewStart := by
  induction segments generalizing viewStart sourceStart with
  | nil => rfl
  | cons s rest ih =>
    obtain ⟨hview, -, -, hbounded, hrest⟩ := h
    have hlength : (text.slice s.sourceStart (s.sourceStart + s.length)).length = s.length := by
      rw [Text.length_slice hbounded, Nat.add_sub_cancel_left]
    rw [List.flatMap_cons, List.zipIdx_append, hlength, ih hrest, List.flatMap_cons, hview]

/-- The text of a buffer without the covered positions and some more is the text of its view without the
positions that correspond to those. -/
theorem without_eq_view_without {buffer : SourceBuffer} (h : Canonical buffer.text.length buffer.spans)
    {gone lost : Nat → Prop} [DecidablePred gone] [DecidablePred lost]
    (hsame : ∀ s ∈ buffer.view.segments, ∀ offset < s.length,
      (gone (s.sourceStart + offset) ↔ lost (s.viewStart + offset))) :
    (buffer.text.without fun index => Covers buffer.spans index ∨ gone index) =
      buffer.view.text.without lost := by
  have hlinked := linked_view h
  have hplaces := flatMap_places_segmentsFrom h (Nat.zero_le _) (fun span _ => Nat.zero_le _) 0
  rw [Text.places_zero_length] at hplaces
  -- What is gone is taken out in two goes: first what was covered already, then the rest.
  have hsplit : (buffer.text.zipIdx.filter fun place => ¬(Covers buffer.spans place.2 ∨ gone place.2)) =
      ((buffer.text.zipIdx.filter fun place => ¬Covers buffer.spans place.2).filter fun place =>
        ¬gone place.2) := by
    rw [List.filter_filter]
    refine List.filter_congr fun place _ => ?_
    simp only [not_or, Bool.decide_and, Bool.and_comm]
  -- In each segment the positions of the text and of the view run in step.
  have hsegments : ∀ s ∈ buffer.view.segments,
      (((s.places buffer.text).filter fun place => ¬gone place.2).map (·.1)) =
        (((buffer.text.slice s.sourceStart (s.sourceStart + s.length)).zipIdx s.viewStart).filter
          fun place => ¬lost place.2).map (·.1) := by
    intro s hs
    have hlength : (buffer.text.slice s.sourceStart (s.sourceStart + s.length)).length = s.length := by
      rw [Text.length_slice (hlinked.stop_le_of_mem hs), Nat.add_sub_cancel_left]
    refine map_fst_filter_zipIdx _ _ _ fun offset hoffset => hsame s hs offset ?_
    rwa [hlength] at hoffset
  calc
    (buffer.text.without fun index => Covers buffer.spans index ∨ gone index)
      = buffer.view.segments.flatMap fun s =>
          ((s.places buffer.text).filter fun place => ¬gone place.2).map (·.1) := by
        rw [Text.without, hsplit, ← hplaces, List.filter_flatMap, List.map_flatMap]
        rfl
    _ = buffer.view.segments.flatMap fun s =>
          (((buffer.text.slice s.sourceStart (s.sourceStart + s.length)).zipIdx s.viewStart).filter
            fun place => ¬lost place.2).map (·.1) := List.flatMap_congr hsegments
    _ = buffer.view.text.without lost := by
        rw [← List.map_flatMap, ← List.filter_flatMap, ← zipIdx_flatMap_slice hlinked]
        rfl

/-- The buffer after spans given by positions of a view are consumed one after the other. -/
def consumeSpans (buffer : SourceBuffer) (view : SourceView) (spans : List (Int × Int)) : SourceBuffer :=
  spans.foldl (fun buffer span => buffer.consumeView view span.1 span.2) buffer

/-- A buffer that comes about by consuming still does after spans of a view are consumed. -/
theorem Reachable.consumeSpans {buffer : SourceBuffer} (h : buffer.Reachable) (view : SourceView)
    (spans : List (Int × Int)) : (buffer.consumeSpans view spans).Reachable := by
  induction spans generalizing buffer with
  | nil => exact h
  | cons span spans ih => exact ih (Reachable.consume _ _ h)

/-- Consuming spans of a view keeps the text and the normal form, and covers the spans of the text that the view
gives for them. -/
theorem covers_consumeSpans {buffer : SourceBuffer} (h : Canonical buffer.text.length buffer.spans)
    (view : SourceView) (spans : List (Int × Int)) :
    (buffer.consumeSpans view spans).text = buffer.text ∧
      Canonical buffer.text.length (buffer.consumeSpans view spans).spans ∧
      ∀ index : Nat, index < buffer.text.length →
        (Covers (buffer.consumeSpans view spans).spans index ↔
          Covers buffer.spans index ∨
            ∃ span ∈ spans, (view.sourceSpan span.1 span.2).1 ≤ index ∧
              index < (view.sourceSpan span.1 span.2).2) := by
  induction spans generalizing buffer with
  | nil => exact ⟨rfl, h, by simp [consumeSpans]⟩
  | cons span spans ih =>
    have hstep := canonical_consume h (view.sourceSpan span.1 span.2).1 (view.sourceSpan span.1 span.2).2
    obtain ⟨htext, hcanonical, hcovers⟩ := ih (text_consume .. ▸ hstep)
    rw [text_consume] at htext hcanonical hcovers
    refine ⟨htext, hcanonical, fun index hindex => (hcovers index hindex).trans ?_⟩
    have hinside : (0 : Int) ≤ index ∧ (index : Int) < buffer.text.length := by omega
    rw [covers_consume h, List.exists_mem_cons_iff, and_iff_left hinside, or_assoc]

/-- What is left after spans of the current view are consumed is the text of the view without them. -/
theorem residual_consumeSpans {buffer : SourceBuffer} (h : Canonical buffer.text.length buffer.spans)
    (spans : List (Int × Int)) :
    (buffer.consumeSpans buffer.view spans).residual =
      buffer.view.text.without fun index => ∃ span ∈ spans, span.1 ≤ index ∧ index < span.2 := by
  obtain ⟨htext, hcanonical, hcovers⟩ := covers_consumeSpans h buffer.view spans
  have hlinked := linked_view h
  rw [residual_eq_without (htext ▸ hcanonical), htext, Text.without_congr hcovers]
  refine without_eq_view_without h fun s hs offset hoffset => ?_
  -- The place of a character is in the span of the text exactly when the character is in the span of the view.
  have hplace := SourceView.toSource_of_mem buffer.view.text hlinked hs hoffset
  have hspan := SourceView.sourceSpan_contains_iff buffer.view.text hlinked
  simp only [← hplace, hspan]

/-- What is left after a span of the current view is consumed is what stands before and after it in the view. -/
theorem residual_consumeView {buffer : SourceBuffer} (h : Canonical buffer.text.length buffer.spans)
    {start stop : Nat} (hstart : start ≤ stop) (hstop : stop ≤ buffer.residual.length) :
    (buffer.consumeView buffer.view start stop).residual =
      buffer.residual.slice 0 start ++ buffer.residual.slice stop buffer.residual.length := by
  rw [← Text.without_span hstart hstop]
  refine (residual_consumeSpans h [((start : Int), (stop : Int))]).trans (Text.without_congr fun index _ => ?_)
  simp

/-- In every buffer that comes about by consuming, spans consumed one after the other through one view of it take
exactly their characters out of the text of the view, wherever they begin and end. -/
theorem residual_consumeSpans_view {buffer : SourceBuffer} (h : Reachable buffer)
    (spans : List (Int × Int)) :
    (buffer.consumeSpans buffer.view spans).residual =
      buffer.view.text.without fun index => ∃ span ∈ spans, span.1 ≤ index ∧ index < span.2 :=
  residual_consumeSpans h.consistent.canonical spans

/-- Spans that begin before the view, end past it, overlap and straddle a consumed span. -/
theorem residual_consumeSpans_view_straddling :
    Reachable ((ofText (txt "abcdef")).consume 1 3) ∧
      (((ofText (txt "abcdef")).consume 1 3).consumeSpans
        ((ofText (txt "abcdef")).consume 1 3).view [(3, 9), (-3, 1), (0, 2)]).residual = ['e'] := by
  have h := Reachable.consume 1 3 (Reachable.ofText (txt "abcdef"))
  exact ⟨h, (residual_consumeSpans_view h _).trans (by decide)⟩

end SourceBuffer

end AngularUplift
