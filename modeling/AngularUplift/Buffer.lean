import AngularUplift.Text.Basic

/-!
# Source buffers

A source buffer is a text that never changes, together with the spans of it that were consumed. What is left
of it, the residual, is read through a view: the unconsumed characters in order, with a map from their
positions back to positions in the buffer. A view may be older than the buffer's last consumption; its map
stays valid, because the text does not change.

## Main definitions

* `Span`: a half-open range of positions.
* `SourceBuffer`, `SourceBuffer.consume`: the text with its consumed spans, merged and sorted, and the spans in
  the order of their consumption.
* `SourceView`, `SourceBuffer.view`: the unconsumed text in segments.
* `SourceView.toSource`, `SourceView.sourceSpan`: positions and spans of a view in the buffer.
* `SourceBuffer.Reachable`: the buffers that come about by consuming spans.
-/

namespace AngularUplift

/-- The positions from `start` up to, not including, `stop`. -/
structure Span where
  /-- The first position. -/
  start : Nat
  /-- The position just past the last one. -/
  stop : Nat
deriving DecidableEq, Repr

/-- Whether a position lies in a span. -/
def Span.Contains (span : Span) (index : Int) : Prop := span.start ≤ index ∧ index < span.stop

/-- Whether a position lies in a span is decidable. -/
instance (span : Span) (index : Int) : Decidable (span.Contains index) :=
  inferInstanceAs (Decidable (_ ∧ _))

/-- An unconsumed stretch of a buffer. -/
structure Segment where
  /-- Where it begins in the view. -/
  viewStart : Nat
  /-- Where it begins in the buffer. -/
  sourceStart : Nat
  /-- How many characters it has. -/
  length : Nat
deriving DecidableEq, Repr

/-- The unconsumed text of a buffer at some moment, and where it stands in the buffer. -/
structure SourceView where
  /-- The unconsumed characters. -/
  text : Text
  /-- The unconsumed stretches, in order. -/
  segments : List Segment
deriving DecidableEq, Repr

namespace SourceView

/-- The segment to which a position belongs: the last one that begins at or before it, or else the first. -/
def segmentOf? (index : Int) : List Segment → Option Segment
  | [] => none
  | [segment] => some segment
  | segment :: next :: rest =>
    if (next.viewStart : Int) ≤ index then segmentOf? index (next :: rest) else some segment

/-- The position in the buffer of a position in the view. Positions before or past the view continue its first
or last segment, and a view without text keeps every position as it is. -/
def toSource (view : SourceView) (index : Int) : Int :=
  match segmentOf? index view.segments with
  | none => index
  | some segment => segment.sourceStart + (index - segment.viewStart)

/-- The span of the buffer from the first to the last character of a span of the view. An empty span stays
empty, at the position of its start. -/
def sourceSpan (view : SourceView) (start stop : Int) : Int × Int :=
  if stop ≤ start then (view.toSource start, view.toSource start)
  else (view.toSource start, view.toSource (stop - 1) + 1)

end SourceView

/-- A text with the spans of it that were consumed. -/
structure SourceBuffer where
  /-- The text, which never changes. -/
  text : Text
  /-- The consumed spans, merged and in order. -/
  spans : List Span := []
  /-- The consumed spans as they came. -/
  history : List Span := []
deriving DecidableEq, Repr

namespace SourceBuffer

/-- The buffer of a text of which nothing was consumed. -/
def ofText (text : Text) : SourceBuffer := { text }

/-- A span put into a sorted list before the first span that does not precede it. -/
def insertSpan (span : Span) : List Span → List Span
  | [] => [span]
  | next :: rest =>
    if next.start < span.start ∨ (next.start = span.start ∧ next.stop < span.stop) then
      next :: insertSpan span rest
    else span :: next :: rest

/-- A sorted list of spans with overlapping and touching ones joined; `current` is the last span so far. -/
def mergeFrom (current : Span) : List Span → List Span
  | [] => [current]
  | next :: rest =>
    if next.start ≤ current.stop then mergeFrom ⟨current.start, max current.stop next.stop⟩ rest
    else current :: mergeFrom next rest

/-- A sorted list of spans with overlapping and touching ones joined. -/
def merge : List Span → List Span
  | [] => []
  | first :: rest => mergeFrom first rest

/-- The buffer after consuming the positions from `start` to `stop` that lie in the text. Consuming nothing
leaves no trace. -/
def consume (buffer : SourceBuffer) (start stop : Int) : SourceBuffer :=
  let first := start.toNat
  let last := (min stop buffer.text.length).toNat
  if last ≤ first then buffer
  else
    { buffer with
      spans := merge (insertSpan ⟨first, last⟩ buffer.spans)
      history := buffer.history ++ [⟨first, last⟩] }

/-- Whether a position was consumed. -/
def isConsumed (buffer : SourceBuffer) (index : Int) : Bool :=
  buffer.spans.any fun span => decide (span.Contains index)

/-- The segments between consumed spans, given the position reached in the text and in the view. -/
def segmentsFrom (length : Nat) (cursor viewLength : Nat) : List Span → List Segment
  | [] => if cursor < length then [⟨viewLength, cursor, length - cursor⟩] else []
  | span :: rest =>
    if cursor < span.start then
      ⟨viewLength, cursor, span.start - cursor⟩ ::
        segmentsFrom length (max cursor span.stop) (viewLength + (span.start - cursor)) rest
    else segmentsFrom length (max cursor span.stop) viewLength rest

/-- The unconsumed text. -/
def view (buffer : SourceBuffer) : SourceView :=
  let segments := segmentsFrom buffer.text.length 0 0 buffer.spans
  { text := segments.flatMap fun s => buffer.text.slice s.sourceStart (s.sourceStart + s.length)
    segments }

/-- What is left of the text. -/
def residual (buffer : SourceBuffer) : Text := buffer.view.text

/-- The buffer after consuming a span given by positions of a view. -/
def consumeView (buffer : SourceBuffer) (view : SourceView) (start stop : Int) : SourceBuffer :=
  let (first, last) := view.sourceSpan start stop
  buffer.consume first last

/-- The buffers that come about from an untouched text by consuming spans of it. -/
inductive Reachable : SourceBuffer → Prop
  /-- A text of which nothing was consumed. -/
  | ofText (text : Text) : Reachable (ofText text)
  /-- Consuming once more. -/
  | consume {buffer : SourceBuffer} (start stop : Int) :
      Reachable buffer → Reachable (buffer.consume start stop)

end SourceBuffer

end AngularUplift
