import AngularUplift.Proofs.Buffer.View

/-!
# Buffers made of stretches

A text may be written as stretches of which each is consumed as a whole or not at all. Then the residual is made of
the stretches that are left, a view sends a position in such a stretch to its place in the text, and consuming a
stretch through the view takes exactly that stretch.

## Main definitions

* `Stretch`: a stretch of a text, taken or not.
* `SourceBuffer.Shows`: the buffer is made of stretches, and the taken ones are consumed.

## Main statements

* `SourceBuffer.Shows.residual_eq`: the residual is made of the stretches that are left.
* `SourceBuffer.Shows.toSource_eq`: where the characters of a stretch stand in the text.
* `SourceBuffer.Shows.consumeView`: consuming a stretch takes it.
-/

namespace AngularUplift

/-- A stretch of a text, taken or not. -/
structure Stretch where
  /-- The characters of the stretch. -/
  text : Text
  /-- Whether the stretch is taken. -/
  taken : Bool

namespace Stretch

/-- The text that stretches make up. -/
def source (stretches : List Stretch) : Text := stretches.flatMap (·.text)

/-- The text of the stretches that are left. -/
def visible (stretches : List Stretch) : Text :=
  stretches.flatMap fun stretch => if stretch.taken then [] else stretch.text

/-- A position lies in a stretch that is taken. -/
def TakenAt : List Stretch → Nat → Prop
  | [], _ => False
  | stretch :: rest, index =>
    if index < stretch.text.length then stretch.taken = true else TakenAt rest (index - stretch.text.length)

/-- The characters of the stretches that are left, with their places in a text that begins at a position. -/
def places (start : Nat) : List Stretch → List (Char × Nat)
  | [] => []
  | stretch :: rest =>
    (if stretch.taken then [] else stretch.text.zipIdx start) ++ places (start + stretch.text.length) rest

@[simp]
theorem source_cons (stretch : Stretch) (rest : List Stretch) :
    source (stretch :: rest) = stretch.text ++ source rest := by
  simp [source]

@[simp]
theorem source_append (stretches others : List Stretch) :
    source (stretches ++ others) = source stretches ++ source others := by
  simp [source]

@[simp]
theorem visible_cons (stretch : Stretch) (rest : List Stretch) :
    visible (stretch :: rest) = (if stretch.taken then [] else stretch.text) ++ visible rest := by
  simp [visible]

@[simp]
theorem visible_append (stretches others : List Stretch) :
    visible (stretches ++ others) = visible stretches ++ visible others := by
  simp [visible]

/-- The places of further stretches come after the text of the stretches before. -/
theorem places_append (start : Nat) (stretches others : List Stretch) :
    places start (stretches ++ others) =
      places start stretches ++ places (start + (source stretches).length) others := by
  induction stretches generalizing start with
  | nil => simp [places, source]
  | cons stretch rest ih => simp [places, ih, Nat.add_assoc]

/-- The characters that are left are the text that is left. -/
theorem map_fst_places (start : Nat) (stretches : List Stretch) :
    (places start stretches).map (·.1) = visible stretches := by
  induction stretches generalizing start with
  | nil => rfl
  | cons stretch rest ih =>
    rw [places, List.map_append, ih, visible_cons]
    split
    · rfl
    · rw [List.zipIdx_map_fst]

/-- The characters outside the taken stretches, with their places. -/
theorem filter_zipIdx_source {stretches : List Stretch} {start : Nat} (gone : Nat → Prop) [DecidablePred gone]
    (h : ∀ offset < (source stretches).length, gone (start + offset) ↔ TakenAt stretches offset) :
    (((source stretches).zipIdx start).filter fun place => ¬gone place.2) = places start stretches := by
  induction stretches generalizing start with
  | nil => rfl
  | cons stretch rest ih =>
    -- Each stretch is taken as a whole or left as a whole; the later ones begin further on.
    have hrest : (((source rest).zipIdx (start + stretch.text.length)).filter fun place => ¬gone place.2) =
        places (start + stretch.text.length) rest := by
      refine ih fun offset hoffset => ?_
      have hgone := h (stretch.text.length + offset) (by simpa using hoffset)
      rw [TakenAt, if_neg (by omega), Nat.add_sub_cancel_left] at hgone
      rwa [Nat.add_assoc]
    have hfirst : ∀ place ∈ stretch.text.zipIdx start, gone place.2 ↔ stretch.taken = true := by
      intro place hplace
      have hge := List.le_snd_of_mem_zipIdx hplace
      have hlt := List.snd_lt_of_mem_zipIdx hplace
      have hgone := h (place.2 - start) (by simp; omega)
      rwa [TakenAt, if_pos (by omega), Nat.add_sub_cancel' hge] at hgone
    rw [source_cons, List.zipIdx_append, List.filter_append, hrest, places]
    congr 1
    split
    · next htaken =>
      exact List.filter_eq_nil_iff.2 fun place hplace => by simpa using (hfirst place hplace).2 htaken
    · next hleft =>
      exact List.filter_eq_self.2 fun place hplace => by simpa using mt (hfirst place hplace).1 hleft

/-- No position is taken when no stretch is. -/
theorem not_takenAt {stretches : List Stretch} (h : ∀ stretch ∈ stretches, stretch.taken = false) (index : Nat) :
    ¬TakenAt stretches index := by
  induction stretches generalizing index with
  | nil => exact id
  | cons stretch rest ih =>
    obtain ⟨hfirst, hrest⟩ := List.forall_mem_cons.1 h
    rw [TakenAt]
    split
    · simp [hfirst]
    · exact ih hrest _

/-- Taking one stretch more takes the positions of that stretch. -/
theorem takenAt_iff (before after : List Stretch) (text : Text) (index : Nat) :
    TakenAt (before ++ ⟨text, true⟩ :: after) index ↔
      TakenAt (before ++ ⟨text, false⟩ :: after) index ∨
        ((source before).length ≤ index ∧ index < (source before).length + text.length) := by
  induction before generalizing index with
  | nil =>
    simp only [List.nil_append, TakenAt, source, List.flatMap_nil, List.length_nil]
    split
    · simp
      omega
    · simp
      omega
  | cons stretch before ih =>
    simp only [List.cons_append, TakenAt, source_cons, List.length_append]
    split
    · simp
      omega
    · rw [ih]
      refine or_congr_right ?_
      omega

end Stretch

namespace SourceBuffer

/-- The map of a view sends the characters of the view to the positions that are not covered, in their order. -/
theorem map_toSource_view {buffer : SourceBuffer} (h : Canonical buffer.text.length buffer.spans) :
    buffer.view.text.zipIdx.map (fun place => buffer.view.toSource place.2) =
      (buffer.text.zipIdx.filter fun place => ¬Covers buffer.spans place.2).map fun place => (place.2 : Int) := by
  have hlinked := linked_view h
  have hplaces := flatMap_places_segmentsFrom h (Nat.zero_le _) (fun span _ => Nat.zero_le _) 0
  rw [Text.places_zero_length] at hplaces
  -- In each segment the map of the view runs in step with the positions of the text.
  have hsegments : ∀ s ∈ buffer.view.segments,
      ((buffer.text.slice s.sourceStart (s.sourceStart + s.length)).zipIdx s.viewStart).map
          (fun place => buffer.view.toSource place.2) =
        (s.places buffer.text).map fun place => (place.2 : Int) := by
    intro s hs
    have hlength : (buffer.text.slice s.sourceStart (s.sourceStart + s.length)).length = s.length := by
      rw [Text.length_slice (hlinked.stop_le_of_mem hs), Nat.add_sub_cancel_left]
    refine List.ext_getElem (by simp [Segment.places, Text.places]) fun offset hoffset _ => ?_
    rw [List.length_map, List.length_zipIdx, hlength] at hoffset
    simp only [List.getElem_map, Segment.places, Text.places, List.getElem_zipIdx]
    exact SourceView.toSource_of_mem _ hlinked hs hoffset
  calc
    buffer.view.text.zipIdx.map (fun place => buffer.view.toSource place.2)
      = buffer.view.segments.flatMap fun s =>
          ((buffer.text.slice s.sourceStart (s.sourceStart + s.length)).zipIdx s.viewStart).map
            fun place => buffer.view.toSource place.2 := by
        rw [← List.map_flatMap, ← zipIdx_flatMap_slice hlinked]
        rfl
    _ = buffer.view.segments.flatMap fun s => (s.places buffer.text).map fun place => (place.2 : Int) :=
        List.flatMap_congr hsegments
    _ = (buffer.text.zipIdx.filter fun place => ¬Covers buffer.spans place.2).map fun place => (place.2 : Int) := by
        rw [← hplaces, List.map_flatMap]
        rfl

/-- A buffer is made of stretches, and what is consumed of it are the taken ones. -/
structure Shows (buffer : SourceBuffer) (stretches : List Stretch) : Prop where
  /-- The spans are canonical. -/
  canonical : Canonical buffer.text.length buffer.spans
  /-- The text is that of the stretches. -/
  text_eq : buffer.text = Stretch.source stretches
  /-- The consumed positions are those of the taken stretches. -/
  covers_iff : ∀ index < buffer.text.length, Covers buffer.spans (index : Nat) ↔ Stretch.TakenAt stretches index

namespace Shows

variable {buffer : SourceBuffer} {stretches before after : List Stretch} {text : Text}

/-- Nothing is taken from an untouched text. -/
theorem ofText (h : ∀ stretch ∈ stretches, stretch.taken = false) :
    (ofText (Stretch.source stretches)).Shows stretches where
  canonical := Canonical.nil
  text_eq := rfl
  covers_iff index _ := iff_of_false (not_covers_nil _) (Stretch.not_takenAt h index)

/-- The characters that are left, with their places. -/
theorem filter_zipIdx (h : buffer.Shows stretches) :
    (buffer.text.zipIdx.filter fun place => ¬Covers buffer.spans place.2) = Stretch.places 0 stretches := by
  have hcovers := h.covers_iff
  rw [h.text_eq] at hcovers ⊢
  refine Stretch.filter_zipIdx_source (fun index => Covers buffer.spans index) fun offset hoffset => ?_
  rw [Nat.zero_add]
  exact hcovers offset hoffset

/-- The residual is made of the stretches that are left. -/
theorem residual_eq (h : buffer.Shows stretches) : buffer.residual = Stretch.visible stretches := by
  rw [residual_eq_without h.canonical, Text.without, h.filter_zipIdx, Stretch.map_fst_places]

/-- Where the characters of a stretch that is left stand in the text. -/
theorem toSource_eq (h : buffer.Shows (before ++ ⟨text, false⟩ :: after)) {offset : Nat}
    (hoffset : offset < text.length) :
    buffer.view.toSource ((Stretch.visible before).length + offset : Nat) =
      ((Stretch.source before).length + offset : Nat) := by
  -- The map of the view lists the places of what is left, so an entry of that list is a value of the map.
  have hmap := map_toSource_view h.canonical
  rw [h.filter_zipIdx, Stretch.places_append, Nat.zero_add] at hmap
  have hlength : (Stretch.places 0 before).length = (Stretch.visible before).length := by
    rw [← Stretch.map_fst_places 0, List.length_map]
  -- The entry at this position, on both sides.
  have hplace : (Stretch.places 0 before ++ Stretch.places (Stretch.source before).length
      (⟨text, false⟩ :: after))[(Stretch.visible before).length + offset]? =
        some (text[offset], (Stretch.source before).length + offset) := by
    rw [List.getElem?_append_right (by omega), hlength, Nat.add_sub_cancel_left, Stretch.places,
      if_neg Bool.false_ne_true, List.getElem?_append_left (by simpa using hoffset), List.getElem?_zipIdx,
      List.getElem?_eq_getElem hoffset]
    rfl
  have hentry := congrArg (·[(Stretch.visible before).length + offset]?) hmap
  simp only [List.getElem?_map, hplace, List.getElem?_zipIdx, Option.map_map, Option.map_some, Nat.zero_add]
    at hentry
  obtain ⟨c, -, hc⟩ := Option.map_eq_some_iff.1 hentry
  exact hc

/-- Consuming a stretch through the view takes it. -/
theorem consumeView (h : buffer.Shows (before ++ ⟨text, false⟩ :: after)) (hne : text ≠ []) :
    (buffer.consumeView buffer.view (Stretch.visible before).length
      ((Stretch.visible before).length + text.length : Nat)).Shows (before ++ ⟨text, true⟩ :: after) := by
  have hpos : 0 < text.length := List.length_pos_of_ne_nil hne
  -- The stretch is not empty, and its first and last characters stand at both ends of its place in the text.
  have hspan : buffer.view.sourceSpan (Stretch.visible before).length
      ((Stretch.visible before).length + text.length : Nat) =
        (((Stretch.source before).length : Int), (((Stretch.source before).length + text.length : Nat) : Int)) := by
    have hfirst := h.toSource_eq hpos
    have hlast := h.toSource_eq (Nat.sub_lt hpos Nat.one_pos)
    have hstop : (((Stretch.visible before).length + text.length : Nat) : Int) - 1 =
        ((Stretch.visible before).length + (text.length - 1) : Nat) := by omega
    rw [Nat.add_zero, Nat.add_zero] at hfirst
    rw [SourceView.sourceSpan, if_neg (by omega), hstop, hfirst, hlast]
    congr 1
    omega
  -- So the stretch is consumed as if its place in the text had been given.
  have hconsume : buffer.consumeView buffer.view (Stretch.visible before).length
      ((Stretch.visible before).length + text.length : Nat) =
        buffer.consume (Stretch.source before).length ((Stretch.source before).length + text.length : Nat) := by
    rw [SourceBuffer.consumeView, hspan]
  rw [hconsume]
  refine ⟨?_, ?_, fun index hindex => ?_⟩
  · rw [text_consume]
    exact canonical_consume h.canonical _ _
  · rw [text_consume, h.text_eq]
    simp
  · rw [text_consume] at hindex
    rw [covers_consume h.canonical, h.covers_iff index hindex, Stretch.takenAt_iff]
    refine or_congr_right ?_
    omega

end Shows

end SourceBuffer

end AngularUplift
