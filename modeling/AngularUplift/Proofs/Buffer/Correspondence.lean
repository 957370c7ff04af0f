import AngularUplift.Proofs.Buffer.Stretches
import Mathlib

/-!
# The positions of a view

The map of a view numbers the unconsumed positions of the buffer in their order. So it is an order isomorphism
between the positions of the view and the unconsumed positions, and it keeps the characters. The span of the buffer
that a view gives for a span of its own is the smallest one in which the characters of that span lie.

## Main statements

* `SourceView.sourceSpan_le_iff`: the spans of the buffer in which the characters of a span of the view lie.
* `SourceBuffer.exists_place_of_lt`, `SourceBuffer.exists_index_of_not_covers`: positions of the view have
  unconsumed places, and every unconsumed place is one of them.
* `SourceBuffer.toSource_orderIso`: the map of a view is an order isomorphism.
-/

namespace AngularUplift

namespace SourceView

variable {length viewStart sourceStart : Nat} {segments : List Segment} (text : Text)

/-- A span of the buffer holds the characters of a span of the view exactly when it reaches from the first of them
to the last one. -/
theorem sourceSpan_le_iff (h : Linked length viewStart sourceStart segments) {start stop : Int}
    (hlt : start < stop) (first last : Int) :
    (∀ index, start ≤ index → index < stop →
        first ≤ toSource ⟨text, segments⟩ index ∧ toSource ⟨text, segments⟩ index < last) ↔
      first ≤ (sourceSpan ⟨text, segments⟩ start stop).1 ∧
        (sourceSpan ⟨text, segments⟩ start stop).2 ≤ last := by
  have horder := toSource_le_iff text h
  have hspan : sourceSpan ⟨text, segments⟩ start stop =
      (toSource ⟨text, segments⟩ start, toSource ⟨text, segments⟩ (stop - 1) + 1) :=
    if_neg (Int.not_le.2 hlt)
  rw [hspan]
  constructor
  · intro hinside
    have hfirst := hinside start (Int.le_refl _) hlt
    have hlast := hinside (stop - 1) (by omega) (by omega)
    exact ⟨hfirst.1, hlast.2⟩
  · rintro ⟨hfirst, hlast⟩ index hge hle
    -- The map keeps the order, so the first and the last character enclose all others.
    have hlow := (horder start index).2 hge
    have hhigh := (horder index (stop - 1)).2 (by omega)
    simp only at hfirst hlast
    omega

end SourceView

namespace SourceBuffer

/-- The characters of a buffer that are not covered, each with its place. -/
def openPlaces (buffer : SourceBuffer) : List (Char × Nat) :=
  buffer.text.zipIdx.filter fun place => ¬Covers buffer.spans place.2

variable {buffer : SourceBuffer}

/-- A character with its place is open when it stands there and the place is not covered. -/
theorem mem_openPlaces {place : Char × Nat} :
    place ∈ buffer.openPlaces ↔
      buffer.text[place.2]? = some place.1 ∧ ¬Covers buffer.spans place.2 := by
  rw [openPlaces, List.mem_filter, decide_eq_true_eq, List.mem_zipIdx_iff_getElem?]

/-- The view shows the open characters in their order, and its map gives their places. -/
theorem view_eq_openPlaces (h : Canonical buffer.text.length buffer.spans) :
    buffer.view.text = buffer.openPlaces.map (·.1) ∧
      buffer.view.text.zipIdx.map (fun shown => buffer.view.toSource shown.2) =
        buffer.openPlaces.map fun place => (place.2 : Int) :=
  ⟨residual_eq_without h, map_toSource_view h⟩

/-- The entry of the view at an index is the open character of that number. -/
theorem toSource_eq_of_openPlaces (h : Canonical buffer.text.length buffer.spans) {index : Nat}
    {place : Char × Nat} (hplace : buffer.openPlaces[index]? = some place) :
    buffer.view.toSource index = place.2 ∧ buffer.view.text[index]? = some place.1 := by
  obtain ⟨htext, hmap⟩ := view_eq_openPlaces h
  have hshown : buffer.view.text[index]? = some place.1 := by
    rw [htext, List.getElem?_map, hplace, Option.map_some]
  refine ⟨?_, hshown⟩
  have hentry := congrArg (fun places => places[index]?) hmap
  simp only [List.getElem?_map, List.getElem?_zipIdx, hshown, hplace, Option.map_some, Nat.zero_add] at hentry
  exact Option.some.inj hentry

/-- Every position of the view has a place in the buffer that is not covered, with the same character. -/
theorem exists_place_of_lt (h : Canonical buffer.text.length buffer.spans) {index : Nat}
    (hindex : index < buffer.view.text.length) :
    ∃ place : Nat, buffer.view.toSource index = place ∧ ¬Covers buffer.spans place ∧
      buffer.text[place]? = buffer.view.text[index]? ∧ place < buffer.text.length := by
  have hlength : index < buffer.openPlaces.length := by
    rwa [(view_eq_openPlaces h).1, List.length_map] at hindex
  have hplace := List.getElem?_eq_getElem hlength
  obtain ⟨hsource, hshown⟩ := toSource_eq_of_openPlaces h hplace
  obtain ⟨hchar, hopen⟩ := mem_openPlaces.1 (List.getElem_mem hlength)
  exact ⟨_, hsource, hopen, hchar.trans hshown.symm, (List.getElem?_eq_some_iff.1 hchar).1⟩

/-- Every place of the buffer that is not covered is that of a position of the view. -/
theorem exists_index_of_not_covers (h : Canonical buffer.text.length buffer.spans) {place : Nat}
    (hplace : place < buffer.text.length) (hopen : ¬Covers buffer.spans place) :
    ∃ index : Nat, index < buffer.view.text.length ∧ buffer.view.toSource index = place := by
  have hmem : ((buffer.text[place], place) : Char × Nat) ∈ buffer.openPlaces :=
    mem_openPlaces.2 ⟨List.getElem?_eq_getElem hplace, hopen⟩
  obtain ⟨index, hindex⟩ := List.mem_iff_getElem?.1 hmem
  obtain ⟨hsource, hshown⟩ := toSource_eq_of_openPlaces h hindex
  exact ⟨index, (List.getElem?_eq_some_iff.1 hshown).1, hsource⟩

/-- The places of the positions of a view are the unconsumed positions of the buffer. -/
theorem image_toSource (h : Reachable buffer) :
    buffer.view.toSource '' Set.Ico 0 (buffer.view.text.length : Int) =
      {place : Int | (0 ≤ place ∧ place < buffer.text.length) ∧ buffer.isConsumed place = false} := by
  have hcanonical := h.consistent.canonical
  have hconsumed : ∀ place, buffer.isConsumed place = false ↔ ¬Covers buffer.spans place := by
    intro place
    rw [h.consistent.covers_iff, ← h.consistent.isConsumed_iff, Bool.not_eq_true]
  ext place
  simp only [Set.mem_image, Set.mem_Ico, Set.mem_ofPred_eq, hconsumed]
  constructor
  · rintro ⟨index, ⟨hnonneg, hlt⟩, rfl⟩
    obtain ⟨index, rfl⟩ := Int.eq_ofNat_of_zero_le hnonneg
    obtain ⟨place, hsource, hopen, -, hplace⟩ := exists_place_of_lt hcanonical (Int.ofNat_lt.1 hlt)
    rw [hsource]
    exact ⟨by omega, hopen⟩
  · rintro ⟨⟨hnonneg, hlt⟩, hopen⟩
    obtain ⟨place, rfl⟩ := Int.eq_ofNat_of_zero_le hnonneg
    obtain ⟨index, hindex, hsource⟩ := exists_index_of_not_covers hcanonical (Int.ofNat_lt.1 hlt) hopen
    exact ⟨index, by omega, hsource⟩

/-- In every buffer that comes about by consuming, the map of its view is strictly increasing on the positions of
the view, takes exactly the unconsumed positions of the buffer as values and keeps the characters. For a span of the
view that holds something, the view gives the smallest span of the buffer in which the places of its positions
lie. -/
theorem toSource_orderIso (h : Reachable buffer) :
    StrictMonoOn buffer.view.toSource (Set.Ico 0 (buffer.view.text.length : Int)) ∧
      buffer.view.toSource '' Set.Ico 0 (buffer.view.text.length : Int) =
        {place : Int | (0 ≤ place ∧ place < buffer.text.length) ∧ buffer.isConsumed place = false} ∧
      (∀ index : Nat, index < buffer.view.text.length →
        ∃ place : Nat, buffer.view.toSource index = place ∧
          buffer.text[place]? = buffer.view.text[index]?) ∧
      ∀ start stop : Int, 0 ≤ start → start < stop → stop ≤ buffer.view.text.length →
        ∀ first last : Int,
          (∀ index, start ≤ index → index < stop →
              first ≤ buffer.view.toSource index ∧ buffer.view.toSource index < last) ↔
            first ≤ (buffer.view.sourceSpan start stop).1 ∧
              (buffer.view.sourceSpan start stop).2 ≤ last := by
  have hcanonical := h.consistent.canonical
  have hlinked := linked_view hcanonical
  refine ⟨?_, image_toSource h, ?_, ?_⟩
  · intro index _ other _ hlt
    have horder := SourceView.toSource_le_iff buffer.view.text hlinked other index
    exact Int.not_le.1 fun hle => Int.not_le.2 hlt (horder.1 hle)
  · intro index hindex
    obtain ⟨place, hsource, -, hchar, -⟩ := exists_place_of_lt hcanonical hindex
    exact ⟨place, hsource, hchar⟩
  · intro start stop _ hlt _ first last
    exact SourceView.sourceSpan_le_iff buffer.view.text hlinked hlt first last

/-- A view with a hole inside and one at its end: the smallest span around its first two characters straddles the
hole. -/
theorem toSource_orderIso_holes :
    let buffer := ((ofText (txt "abcdef")).consume 1 3).consume 5 6
    buffer.Reachable ∧ buffer.view.text = txt "ade" ∧
      buffer.view.toSource '' Set.Ico 0 (buffer.view.text.length : Int) =
        {place : Int | (0 ≤ place ∧ place < buffer.text.length) ∧ buffer.isConsumed place = false} ∧
      buffer.view.sourceSpan 0 2 = (0, 4) ∧
      ∀ first last : Int,
        (∀ index, 0 ≤ index → index < 2 →
            first ≤ buffer.view.toSource index ∧ buffer.view.toSource index < last) ↔
          first ≤ 0 ∧ 4 ≤ last := by
  intro buffer
  have h : buffer.Reachable := .consume 5 6 (.consume 1 3 (.ofText (txt "abcdef")))
  obtain ⟨-, himage, -, hsmallest⟩ := toSource_orderIso h
  exact ⟨h, by decide, himage, by decide, hsmallest 0 2 (by decide) (by decide) (by decide)⟩

end SourceBuffer

end AngularUplift
