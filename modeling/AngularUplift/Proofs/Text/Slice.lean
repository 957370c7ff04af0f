import AngularUplift.Text.Basic

/-!
# Slices and deletions

Slices of a text, the places of its characters, and what is left of it when the characters at some positions are
taken out.

## Main definitions

* `Text.places`: the characters between two positions, each with its position.
* `Text.without`: a text without the characters at some positions.
-/

namespace AngularUplift

namespace Text

/-- The characters between two positions, each with its position. -/
def places (text : Text) (start stop : Nat) : List (Char × Nat) := (text.slice start stop).zipIdx start

/-- The text without the characters at the positions that are gone. -/
def without (text : Text) (gone : Nat → Prop) [DecidablePred gone] : Text :=
  (text.zipIdx.filter fun place => ¬gone place.2).map (·.1)

variable {text : Text} {start stop : Nat}

/-- The length of a slice that lies in the text. -/
theorem length_slice (h : stop ≤ text.length) : (text.slice start stop).length = stop - start := by
  simp [slice, Nat.min_eq_left h]

/-- The slice up to the end of a text. -/
theorem slice_length (text : Text) (start : Nat) : text.slice start text.length = text.drop start := by
  rw [slice, List.take_length]

/-- The slice between a position and an earlier one. -/
theorem slice_eq_nil (h : stop ≤ start) : text.slice start stop = [] :=
  List.drop_eq_nil_of_le (Nat.le_trans (List.length_take_le ..) h)

/-- A slice can be split at any position in it. -/
theorem slice_eq_append {middle : Nat} (hstart : start ≤ middle) (hmiddle : middle ≤ stop)
    (hstop : stop ≤ text.length) :
    text.slice start stop = text.slice start middle ++ text.slice middle stop := by
  have htake : text.take middle = (text.take stop).take middle := by
    rw [List.take_take, Nat.min_eq_left hmiddle]
  have hlength : start ≤ (text.take middle).length := by
    rw [List.length_take]
    omega
  rw [slice, slice, slice, ← List.drop_append_of_le_length hlength, htake, List.take_append_drop]

/-- The slice of one character. -/
theorem slice_succ {c : Char} (h : text[start]? = some c) : text.slice start (start + 1) = [c] := by
  obtain ⟨hlt, rfl⟩ := List.getElem?_eq_some_iff.1 h
  rw [slice, List.drop_take, Nat.add_sub_cancel_left, List.take_one, List.head?_drop, h, Option.toList_some]

/-- A slice begins with the character at its first position. -/
theorem slice_eq_cons {c : Char} (h : text[start]? = some c) (hlt : start < stop)
    (hstop : stop ≤ text.length) : text.slice start stop = [c] ++ text.slice (start + 1) stop := by
  rw [slice_eq_append (Nat.le_succ start) hlt hstop, slice_succ h]

/-- A slice at the beginning of the rest of a text. -/
theorem slice_eq_of_drop {taken rest : Text} (h : text.drop start = taken ++ rest) :
    text.slice start (start + taken.length) = taken := by
  rw [slice, List.drop_take, Nat.add_sub_cancel_left, h, List.take_left]

/-- A slice of a slice, seen from the whole text. -/
theorem slice_slice (text : Text) {base limit : Nat} (h : base + stop ≤ limit) :
    (text.slice base limit).slice start stop = text.slice (base + start) (base + stop) := by
  rw [slice, slice, slice, List.take_drop, List.take_take, Nat.min_eq_left h, List.drop_drop]

/-- The characters of a whole text with their positions. -/
theorem places_zero_length (text : Text) : text.places 0 text.length = text.zipIdx := by
  rw [places, slice_length, List.drop_zero]

/-- Between a position and an earlier one there is nothing. -/
theorem places_eq_nil (h : stop ≤ start) : text.places start stop = [] := by
  rw [places, slice_eq_nil h, List.zipIdx_nil]

/-- The characters between two positions can be split at any position between them. -/
theorem places_eq_append {middle : Nat} (hstart : start ≤ middle) (hmiddle : middle ≤ stop)
    (hstop : stop ≤ text.length) :
    text.places start stop = text.places start middle ++ text.places middle stop := by
  have hlength : start + (text.slice start middle).length = middle := by
    rw [length_slice (Nat.le_trans hmiddle hstop)]
    omega
  rw [places, slice_eq_append hstart hmiddle hstop, List.zipIdx_append, hlength, places, places]

/-- The positions of the characters between two positions. -/
theorem bounds_of_mem_places (h : stop ≤ text.length) {place : Char × Nat}
    (hplace : place ∈ text.places start stop) : start ≤ place.2 ∧ place.2 < stop := by
  have hge := List.le_snd_of_mem_zipIdx hplace
  have hlt := List.snd_lt_of_mem_zipIdx hplace
  rw [length_slice h] at hlt
  omega

/-- Which characters are kept depends only on the positions between the two. -/
theorem filter_places_congr (gone lost : Nat → Prop) [DecidablePred gone] [DecidablePred lost]
    (h : stop ≤ text.length)
    (hsame : ∀ index, start ≤ index → index < stop → (gone index ↔ lost index)) :
    ((text.places start stop).filter fun place => ¬gone place.2) =
      (text.places start stop).filter fun place => ¬lost place.2 := by
  refine List.filter_congr fun place hplace => ?_
  obtain ⟨hge, hlt⟩ := bounds_of_mem_places h hplace
  simp only [hsame place.2 hge hlt]

/-- Where no position is gone, every character is kept. -/
theorem filter_places_eq_self (gone : Nat → Prop) [DecidablePred gone] (h : stop ≤ text.length)
    (hkept : ∀ index, start ≤ index → index < stop → ¬gone index) :
    ((text.places start stop).filter fun place => ¬gone place.2) = text.places start stop := by
  refine List.filter_eq_self.2 fun place hplace => ?_
  obtain ⟨hge, hlt⟩ := bounds_of_mem_places h hplace
  exact decide_eq_true (hkept place.2 hge hlt)

/-- Where every position is gone, no character is kept. -/
theorem filter_places_eq_nil (gone : Nat → Prop) [DecidablePred gone] (h : stop ≤ text.length)
    (hgone : ∀ index, start ≤ index → index < stop → gone index) :
    ((text.places start stop).filter fun place => ¬gone place.2) = [] := by
  refine List.filter_eq_nil_iff.2 fun place hplace hkept => ?_
  obtain ⟨hge, hlt⟩ := bounds_of_mem_places h hplace
  exact of_decide_eq_true hkept (hgone place.2 hge hlt)

/-- What is left of a text falls into what is left before a stretch that is kept, the stretch, and what is left behind
it. -/
theorem filter_zipIdx_eq (gone : Nat → Prop) [DecidablePred gone] (hstart : start ≤ stop) (hstop : stop ≤ text.length)
    (hkept : ∀ index, start ≤ index → index < stop → ¬gone index) :
    (text.zipIdx.filter fun place => ¬gone place.2) =
      ((text.places 0 start).filter fun place => ¬gone place.2) ++
        (text.places start stop ++ (text.places stop text.length).filter fun place => ¬gone place.2) := by
  rw [← places_zero_length, places_eq_append (Nat.zero_le start) (Nat.le_trans hstart hstop) (Nat.le_refl _),
    places_eq_append hstart hstop (Nat.le_refl _), List.filter_append, List.filter_append,
    filter_places_eq_self gone hstop hkept]

/-- A stretch of a text of which no character is gone stands in what is left of the text. -/
theorem slice_infix_without (gone : Nat → Prop) [DecidablePred gone] (hstart : start ≤ stop)
    (hstop : stop ≤ text.length) (hkept : ∀ index, start ≤ index → index < stop → ¬gone index) :
    text.slice start stop <:+: text.without gone := by
  have hplaces : (text.places start stop).map (·.1) = text.slice start stop := List.zipIdx_map_fst ..
  rw [without, filter_zipIdx_eq gone hstart hstop hkept, List.map_append, List.map_append, hplaces]
  exact List.infix_append' ..

/-- Only the positions inside the text count. -/
theorem without_congr {gone lost : Nat → Prop} [DecidablePred gone] [DecidablePred lost]
    (h : ∀ index < text.length, gone index ↔ lost index) :
    text.without gone = text.without lost := by
  rw [without, without, ← places_zero_length,
    filter_places_congr gone lost (Nat.le_refl _) fun index _ hlt => h index hlt]

/-- Without the characters from one position up to another there is left what stands before and after them. -/
theorem without_span (hstart : start ≤ stop) (hstop : stop ≤ text.length) :
    (text.without fun index => start ≤ index ∧ index < stop) =
      text.slice 0 start ++ text.slice stop text.length := by
  have hsplit : text.zipIdx = text.places 0 start ++ (text.places start stop ++ text.places stop text.length) := by
    rw [← places_eq_append hstart hstop (Nat.le_refl _),
      ← places_eq_append (Nat.zero_le _) (Nat.le_trans hstart hstop) (Nat.le_refl _), places_zero_length]
  have hplaces : ∀ first last, (text.places first last).map (·.1) = text.slice first last :=
    fun first last => List.zipIdx_map_fst ..
  let gone := fun index => start ≤ index ∧ index < stop
  have hbefore : ((text.places 0 start).filter fun place => ¬gone place.2) = text.places 0 start :=
    filter_places_eq_self gone (Nat.le_trans hstart hstop) (by grind)
  have hinside : ((text.places start stop).filter fun place => ¬gone place.2) = [] :=
    filter_places_eq_nil gone hstop (by grind)
  have hbehind : ((text.places stop text.length).filter fun place => ¬gone place.2) = text.places stop text.length :=
    filter_places_eq_self gone (Nat.le_refl _) (by grind)
  rw [without, hsplit, List.filter_append, List.filter_append, hbefore, hinside, hbehind, List.nil_append,
    List.map_append, hplaces, hplaces]

end Text

end AngularUplift
