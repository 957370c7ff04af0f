import AngularUplift.Text.CodePoint

/-!
# Code points of texts, and halves next to each other

A text has no halves, so what is done to its code points is what is done to its characters. In a sequence of any code
points two halves that stand next to each other may make a character. Putting them together changes a sequence exactly
when it has such a place, and then it becomes shorter.

## Main definitions

* `CodePoint.IsSplit`: a sequence in which a first half stands right before a second one.

## Main statements

* `CodePoint.dropWhile_ofText`, `CodePoint.trim_ofText`: the classes of the characters of a text.
* `CodePoint.pair_eq_self_iff`: when there is nothing to put together.
-/

namespace AngularUplift.CodePoint

/-! ### Texts -/

/-- The first code point of a text. -/
theorem ofText_cons (c : Char) (text : Text) : ofText (c :: text) = .char c :: ofText text := rfl

/-- All code points of a text are characters. -/
theorem chars_ofText (text : Text) : chars (ofText text) = text := by
  induction text with
  | nil => rfl
  | cons c text ih => rw [ofText_cons, chars, ih]

/-- After the characters of a text there is nothing. -/
theorem afterChars_ofText (text : Text) : afterChars (ofText text) = [] := by
  induction text with
  | nil => rfl
  | cons c text ih => rw [ofText_cons, afterChars, ih]

/-- The characters of a class at the beginning of a text. -/
theorem dropWhile_ofText (p : Char → Bool) (text : Text) :
    (ofText text).dropWhile (is p) = ofText (text.dropWhile p) := List.dropWhile_map

/-- The characters of a class at the end of a text. -/
theorem dropRightWhile_ofText (p : Char → Bool) (text : Text) :
    dropRightWhile p (ofText text) = ofText (Text.dropRightWhile p text) := by
  have hreverse : (ofText text).reverse = ofText text.reverse := List.map_reverse.symm
  rw [dropRightWhile, hreverse, dropWhile_ofText]
  exact List.map_reverse.symm

/-- White space at the ends of a text. -/
theorem trim_ofText (text : Text) : trim (ofText text) = ofText (Text.trim text) := by
  rw [trim, dropWhile_ofText, dropRightWhile_ofText]
  rfl

/-! ### Halves -/

/-- Only a first half and a second half make a character. -/
theorem exists_of_joined? {first second : CodePoint} {c : Char} (h : joined? first second = some c) :
    ∃ high low : Fin 0x800, first = .half high ∧ second = .half low ∧ high.val < 0x400 ∧ 0x400 ≤ low.val := by
  cases first with
  | char => exact absurd h (by simp [joined?])
  | half high =>
    cases second with
    | char => exact absurd h (by simp [joined?])
    | half low =>
      obtain ⟨⟨hhigh, hlow⟩, -⟩ := Option.ite_none_right_eq_some.1 h
      exact ⟨high, low, rfl, rfl, hhigh, hlow⟩

/-- A code point that does not belong to the next one stays as it is. -/
theorem pair_cons {first : CodePoint} {points : List CodePoint}
    (h : ∀ second ∈ points.head?, joined? first second = none) :
    pair (first :: points) = first :: pair points := by
  cases points with
  | nil => rfl
  | cons second rest => rw [pair, h second rfl]

/-- Somewhere a first half stands right before a second one. -/
inductive IsSplit : List CodePoint → Prop
  /-- At the beginning. -/
  | here {high low : Fin 0x800} {rest : List CodePoint} (hhigh : high.val < 0x400) (hlow : 0x400 ≤ low.val) :
      IsSplit (.half high :: .half low :: rest)
  /-- Later. -/
  | later {point : CodePoint} {points : List CodePoint} (h : IsSplit points) : IsSplit (point :: points)

/-- Putting halves together makes nothing longer. -/
theorem length_pair_le (points : List CodePoint) : (pair points).length ≤ points.length := by
  fun_induction pair points with
  | case1 => exact Nat.le_refl _
  | case2 => exact Nat.le_refl _
  | case3 first second rest c hjoined ih =>
    rw [List.length_cons, List.length_cons, List.length_cons]
    omega
  | case4 first second rest hjoined ih => exact Nat.succ_le_succ ih

/-- Putting halves together makes a sequence shorter that has two of them next to each other. -/
theorem IsSplit.length_pair_lt {points : List CodePoint} (h : IsSplit points) :
    (pair points).length < points.length := by
  fun_induction pair points with
  | case1 => cases h
  | case2 =>
    obtain _ | h := h
    cases h
  | case3 first second rest c hjoined ih =>
    have hle := length_pair_le rest
    rw [List.length_cons, List.length_cons, List.length_cons]
    omega
  | case4 first second rest hjoined ih =>
    cases h with
    -- The first two would have been put together, so the place is a later one.
    | here hhigh hlow => exact absurd hjoined (by simp [joined?, hhigh, hlow])
    | later h => exact Nat.succ_lt_succ (ih h)

/-- Putting halves together changes nothing exactly when no two of them stand next to each other. -/
theorem pair_eq_self_iff {points : List CodePoint} : pair points = points ↔ ¬IsSplit points := by
  constructor
  · intro hpair h
    exact absurd (congrArg List.length hpair) (Nat.ne_of_lt h.length_pair_lt)
  · intro h
    fun_induction pair points with
    | case1 => rfl
    | case2 => rfl
    | case3 first second rest c hjoined ih =>
      obtain ⟨high, low, rfl, rfl, hhigh, hlow⟩ := exists_of_joined? hjoined
      exact absurd (.here hhigh hlow) h
    | case4 first second rest hjoined ih => rw [ih fun hlater => h hlater.later]

end AngularUplift.CodePoint
