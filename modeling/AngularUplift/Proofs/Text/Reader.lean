import AngularUplift.Text.Pattern
import Mathlib.Data.List.TakeWhile

/-!
# What readers take off a text

A reader that succeeds has split its text into what it took and the rest. For each of the basic readers this
module says what the taken part looks like, so that a form written as a `do` block can be taken apart step by
step.

## Main statements

* `Reader.bind_eq_some_iff`: a sequence of two readers succeeds when both do, the second on the rest of the first.
* `Reader.exactly_eq_some_iff`, `Reader.run_eq_some`, `Reader.run1_eq_some`, `Reader.afterGap_eq_some`,
  `Reader.firstOf_eq_some`: what the basic readers take.
* `Reader.run_append`, `Reader.run1_append`, `Reader.afterGap_append`: what they take off a text that is put together.
-/

namespace AngularUplift

namespace Text

/-- What follows a piece in a text. -/
theorem after?_eq_some_iff {piece text rest : Text} :
    after? piece text = some rest ↔ text = piece ++ rest := by
  induction piece generalizing text with
  | nil => simp [after?]
  | cons p piece ih =>
    cases text with
    | nil => simp [after?]
    | cons c text =>
      by_cases h : p = c
      · simp [after?, h, ih]
      · simp [after?, h, Ne.symm h]

end Text

namespace Reader

variable {α β : Type} {text rest : Text}

/-- Two readers in sequence: the second reads what the first leaves. -/
theorem bind_eq_some_iff {r : Reader α} {f : α → Reader β} {value : β} :
    (r >>= f) text = some (value, rest) ↔
      ∃ found middle, r text = some (found, middle) ∧ f found middle = some (value, rest) := by
  constructor
  · intro h
    obtain ⟨⟨found, middle⟩, hfirst, hsecond⟩ := Option.bind_eq_some_iff.1 h
    exact ⟨found, middle, hfirst, hsecond⟩
  · rintro ⟨found, middle, hfirst, hsecond⟩
    exact Option.bind_eq_some_iff.2 ⟨(found, middle), hfirst, hsecond⟩

/-- Reading nothing leaves the whole text. -/
theorem pure_eq_some_iff {found value : α} :
    (pure found : Reader α) text = some (value, rest) ↔ found = value ∧ text = rest := by
  change some (found, text) = some (value, rest) ↔ _
  rw [Option.some.injEq, Prod.mk.injEq]

/-- A fixed piece is read from the texts that begin with it. -/
theorem exactly_eq_some_iff {piece : Text} {value : Unit} :
    exactly piece text = some (value, rest) ↔ text = piece ++ rest := by
  rw [exactly, ← Text.after?_eq_some_iff]
  simp

/-- One character of a class is read from the texts that begin with one. -/
theorem oneOf_eq_some {p : Char → Bool} {c : Char} (h : oneOf p text = some (c, rest)) : text = c :: rest ∧ p c := by
  cases text with
  | nil => cases h
  | cons d text =>
    rw [oneOf, Option.ite_none_right_eq_some] at h
    obtain ⟨hd, heq⟩ := h
    obtain ⟨rfl, rfl⟩ := Prod.mk.inj (Option.some.inj heq)
    exact ⟨rfl, hd⟩

/-- A run is made of characters of the class. -/
theorem run_eq_some {p : Char → Bool} {taken : Text} (h : run p text = some (taken, rest)) :
    text = taken ++ rest ∧ ∀ c ∈ taken, p c := by
  simp only [run, Option.some.injEq, Prod.mk.injEq] at h
  obtain ⟨rfl, rfl⟩ := h
  exact ⟨List.takeWhile_append_dropWhile.symm, fun c hc => List.mem_takeWhile_imp hc⟩

/-- A run goes on to a character outside the class. -/
theorem head_of_run {p : Char → Bool} {taken : Text} (h : run p text = some (taken, rest)) :
    ∀ c ∈ rest.head?, p c = false := by
  simp only [run, Option.some.injEq, Prod.mk.injEq] at h
  have hnot := List.head?_dropWhile_not p text
  rw [h.2] at hnot
  intro c hc
  rw [Option.mem_def.1 hc] at hnot
  simpa using hnot

/-- A run that may not be empty is made of characters of the class, and of at least one. -/
theorem run1_eq_some {p : Char → Bool} {taken : Text} (h : run1 p text = some (taken, rest)) :
    text = taken ++ rest ∧ taken ≠ [] ∧ ∀ c ∈ taken, p c := by
  rw [run1, Option.ite_none_left_eq_some] at h
  obtain ⟨hnonempty, hrun⟩ := h
  obtain ⟨htext, htaken⟩ := run_eq_some hrun
  simp only [Option.some.injEq, Prod.mk.injEq] at hrun
  refine ⟨htext, ?_, htaken⟩
  rintro rfl
  exact hnonempty (by rw [hrun.1, List.isEmpty_nil])

/-- The character that a text goes on with is outside a class. -/
theorem head_cons {p : Char → Bool} {c : Char} (h : p c = false) : ∀ d ∈ (c :: rest).head?, p d = false := by
  rintro d ⟨⟩
  exact h

/-- A run is taken up to the first character outside the class. -/
theorem run_append {p : Char → Bool} {taken : Text} (htaken : ∀ c ∈ taken, p c)
    (hrest : ∀ c ∈ rest.head?, p c = false) : run p (taken ++ rest) = some (taken, rest) := by
  rw [run, List.takeWhile_append_of_pos htaken, List.dropWhile_append_of_pos htaken]
  cases rest with
  | nil => rw [List.takeWhile_nil, List.dropWhile_nil, List.append_nil]
  | cons c rest =>
    have hc : ¬p c := by simp [hrest c rfl]
    rw [List.takeWhile_cons_of_neg hc, List.dropWhile_cons_of_neg hc, List.append_nil]

/-- A run that may not be empty is taken when it is not. -/
theorem run1_append {p : Char → Bool} {taken : Text} (hne : taken ≠ []) (htaken : ∀ c ∈ taken, p c)
    (hrest : ∀ c ∈ rest.head?, p c = false) : run1 p (taken ++ rest) = some (taken, rest) := by
  have hrun := run_append htaken hrest
  simp only [run, Option.some.injEq, Prod.mk.injEq] at hrun
  rw [run1, hrun.1, hrun.2, if_neg (by simpa using hne)]

/-- A reader that looks ahead lets everything pass that does not begin with the class. -/
theorem notNext_eq {p : Char → Bool} (h : ∀ c ∈ text.head?, p c = false) : notNext p text = some ((), text) := by
  cases text with
  | nil => rfl
  | cons c text => simp [notNext, h c rfl]

/-- A reader that looks ahead takes nothing, and the next character is not of the class. -/
theorem notNext_eq_some {p : Char → Bool} {value : Unit} (h : notNext p text = some (value, rest)) :
    rest = text ∧ ∀ c ∈ text.head?, ¬p c := by
  cases text with
  | nil => simp_all [notNext]
  | cons c text =>
    simp only [notNext, Option.ite_none_left_eq_some, Option.some.injEq, Prod.mk.injEq] at h
    obtain ⟨hnot, -, rfl⟩ := h
    refine ⟨rfl, fun d hd => ?_⟩
    obtain rfl := Option.mem_some.1 hd
    exact hnot

/-- A piece that is not required is taken when it comes next. -/
theorem optionally_eq_some {piece : Text} {value : Unit} (h : optionally piece text = some (value, rest)) :
    text = piece ++ rest ∨ (rest = text ∧ ¬piece <+: text) := by
  simp only [optionally, Option.some.injEq, Prod.mk.injEq] at h
  obtain ⟨-, rfl⟩ := h
  cases hafter : piece.after? text with
  | some after => exact .inl (Text.after?_eq_some_iff.1 hafter)
  | none =>
    refine .inr ⟨rfl, ?_⟩
    rintro ⟨after, rfl⟩
    rw [Text.after?_eq_some_iff.2 rfl] at hafter
    cases hafter

/-- What the first of several readers that succeeds reads is read by one of them. -/
theorem firstOf_eq_some {readers : List (Reader α)} {value : α}
    (h : firstOf readers text = some (value, rest)) :
    ∃ r ∈ readers, r text = some (value, rest) := by
  induction readers with
  | nil => exact absurd h (by simp [firstOf])
  | cons r readers ih =>
    simp only [firstOf] at h
    split at h
    · next hfound => exact ⟨r, List.mem_cons_self, hfound.trans h⟩
    · obtain ⟨other, hmem, hother⟩ := ih h
      exact ⟨other, List.mem_cons_of_mem _ hmem, hother⟩

/-- The first of several readers that succeeds reads something when one of them does. -/
theorem isSome_firstOf {readers : List (Reader α)} {r : Reader α} (hr : r ∈ readers) (h : (r text).isSome) :
    (firstOf readers text).isSome := by
  induction readers with
  | nil => exact absurd hr List.not_mem_nil
  | cons first readers ih =>
    simp only [firstOf]
    split
    · rfl
    · next hnone =>
      rcases List.mem_cons.1 hr with rfl | hmem
      · exact absurd h (by simp [hnone])
      · exact ih hmem

/-- One of several fixed pieces is read from the texts that begin with one of them. -/
theorem anyOf_eq_some {pieces : List Text} {value : Unit} (h : anyOf pieces text = some (value, rest)) :
    ∃ piece ∈ pieces, text = piece ++ rest := by
  obtain ⟨r, hr, hread⟩ := firstOf_eq_some h
  obtain ⟨piece, hpiece, rfl⟩ := List.mem_map.1 hr
  exact ⟨piece, hpiece, exactly_eq_some_iff.1 hread⟩

/-- Before what a reader reads after a gap stand spaces and tabs. -/
theorem afterGap_eq_some {r : Reader α} {value : α} (h : afterGap r text = some (value, rest)) :
    ∃ indent middle, text = indent ++ middle ∧ (∀ c ∈ indent, isGap c) ∧
      r middle = some (value, rest) := by
  obtain ⟨n, hn, hread⟩ := List.exists_of_findSome?_eq_some h
  refine ⟨text.take n, text.drop n, (List.take_append_drop ..).symm, fun c hc => ?_, hread⟩
  -- The characters passed over belong to the run of spaces and tabs that the text begins with.
  have hle : n ≤ (text.takeWhile isGap).length := by simpa [Nat.lt_succ_iff] using hn
  have hleading : text.take n <+: text.takeWhile isGap :=
    List.prefix_of_prefix_length_le (List.take_prefix ..) (List.takeWhile_prefix _)
      (Nat.le_trans (List.length_take_le ..) hle)
  exact List.mem_takeWhile_imp (hleading.subset hc)

/-- All the spaces and tabs are passed over where the reader can go on after them. -/
theorem afterGap_append {r : Reader α} {indent : Text} (hindent : ∀ c ∈ indent, isGap c)
    (htext : ∀ c ∈ text.head?, isGap c = false) {value : α} (h : r text = some (value, rest)) :
    afterGap r (indent ++ text) = some (value, rest) := by
  have hrun := run_append hindent htext
  simp only [run, Option.some.injEq, Prod.mk.injEq] at hrun
  have hfirst : r ((indent ++ text).drop indent.length) = some (value, rest) := by rw [List.drop_left, h]
  rw [afterGap, hrun.1, List.range_succ, List.reverse_append]
  show ([indent.length] ++ (List.range indent.length).reverse).findSome? _ = _
  rw [List.singleton_append, List.findSome?_cons, hfirst]

end Reader

end AngularUplift
