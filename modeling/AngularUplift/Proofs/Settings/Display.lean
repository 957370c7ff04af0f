import AngularUplift.Settings.Options

/-!
# Which values can be written as a text

Every value of settings can be shown, but for one thing: no integer is written with more digits than `mostDigits`. So a
value with a longer integer anywhere in it, be it in a key, has no text, and that is the only way to have none.

## Main definitions

* `Datum.integers`: all integers in a value.
* `Datum.IsWritable`: whether none of them is too long.

## Main statements

* `Datum.shown_display`: a value is shown exactly when it is writable.
* `shown_optionText`: an option that is a text is given one exactly by the writable values.
-/

namespace AngularUplift

namespace Datum

mutual

/-- The integers in a value. -/
def integers : Datum → List Int
  | .int n => [n]
  | .list items => itemIntegers items
  | .mapping entries => entryIntegers entries
  | _ => []

/-- The integers in the items of a list. -/
def itemIntegers : List Datum → List Int
  | [] => []
  | item :: rest => integers item ++ itemIntegers rest

/-- The integers in the entries of a mapping. -/
def entryIntegers : List (Datum × Datum) → List Int
  | [] => []
  | (key, value) :: rest => (integers key ++ integers value) ++ entryIntegers rest

end

/-- An integer has not too many digits. -/
def IsShort (n : Int) : Prop := (Text.ofNat n.natAbs).length ≤ mostDigits

instance : DecidablePred IsShort := fun n => inferInstanceAs (Decidable ((Text.ofNat n.natAbs).length ≤ mostDigits))

/-- No integer in a value has too many digits. -/
def IsWritable (value : Datum) : Prop := ∀ n ∈ value.integers, IsShort n

instance (value : Datum) : Decidable value.IsWritable := inferInstanceAs (Decidable (∀ n ∈ value.integers, IsShort n))

/-- A result is there when the integers are not too long, and otherwise it is refused for an integer that is. -/
def Shown {α : Type} (integers : List Int) (result : Except ValueFault α) : Prop :=
  ((∀ n ∈ integers, IsShort n) → ∃ shown, result = .ok shown) ∧
    (¬(∀ n ∈ integers, IsShort n) → result = .error .integerTooLong)

section Shown

variable {α β : Type} {front back : List Int}

/-- What has no integers is shown. -/
theorem shown_ok (shown : α) : Shown [] (.ok shown) :=
  ⟨fun _ => ⟨shown, rfl⟩, fun h => absurd (List.forall_mem_nil _) h⟩

/-- What is made from a part that is shown is shown. -/
theorem Shown.map {result : Except ValueFault α} (h : Shown front result) (f : α → β) : Shown front (f <$> result) := by
  refine ⟨fun hshort => ?_, fun hlong => ?_⟩
  · obtain ⟨shown, rfl⟩ := h.1 hshort
    exact ⟨f shown, rfl⟩
  · rw [h.2 hlong]
    rfl

/-- Of two parts the first that has too long an integer is the reason. -/
theorem Shown.bind {first : Except ValueFault α} {next : α → Except ValueFault β} (hfirst : Shown front first)
    (hnext : ∀ shown, Shown back (next shown)) : Shown (front ++ back) (first >>= next) := by
  simp only [Shown, List.forall_mem_append]
  by_cases hfront : ∀ n ∈ front, IsShort n
  · obtain ⟨shown, rfl⟩ := hfirst.1 hfront
    exact ⟨fun hshort => (hnext shown).1 hshort.2, fun hlong => (hnext shown).2 fun hback => hlong ⟨hfront, hback⟩⟩
  · rw [hfirst.2 hfront]
    exact ⟨fun hshort => absurd hshort.1 hfront, fun _ => rfl⟩

/-- An integer is shown when it is not too long itself. -/
theorem shown_displayInteger (n : Int) : Shown [n] (displayInteger n) := by
  simp only [Shown, List.forall_mem_singleton, displayInteger, IsShort]
  split
  · next hlong => exact ⟨fun hshort => absurd hlong (Nat.not_lt.2 hshort), fun _ => rfl⟩
  · next hshort => exact ⟨fun _ => ⟨_, rfl⟩, fun hlong => absurd (Nat.not_lt.1 hshort) hlong⟩

end Shown

mutual

/-- A value inside a list or a mapping is shown exactly when it is writable. -/
theorem shown_displayInner : (value : Datum) → Shown value.integers value.displayInner
  | .null => shown_ok _
  | .bool true => shown_ok _
  | .bool false => shown_ok _
  | .int n => shown_displayInteger n
  | .float _ => shown_ok _
  | .notNumber => shown_ok _
  | .text _ => shown_ok _
  | .binary _ => shown_ok _
  | .day _ => shown_ok _
  | .moment _ => shown_ok _
  | .list items => (shown_displayItems items).map _
  | .mapping entries => (shown_displayEntries entries).map _

/-- The items of a list are shown exactly when all of them are writable. -/
theorem shown_displayItems : (items : List Datum) → Shown (itemIntegers items) (displayItems items)
  | [] => shown_ok _
  | item :: rest => (shown_displayInner item).bind fun _ => (shown_displayItems rest).map _

/-- The entries of a mapping are shown exactly when all their keys and values are writable. -/
theorem shown_displayEntries : (entries : List (Datum × Datum)) → Shown (entryIntegers entries) (displayEntries entries)
  | [] => shown_ok _
  | (key, value) :: rest => by
    rw [entryIntegers, List.append_assoc]
    exact (shown_displayInner key).bind fun _ =>
      (shown_displayInner value).bind fun _ => (shown_displayEntries rest).map _

end

/-- A value is shown exactly when it is writable. -/
theorem shown_display (value : Datum) : Shown value.integers value.display := by
  cases value with
  | text => exact shown_ok _
  | day => exact shown_ok _
  | moment => exact shown_ok _
  | _ => exact shown_displayInner _

end Datum

/-- An option that is a text is given one exactly by the values that are writable. -/
theorem shown_optionText (value : Datum) :
    (value.IsWritable → ∃ text, optionText value = .ok text) ∧
      (¬value.IsWritable → optionText value = .error (.value .integerTooLong)) := by
  have hnone : Datum.null.IsWritable := List.forall_mem_nil _
  have htext : ∀ text, (Datum.text text).IsWritable := fun _ => List.forall_mem_nil _
  -- All but null and texts are converted by way of what is shown.
  have hother : ∀ result : Except ValueFault Text, Datum.Shown value.integers result →
      (value.IsWritable → ∃ text, (·.getD []) <$> (some <$> result).mapError Fault.value = .ok text) ∧
        (¬value.IsWritable →
          (·.getD []) <$> (some <$> result).mapError Fault.value = .error (.value .integerTooLong)) := by
    intro result hshown
    refine ⟨fun hwritable => ?_, fun hlong => ?_⟩
    · obtain ⟨text, rfl⟩ := hshown.1 hwritable
      exact ⟨text, rfl⟩
    · rw [hshown.2 hlong]
      rfl
  cases value with
  | null => exact ⟨fun _ => ⟨[], rfl⟩, fun hlong => absurd hnone hlong⟩
  | text t => exact ⟨fun _ => ⟨_, rfl⟩, fun hlong => absurd (htext t) hlong⟩
  | _ => exact hother _ (Datum.shown_display _)

/-- What comes after a value was converted to a text that is not used. -/
theorem optionText_bind {α : Type} (value : Datum) (result : Except Fault α) :
    (do
      let _ ← optionText value
      result) = if value.IsWritable then result else .error (.value .integerTooLong) := by
  split
  · next hwritable =>
    obtain ⟨text, htext⟩ := (shown_optionText value).1 hwritable
    rw [htext]
    rfl
  · next hlong =>
    rw [(shown_optionText value).2 hlong]
    rfl

end AngularUplift
