import AngularUplift.Literal.Basic
import AngularUplift.Proofs.Text.CodePoint
import AngularUplift.Text.Numeral

/-!
# Values whose halves are put together

In a value that was written and read again the halves that stood next to each other in a string or in a key are one
character. Keys that become the same by this are one key, which has the last of their values. So a value is the same
after it exactly when no string and no key in it has two such halves.

## Main definitions

* `Literal.Plain`: values without floating-point numbers, overlong integers and repeated keys.
* `Literal.setFields`: fields that are set one after the other.
* `Literal.rejoined`: a value whose halves are put together.
* `Literal.strings`: all strings and keys in a value.

## Main statements

* `Literal.setFields_nil_eq_iff`: when fields that are set one after the other are left as they are.
* `Literal.Plain.rejoined_eq_self_iff`: when a value is the same after its halves were put together.
-/

namespace AngularUplift.Literal

/-! ### Values -/

/-- The values without floating-point numbers, without integers with too many digits, and without records with a repeated
key. -/
inductive Plain : Literal → Prop
  /-- The absence of a value. -/
  | null : Plain .null
  /-- A truth value. -/
  | bool (value : Bool) : Plain (.bool value)
  /-- An integer that is not too long. -/
  | int {value : Int} (hdigits : (Text.ofNat value.natAbs).length ≤ mostDigits) : Plain (.int value)
  /-- A string. -/
  | string (value : List CodePoint) : Plain (.string value)
  /-- A list of such values. -/
  | list {items : List Literal} (hitems : ∀ item ∈ items, Plain item) : Plain (.list items)
  /-- A record of such values, with each key once. -/
  | record {fields : List (List CodePoint × Literal)} (hkeys : (fields.map (·.1)).Nodup)
      (hvalues : ∀ field ∈ fields, Plain field.2) : Plain (.record fields)

mutual

/-- All strings and keys in a value. -/
def strings : Literal → List (List CodePoint)
  | .string points => [points]
  | .list items => itemStrings items
  | .record fields => fieldStrings fields
  | _ => []

/-- All strings and keys in the items of a list. -/
def itemStrings : List Literal → List (List CodePoint)
  | [] => []
  | item :: rest => strings item ++ itemStrings rest

/-- All strings and keys in the fields of a record. -/
def fieldStrings : List (List CodePoint × Literal) → List (List CodePoint)
  | [] => []
  | (key, value) :: rest => (key :: strings value) ++ fieldStrings rest

end

/-! ### Fields -/

/-- The fields after more were set, one after the other. -/
def setFields (known fields : List (List CodePoint × Literal)) : List (List CodePoint × Literal) :=
  fields.foldl (fun known field => setField field.1 field.2 known) known

/-- A known key keeps its place, and a new one comes last. -/
theorem keys_setField (key : List CodePoint) (value : Literal) (known : List (List CodePoint × Literal)) :
    (setField key value known).map (·.1) =
      known.map (·.1) ++ if key ∈ known.map (·.1) then [] else [key] := by
  induction known with
  | nil => rfl
  | cons field known ih =>
    obtain ⟨first, old⟩ := field
    rw [setField]
    by_cases heq : first = key
    · -- The key is known here, so nothing comes after the other keys.
      subst heq
      simp
    · have hmem : key ∈ ((first, old) :: known).map (·.1) ↔ key ∈ known.map (·.1) := by
        simp [Ne.symm heq]
      simp only [if_neg heq, List.map_cons, ih, List.cons_append]
      rw [List.map_cons] at hmem
      simp only [hmem]

/-- A field with a new key comes last. -/
theorem setField_of_notMem {key : List CodePoint} {known : List (List CodePoint × Literal)}
    (h : key ∉ known.map (·.1)) (value : Literal) : setField key value known = known ++ [(key, value)] := by
  induction known with
  | nil => rfl
  | cons field known ih =>
    rw [List.map_cons, List.mem_cons, not_or] at h
    rw [setField, if_neg (Ne.symm h.1), ih h.2, List.cons_append]

variable {known fields : List (List CodePoint × Literal)}

/-- A field that is set is one more or takes the place of one. -/
theorem setField_cases (key : List CodePoint) (value : Literal) (known : List (List CodePoint × Literal)) :
    setField key value known = known ++ [(key, value)] ∨ (setField key value known).length = known.length := by
  by_cases hkey : key ∈ known.map (·.1)
  · have hkeys := congrArg List.length (keys_setField key value known)
    rw [if_pos hkey, List.append_nil, List.length_map, List.length_map] at hkeys
    exact .inr hkeys
  · exact .inl (setField_of_notMem hkey value)

/-- Setting a field adds one at most. -/
theorem length_setFields_le (known fields : List (List CodePoint × Literal)) :
    (setFields known fields).length ≤ known.length + fields.length := by
  induction fields generalizing known with
  | nil => exact Nat.le_refl _
  | cons field fields ih =>
    have hone : (setField field.1 field.2 known).length ≤ known.length + 1 := by
      rcases setField_cases field.1 field.2 known with heq | hlength
      · rw [heq]
        exact Nat.le_of_eq List.length_append
      · rw [hlength]
        exact Nat.le_succ _
    have hrest := ih (setField field.1 field.2 known)
    rw [List.length_cons]
    exact Nat.le_trans hrest (by omega)

/-- Fields of which each adds one come after the others in their order. -/
theorem setFields_of_length (h : (setFields known fields).length = known.length + fields.length) :
    setFields known fields = known ++ fields := by
  induction fields generalizing known with
  | nil => exact (List.append_nil known).symm
  | cons field fields ih =>
    have hstep : setFields known (field :: fields) = setFields (setField field.1 field.2 known) fields := rfl
    have hle := length_setFields_le (setField field.1 field.2 known) fields
    rw [hstep, List.length_cons] at h
    rw [hstep]
    rcases setField_cases field.1 field.2 known with heq | hlength
    · rw [heq] at h ⊢
      rw [ih (by rw [h, List.length_append, List.length_singleton]; omega), List.append_assoc, List.singleton_append]
    · -- A field that takes the place of one would leave the record too short.
      rw [hlength] at hle
      omega

/-- Fields with different keys are left as they are when they are set one after the other. -/
theorem setFields_of_nodup (h : ((known ++ fields).map (·.1)).Nodup) : setFields known fields = known ++ fields := by
  induction fields generalizing known with
  | nil => exact (List.append_nil known).symm
  | cons field fields ih =>
    have hstep : setFields known (field :: fields) = setFields (setField field.1 field.2 known) fields := rfl
    have hnew : field.1 ∉ known.map (·.1) := by
      rw [List.map_append, List.nodup_append] at h
      exact fun hmem => h.2.2 field.1 hmem field.1 List.mem_cons_self rfl
    have happend : known ++ field :: fields = (known ++ [field]) ++ fields := by
      rw [List.append_assoc, List.singleton_append]
    rw [hstep, setField_of_notMem hnew, happend]
    exact ih (happend ▸ h)

/-- Fields that are set one after the other make a record with different keys only when they are its fields. -/
theorem setFields_nil_eq_iff {others : List (List CodePoint × Literal)} (hkeys : (fields.map (·.1)).Nodup)
    (hlength : others.length = fields.length) : setFields [] others = fields ↔ others = fields := by
  constructor
  · intro h
    rw [← h]
    exact (setFields_of_length (by rw [h, hlength, List.length_nil, Nat.zero_add])).symm
  · rintro rfl
    exact setFields_of_nodup hkeys

/-! ### Halves -/

mutual

/-- A value whose halves are put together in all strings and keys. Of fields whose keys become the same the last one
counts. -/
def rejoined : Literal → Literal
  | .string points => .string (CodePoint.pair points)
  | .list items => .list (rejoinedItems items)
  | .record fields => .record (setFields [] (rejoinedFields fields))
  | value => value

/-- The items of a list whose halves are put together. -/
def rejoinedItems : List Literal → List Literal
  | [] => []
  | item :: rest => rejoined item :: rejoinedItems rest

/-- The fields of a record whose halves are put together, before any of them counts for another one. -/
def rejoinedFields : List (List CodePoint × Literal) → List (List CodePoint × Literal)
  | [] => []
  | (key, value) :: rest => (CodePoint.pair key, rejoined value) :: rejoinedFields rest

end

/-- There are as many fields as before. -/
theorem length_rejoinedFields (fields : List (List CodePoint × Literal)) :
    (rejoinedFields fields).length = fields.length := by
  induction fields with
  | nil => rfl
  | cons field fields ih => rw [rejoinedFields, List.length_cons, List.length_cons, ih]

/-- Nothing in some strings stands split. -/
def Unsplit (all : List (List CodePoint)) : Prop := ∀ points ∈ all, ¬CodePoint.IsSplit points

/-- The items of a list are the same when each of them is. -/
theorem rejoinedItems_eq_self_iff {items : List Literal}
    (h : ∀ item ∈ items, item.rejoined = item ↔ Unsplit item.strings) :
    rejoinedItems items = items ↔ Unsplit (itemStrings items) := by
  induction items with
  | nil => exact iff_of_true rfl (List.forall_mem_nil _)
  | cons item items ih =>
    obtain ⟨hitem, hitems⟩ := List.forall_mem_cons.1 h
    rw [rejoinedItems, itemStrings, List.cons.injEq, hitem, ih hitems, Unsplit, Unsplit, Unsplit,
      List.forall_mem_append]

/-- The fields of a record are the same when their keys are and each of their values is. -/
theorem rejoinedFields_eq_self_iff
    (h : ∀ field ∈ fields, field.2.rejoined = field.2 ↔ Unsplit field.2.strings) :
    rejoinedFields fields = fields ↔ Unsplit (fieldStrings fields) := by
  induction fields with
  | nil => exact iff_of_true rfl (List.forall_mem_nil _)
  | cons field fields ih =>
    obtain ⟨key, value⟩ := field
    obtain ⟨hvalue, hfields⟩ := List.forall_mem_cons.1 h
    rw [rejoinedFields, fieldStrings, List.cons.injEq, Prod.mk.injEq, CodePoint.pair_eq_self_iff, hvalue, ih hfields,
      Unsplit, Unsplit, Unsplit, List.forall_mem_append, List.forall_mem_cons]

/-- A plain value is the same after its halves were put together exactly when no string and no key in it is split. -/
theorem Plain.rejoined_eq_self_iff {value : Literal} (h : value.Plain) :
    value.rejoined = value ↔ Unsplit value.strings := by
  induction h with
  | null => exact iff_of_true rfl (List.forall_mem_nil _)
  | bool b => exact iff_of_true rfl (List.forall_mem_nil _)
  | int hdigits => exact iff_of_true rfl (List.forall_mem_nil _)
  | string points =>
    rw [rejoined, strings, Unsplit, List.forall_mem_singleton, Literal.string.injEq, CodePoint.pair_eq_self_iff]
  | list hitems ih =>
    rw [rejoined, strings, Literal.list.injEq]
    exact rejoinedItems_eq_self_iff ih
  | record hkeys hvalues ih =>
    rw [rejoined, strings, Literal.record.injEq, setFields_nil_eq_iff hkeys (length_rejoinedFields _)]
    exact rejoinedFields_eq_self_iff ih

end AngularUplift.Literal
