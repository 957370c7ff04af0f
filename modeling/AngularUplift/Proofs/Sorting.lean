/-!
# Stable sorting

Sources are sorted by the rank of their kind, and the nodes of a suite by their places. Elements that such a sort does
not tell apart stay in the order that they were in.

## Main statements

* `key_le_trans`, `key_le_total`: the comparison of keys is one by which a list can be sorted.
* `filter_mergeSort`: sorting keeps the order of elements that are not told apart.
-/

namespace AngularUplift

variable {α κ : Type}

/-- Keys are compared transitively. -/
theorem key_le_trans [LE κ] [DecidableLE κ] [Std.IsLinearPreorder κ] (key : α → κ) (a b c : α)
    (hab : decide (key a ≤ key b) = true) (hbc : decide (key b ≤ key c) = true) : decide (key a ≤ key c) = true :=
  decide_eq_true (Std.le_trans (of_decide_eq_true hab) (of_decide_eq_true hbc))

/-- Of two keys one is at most the other. -/
theorem key_le_total [LE κ] [DecidableLE κ] [Std.IsLinearPreorder κ] (key : α → κ) (a b : α) :
    (decide (key a ≤ key b) || decide (key b ≤ key a)) = true := by
  rcases Std.le_total (a := key a) (b := key b) with h | h
  · simp [h]
  · simp [h]

/-- Sorting keeps the order of the elements of a class when it tells none of them apart. -/
theorem filter_mergeSort {le : α → α → Bool} (htrans : ∀ a b c, le a b → le b c → le a c)
    (htotal : ∀ a b, le a b || le b a) {p : α → Bool} (hp : ∀ a b, p a → p b → le a b) (xs : List α) :
    (xs.mergeSort le).filter p = xs.filter p := by
  -- A stable sort keeps every sorted sublist, and it neither adds nor drops an element.
  have hsorted : (xs.filter p).Pairwise fun a b => le a b :=
    List.pairwise_of_forall_mem_list fun a ha b hb => hp a b (List.mem_filter.1 ha).2 (List.mem_filter.1 hb).2
  have hkept := (List.sublist_mergeSort htrans htotal hsorted List.filter_sublist).filter p
  rw [List.filter_filter, List.filter_congr fun _ _ => Bool.and_self _] at hkept
  exact (hkept.eq_of_length ((List.mergeSort_perm xs le).filter p).length_eq.symm).symm

end AngularUplift
