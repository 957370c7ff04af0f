import AngularUplift.Proofs.Text.Reader
import Mathlib.Data.List.Basic
import Mathlib.Order.Bounds.Basic

/-!
# Occurrences of a pattern in a text

Scanning a text for a pattern finds occurrences that stand where they are said to stand: the left context allows
an occurrence there, and the pattern's reader reads it there. The first occurrence is found by passing over a text
in which none begins.

## Main definitions

* `LeftCongruence`: a preorder of texts that a common beginning keeps.
* `Pattern.Absent`: no occurrence begins in a part of a text.
* `Pattern.PiecesAt`: how the pieces of a text lie at a place in it.

## Main statements

* `Pattern.foundAt?_of_mem_occurrences`: an occurrence in a text is an occurrence at its position.
* `Pattern.read_of_mem_occurrences`, `Pattern.read_of_find?`: what stands at the position of an occurrence.
* `Pattern.find?_append`, `Pattern.find?_eq_none`: the first occurrence in a text, and that there is none.
* `Pattern.isLeast_of_find?`: the first occurrence begins where the first one of all begins.
* `Pattern.piecesFrom_append`, `Pattern.piecesFrom_found`: the pieces of a text part by part.
* `Pattern.piecesFrom_of_at?`: an occurrence that the scan has reached is the next piece.
* `Pattern.piecesAt`: at each place of a text either a piece ends or an occurrence goes across.
* `Pattern.mem_occurrences_of_at?`, `Pattern.exists_stop_mem_occurrences`: an occurrence that no earlier one goes on
  into is found, and one that ends where the earlier ones end.
* `Pattern.forall_found_mem_piecesFrom`: what holds of everything that is read holds of the occurrences.
* `Pattern.related_replaceWith`: what an exchange of occurrences keeps of each of them it keeps of the text.
* `lineStart_iff`: the beginning of a line.
-/

namespace AngularUplift

/-- A preorder of texts that a common beginning keeps. -/
structure LeftCongruence (R : Text → Text → Prop) : Prop where
  /-- Every text is related to itself. -/
  refl (text : Text) : R text text
  /-- Related texts may be chained. -/
  trans {first second third : Text} : R first second → R second third → R first third
  /-- Two related texts stay so behind a common beginning. -/
  append (front : Text) {text other : Text} : R text other → R (front ++ text) (front ++ other)

/-- To have the same characters of a class is a relation that a common beginning keeps. -/
theorem leftCongruence_filter (q : Char → Bool) :
    LeftCongruence fun text other => text.filter q = other.filter q where
  refl _ := rfl
  trans := Eq.trans
  append front _ _ h := by rw [List.filter_append, List.filter_append, h]

namespace Pattern

variable {α : Type} {p : Pattern α}

/-- An occurrence ends inside the text. -/
theorem le_length_of_at? {before after : Text} {n : Nat} {value : α}
    (h : p.at? before after = some (n, value)) : n ≤ after.length := by
  rw [at?, Option.ite_none_right_eq_some] at h
  obtain ⟨-, hread⟩ := h
  obtain ⟨⟨found, rest⟩, -, heq⟩ := Option.map_eq_some_iff.1 hread
  simp only [Prod.mk.injEq] at heq
  omega

/-- What begins at the position that the scan has reached. -/
theorem foundAt?_length (before after : Text) :
    p.foundAt? (before.reverse ++ after) before.length =
      (p.at? before after).map fun (n, value) => ⟨before.length, before.length + n, value⟩ := by
  have htake : (before.reverse ++ after).take before.length = before.reverse :=
    List.take_left' (List.length_reverse ..)
  have hdrop : (before.reverse ++ after).drop before.length = after :=
    List.drop_left' (List.length_reverse ..)
  rw [foundAt?, if_neg (by simp), htake, hdrop, List.reverse_reverse]

/-- An occurrence begins at a position when the left context allows it and the reader reads one there. -/
theorem isSome_foundAt?_iff {text : Text} {n : Nat} : (p.foundAt? text n).isSome ↔
    n ≤ text.length ∧ p.left (text.take n).reverse (text.drop n) = true ∧ (p.read (text.drop n)).isSome := by
  rw [foundAt?, at?]
  split
  · next hlength => simp [Nat.not_le.2 hlength]
  · next hlength =>
    split
    · next hleft => simp [Nat.not_lt.1 hlength, hleft]
    · next hleft => simp [hleft]

/-- An occurrence at the position that the scan has reached. -/
theorem foundAt?_append (before after : Text) {n : Nat} {value : α}
    (h : p.at? before after = some (n, value)) :
    p.foundAt? (before.reverse ++ after) before.length =
      some ⟨before.length, before.length + n, value⟩ := by
  rw [foundAt?_length, h]
  rfl

/-- The occurrences that a scan finds from some position on are occurrences at their positions. -/
theorem foundAt?_of_mem_locate {before after : Text} {skip : Nat} {found : Occurrence α}
    (h : found ∈ locate (before.length + skip) (p.piecesFrom before skip after)) :
    p.foundAt? (before.reverse ++ after) found.start = some found := by
  induction after generalizing before skip with
  | nil =>
    cases skip with
    | succ skip => exact absurd h (by simp [piecesFrom, locate])
    | zero =>
      rw [piecesFrom] at h
      split at h
      · next n value hat =>
        have hn : n = 0 := by simpa using le_length_of_at? hat
        subst hn
        obtain rfl := List.mem_singleton.1 h
        exact foundAt?_append before [] hat
      · exact absurd h List.not_mem_nil
  | cons c cs ih =>
    have hwhole : before.reverse ++ c :: cs = (c :: before).reverse ++ cs := by simp
    -- After a plain character the scan goes on with one character more before it.
    have hplain : found ∈ locate before.length (.plain c :: p.piecesFrom (c :: before) 0 cs) →
        p.foundAt? (before.reverse ++ c :: cs) found.start = some found := by
      intro hmem
      have hnext : found ∈ locate ((c :: before).length + 0) (p.piecesFrom (c :: before) 0 cs) := hmem
      rw [hwhole]
      exact ih hnext
    cases skip with
    | succ skip =>
      rw [piecesFrom, Nat.add_comm skip, ← Nat.add_assoc] at h
      rw [hwhole]
      exact ih h
    | zero =>
      rw [piecesFrom.eq_def] at h
      simp only [Nat.add_zero] at h
      split at h
      · exact hplain h
      · next value hat =>
        rcases List.mem_cons.1 h with rfl | hrest
        · exact foundAt?_append before (c :: cs) hat
        · exact hplain hrest
      · next n value hat =>
        have hle := le_length_of_at? hat
        have hlength : (c :: cs.take n).length = n + 1 := by
          simp only [List.length_cons] at hle ⊢
          rw [List.length_take]
          omega
        rw [locate, hlength] at h
        rcases List.mem_cons.1 h with rfl | hrest
        · exact foundAt?_append before (c :: cs) hat
        · rw [Nat.add_comm n, ← Nat.add_assoc] at hrest
          rw [hwhole]
          exact ih hrest

/-- An occurrence in a text is an occurrence at its position. -/
theorem foundAt?_of_mem_occurrences {text : Text} {found : Occurrence α}
    (h : found ∈ p.occurrences text) : p.foundAt? text found.start = some found := by
  have hlocated : found ∈ locate (([] : Text).length + 0) (p.piecesFrom [] 0 text) := h
  exact foundAt?_of_mem_locate hlocated

/-- Where an occurrence begins the left context allows it and the reader of the pattern reads it. -/
theorem read_of_foundAt? {text : Text} {found : Occurrence α} (hfound : p.foundAt? text found.start = some found) :
    found.start ≤ text.length ∧
      p.left (text.take found.start).reverse (text.drop found.start) = true ∧
      ∃ rest, p.read (text.drop found.start) = some (found.value, rest) ∧
        found.stop = found.start + ((text.drop found.start).length - rest.length) := by
  rw [foundAt?, Option.ite_none_left_eq_some] at hfound
  obtain ⟨hstart, hmap⟩ := hfound
  obtain ⟨⟨n, value⟩, hat, heq⟩ := Option.map_eq_some_iff.1 hmap
  rw [at?, Option.ite_none_right_eq_some] at hat
  obtain ⟨hleft, hmap⟩ := hat
  obtain ⟨⟨value, rest⟩, hread, hlength⟩ := Option.map_eq_some_iff.1 hmap
  simp only [Prod.mk.injEq] at hlength
  obtain ⟨rfl, rfl⟩ := hlength
  obtain ⟨start, stop, value⟩ := found
  simp only [Occurrence.mk.injEq, true_and] at heq
  obtain ⟨rfl, rfl⟩ := heq
  exact ⟨Nat.le_of_not_lt hstart, hleft, rest, hread, rfl⟩

/-- At the position of an occurrence the left context allows it and the reader of the pattern reads it. -/
theorem read_of_mem_occurrences {text : Text} {found : Occurrence α}
    (h : found ∈ p.occurrences text) :
    found.start ≤ text.length ∧
      p.left (text.take found.start).reverse (text.drop found.start) = true ∧
      ∃ rest, p.read (text.drop found.start) = some (found.value, rest) ∧
        found.stop = found.start + ((text.drop found.start).length - rest.length) :=
  read_of_foundAt? (foundAt?_of_mem_occurrences h)

/-- An occurrence begins where the left context allows it and the reader takes something. -/
theorem at?_append {before taken rest : Text} {value : α} (hleft : p.left before (taken ++ rest) = true)
    (hread : p.read (taken ++ rest) = some (value, rest)) :
    p.at? before (taken ++ rest) = some (taken.length, value) := by
  rw [at?, if_pos hleft, hread]
  simp

/-- What is read at a position has the length of what the reader leaves out of its rest. -/
theorem read_of_at? {before after : Text} {n : Nat} {value : α} (h : p.at? before after = some (n, value)) :
    ∃ rest, p.read after = some (value, rest) ∧ n = after.length - rest.length := by
  rw [at?, Option.ite_none_right_eq_some] at h
  obtain ⟨-, hmap⟩ := h
  obtain ⟨⟨found, rest⟩, hread, heq⟩ := Option.map_eq_some_iff.1 hmap
  obtain ⟨rfl, rfl⟩ := Prod.mk.inj heq
  exact ⟨rest, hread, rfl⟩

/-- Where a reader leaves the end of a text, it leaves what stands behind the occurrence. -/
theorem read_of_at?_append {before taken rest : Text} {value : α}
    (hends : ∀ {text value after}, p.read text = some (value, after) → after <:+ text)
    (h : p.at? before (taken ++ rest) = some (taken.length, value)) : p.read (taken ++ rest) = some (value, rest) := by
  obtain ⟨after, hread, hlength⟩ := read_of_at? h
  have hsuffix := hends hread
  have hle := hsuffix.length_le
  rw [List.length_append] at hlength hle
  have hsame : after.length = rest.length := by omega
  obtain rfl : after = rest :=
    (List.suffix_of_suffix_length_le hsuffix (List.suffix_append taken rest) hsame.le).eq_of_length hsame
  exact hread

/-! ### The first occurrence -/

/-- No occurrence of a pattern begins in a text that stands between two others, the one before it given nearest
character first. -/
def Absent (p : Pattern α) (after : Text) : (before text : Text) → Prop
  | _, [] => True
  | before, c :: text => p.at? before (c :: (text ++ after)) = none ∧ Absent p after (c :: before) text

/-- No occurrence begins in two texts when none begins in the one and none in the other. -/
theorem absent_append {before text other after : Text} :
    p.Absent after before (text ++ other) ↔
      p.Absent (other ++ after) before text ∧ p.Absent after (text.reverse ++ before) other := by
  induction text generalizing before with
  | nil => simp [Absent]
  | cons c text ih => simp [Absent, ih, and_assoc]

/-- No occurrence begins in a text when none begins at any position of it. -/
theorem absent_of_forall {before text after : Text}
    (h : ∀ front back, text = front ++ back → back ≠ [] → p.at? (front.reverse ++ before) (back ++ after) = none) :
    p.Absent after before text := by
  induction text generalizing before with
  | nil => exact trivial
  | cons c text ih =>
    refine ⟨h [] (c :: text) rfl (List.cons_ne_nil c text), ih fun front back hsplit hne => ?_⟩
    have hnone := h (c :: front) back (by rw [hsplit, List.cons_append]) hne
    rwa [List.reverse_cons, List.append_assoc, List.singleton_append] at hnone

/-- The search for an occurrence passes over a text in which none begins. -/
theorem findFrom_append {before text after : Text} (h : p.Absent after before text) (position : Nat) :
    p.findFrom 0 before position (text ++ after) =
      p.findFrom 0 (text.reverse ++ before) (position + text.length) after := by
  induction text generalizing before position with
  | nil => rfl
  | cons c text ih =>
    obtain ⟨hnone, hrest⟩ := h
    rw [List.cons_append, findFrom, if_neg (Nat.not_lt_zero _), hnone]
    simp only
    rw [ih hrest, List.reverse_cons, List.append_assoc, List.singleton_append, List.length_cons,
      Nat.add_right_comm, Nat.add_assoc]

/-- The first occurrence is the one at the end of a text in which none begins. -/
theorem find?_append {front rest : Text} {n : Nat} {value : α} (habsent : p.Absent rest [] front)
    (hat : p.at? front.reverse rest = some (n, value)) :
    p.find? (front ++ rest) = some ⟨front.length, front.length + n, value⟩ := by
  rw [find?, findFrom_append habsent, Nat.zero_add, List.append_nil]
  cases rest with
  | nil => simp [findFrom, hat]
  | cons c rest => simp [findFrom, hat]

/-- There is no occurrence when none begins in the text or at its end. -/
theorem find?_eq_none {text : Text} (habsent : p.Absent [] [] text) (hat : p.at? text.reverse [] = none) :
    p.find? text = none := by
  have hfind := findFrom_append habsent 0
  rw [List.append_nil, List.append_nil, findFrom, if_neg (Nat.not_lt_zero _), hat] at hfind
  exact hfind

/-- What is found first is an occurrence at its position. -/
theorem foundAt?_of_findFrom {before after : Text} {found : Occurrence α}
    (h : p.findFrom 0 before before.length after = some found) :
    p.foundAt? (before.reverse ++ after) found.start = some found := by
  induction after generalizing before with
  | nil =>
    rw [findFrom, if_neg (Nat.not_lt_zero _)] at h
    obtain ⟨⟨n, value⟩, hat, rfl⟩ := Option.map_eq_some_iff.1 h
    exact foundAt?_append before [] hat
  | cons c cs ih =>
    rw [findFrom, if_neg (Nat.not_lt_zero _)] at h
    split at h
    · next n value hat =>
      obtain rfl := Option.some.inj h
      exact foundAt?_append before (c :: cs) hat
    · have hrest := ih h
      rwa [List.reverse_cons, List.append_assoc, List.singleton_append] at hrest

/-- No occurrence begins before the one that is found first, and none at all when none is found. -/
theorem foundAt?_eq_none_of_findFrom {before after : Text} {n : Nat} (hn : before.length ≤ n)
    (h : ∀ found ∈ p.findFrom 0 before before.length after, n < found.start) :
    p.foundAt? (before.reverse ++ after) n = none := by
  induction after generalizing before with
  | nil =>
    rw [findFrom, if_neg (Nat.not_lt_zero _)] at h
    rcases Nat.eq_or_lt_of_le hn with rfl | hlt
    · rw [foundAt?_length]
      refine Option.eq_none_iff_forall_ne_some.2 fun found hfound => ?_
      obtain ⟨_, -, rfl⟩ := Option.map_eq_some_iff.1 hfound
      exact absurd (h _ hfound) (Nat.lt_irrefl _)
    · rw [foundAt?, if_pos (by simpa using hlt)]
  | cons c cs ih =>
    rw [findFrom, if_neg (Nat.not_lt_zero _)] at h
    split at h
    · exact absurd (h _ rfl) (Nat.not_lt.2 hn)
    · next hat =>
      rcases Nat.eq_or_lt_of_le hn with rfl | hlt
      · rw [foundAt?_length, hat]
        rfl
      · have hrest := @ih (c :: before) hlt h
        rwa [List.reverse_cons, List.append_assoc, List.singleton_append] at hrest

/-- The first occurrence begins where the first one of all begins. -/
theorem isLeast_of_find? {text : Text} {found : Occurrence α} (h : p.find? text = some found) :
    IsLeast {n | (p.foundAt? text n).isSome} found.start := by
  have hfirst : p.findFrom 0 [] ([] : Text).length text = some found := h
  refine ⟨?_, fun n hn => ?_⟩
  · have hfound := foundAt?_of_findFrom hfirst
    rw [List.reverse_nil, List.nil_append] at hfound
    exact Option.isSome_of_eq_some hfound
  · by_contra hlt
    have hnone : p.foundAt? (([] : Text).reverse ++ text) n = none := by
      refine foundAt?_eq_none_of_findFrom (Nat.zero_le n) fun other hother => ?_
      obtain rfl := Option.some.inj (hfirst.symm.trans hother)
      exact Nat.lt_of_not_le hlt
    rw [List.reverse_nil, List.nil_append] at hnone
    exact absurd hn (by simp [hnone])

/-- When none is found, no occurrence begins anywhere. -/
theorem foundAt?_of_find?_eq_none {text : Text} (h : p.find? text = none) (n : Nat) : p.foundAt? text n = none := by
  have hfirst : p.findFrom 0 [] ([] : Text).length text = none := h
  have hnone : p.foundAt? (([] : Text).reverse ++ text) n = none := by
    refine foundAt?_eq_none_of_findFrom (Nat.zero_le n) fun other hother => ?_
    rw [hfirst] at hother
    cases hother
  rwa [List.reverse_nil, List.nil_append] at hnone

/-- Where the first occurrence begins the left context allows it and the reader of the pattern reads it. -/
theorem read_of_find? {text : Text} {found : Occurrence α} (h : p.find? text = some found) :
    found.start ≤ text.length ∧
      p.left (text.take found.start).reverse (text.drop found.start) = true ∧
      ∃ rest, p.read (text.drop found.start) = some (found.value, rest) ∧
        found.stop = found.start + ((text.drop found.start).length - rest.length) := by
  have hfirst : p.findFrom 0 [] ([] : Text).length text = some found := h
  exact read_of_foundAt? (foundAt?_of_findFrom hfirst)

/-- What an occurrence takes ends where the occurrence ends. -/
theorem drop_stop_of_read {text taken rest : Text} {start stop : Nat} (htext : text.drop start = taken ++ rest)
    (hstop : stop = start + ((text.drop start).length - rest.length)) :
    stop = start + taken.length ∧ text.drop stop = rest := by
  rw [htext, List.length_append, Nat.add_sub_cancel] at hstop
  subst hstop
  exact ⟨rfl, by rw [← List.drop_drop, htext, List.drop_left]⟩

/-! ### The pieces of a text -/

/-- The characters of a text in which no occurrence begins are pieces of their own. -/
theorem piecesFrom_append {before text after : Text} (h : p.Absent after before text) :
    p.piecesFrom before 0 (text ++ after) =
      text.map .plain ++ p.piecesFrom (text.reverse ++ before) 0 after := by
  induction text generalizing before with
  | nil => rfl
  | cons c text ih =>
    obtain ⟨hnone, hrest⟩ := h
    rw [List.cons_append, piecesFrom.eq_def]
    simp only [hnone]
    rw [ih hrest, List.reverse_cons, List.append_assoc, List.singleton_append, List.map_cons, List.cons_append]

/-- The characters of an occurrence that was found are passed over. -/
theorem piecesFrom_length (before text after : Text) :
    p.piecesFrom before text.length (text ++ after) = p.piecesFrom (text.reverse ++ before) 0 after := by
  induction text generalizing before with
  | nil => rfl
  | cons c text ih =>
    rw [List.length_cons, List.cons_append, piecesFrom, ih, List.reverse_cons, List.append_assoc,
      List.singleton_append]

/-- An occurrence that is not empty is one piece, and the scan goes on after it. -/
theorem piecesFrom_found {before text after : Text} {value : α} (hne : text ≠ [])
    (h : p.at? before (text ++ after) = some (text.length, value)) :
    p.piecesFrom before 0 (text ++ after) =
      .found text value :: p.piecesFrom (text.reverse ++ before) 0 after := by
  cases text with
  | nil => exact absurd rfl hne
  | cons c text =>
    have htake : (text ++ after).take text.length = text := List.take_left' rfl
    rw [List.length_cons, List.cons_append] at h
    rw [List.cons_append, piecesFrom.eq_def]
    simp only [h]
    rw [htake, piecesFrom_length, List.reverse_cons, List.append_assoc, List.singleton_append]

/-! ### Which occurrences are found -/

/-- The occurrences among pieces begin where the pieces do, or later. -/
theorem le_start_of_mem_locate {pieces : List (Piece α)} {position : Nat} {found : Occurrence α}
    (h : found ∈ locate position pieces) : position ≤ found.start := by
  induction pieces generalizing position with
  | nil => exact absurd h List.not_mem_nil
  | cons piece pieces ih =>
    cases piece with
    | plain c => exact Nat.le_of_succ_le (ih h)
    | found text value =>
      rcases List.mem_cons.1 h with rfl | hrest
      · exact Nat.le_refl _
      · exact Nat.le_trans (Nat.le_add_right ..) (ih hrest)

/-- Each occurrence ends before the next one begins. -/
theorem pairwise_apart (p : Pattern α) (text : Text) :
    (p.occurrences text).Pairwise fun first second => first.start ≤ first.stop ∧ first.stop ≤ second.start := by
  have hlocate : ∀ (pieces : List (Piece α)) (position : Nat), (locate position pieces).Pairwise
      fun first second => first.start ≤ first.stop ∧ first.stop ≤ second.start := by
    intro pieces
    induction pieces with
    | nil => exact fun _ => List.Pairwise.nil
    | cons piece pieces ih =>
      intro position
      cases piece with
      | plain c => exact ih _
      | found text value =>
        refine List.pairwise_cons.2 ⟨fun later hlater => ?_, ih _⟩
        exact ⟨Nat.le_add_right .., le_start_of_mem_locate hlater⟩
  exact hlocate _ 0

/-- Occurrences are found from the left to the right. -/
theorem pairwise_occurrences (p : Pattern α) (text : Text) :
    (p.occurrences text).Pairwise fun first second => first.start ≤ second.start :=
  (pairwise_apart p text).imp fun h => Nat.le_trans h.1 h.2

/-- How pieces of a text lie at a place in it, between what is in front of the place and what is behind it. -/
inductive PiecesAt (p : Pattern α) (before front back : Text) : List (Piece α) → Prop
  /-- A piece ends at the place, and the scan goes on there. -/
  | apart (first : List (Piece α)) :
      PiecesAt p before front back (first ++ p.piecesFrom (front.reverse ++ before) 0 back)
  /-- An occurrence begins in front of the place and goes on behind it. -/
  | across (first : List (Piece α)) {early late inside rest : Text} {value : α} (hfront : front = early ++ late)
      (hlate : late ≠ []) (hback : back = inside ++ rest) (hinside : inside ≠ [])
      (hat : p.at? (early.reverse ++ before) (late ++ back) = some ((late ++ inside).length, value)) :
      PiecesAt p before front back (first ++
        .found (late ++ inside) value :: p.piecesFrom (inside.reverse ++ (front.reverse ++ before)) 0 rest)

/-- What holds behind the first character holds of the whole text. -/
theorem PiecesAt.cons {c : Char} {before front back : Text} {pieces : List (Piece α)} (first : List (Piece α))
    (h : p.PiecesAt (c :: before) front back pieces) : p.PiecesAt before (c :: front) back (first ++ pieces) := by
  have hreverse : front.reverse ++ c :: before = (c :: front).reverse ++ before := by simp
  cases h with
  | apart others =>
    rw [hreverse, ← List.append_assoc]
    exact .apart (first ++ others)
  | @across others early late inside rest value hfront hlate hback hinside hat =>
    have hearly : early.reverse ++ c :: before = (c :: early).reverse ++ before := by simp
    rw [hreverse, ← List.append_assoc]
    rw [hearly] at hat
    exact .across (first ++ others) (by rw [hfront, List.cons_append]) hlate hback hinside hat

/-- At each place of a text either a piece ends or an occurrence goes across. -/
theorem piecesAt {before front : Text} {skip : Nat} (hskip : skip ≤ front.length) (back : Text) :
    p.PiecesAt before front back (p.piecesFrom before skip (front ++ back)) := by
  induction front generalizing before skip with
  | nil =>
    obtain rfl : skip = 0 := Nat.le_zero.1 hskip
    exact .apart []
  | cons c front ih =>
    cases skip with
    | succ skip => exact (ih (Nat.le_of_succ_le_succ hskip)).cons []
    | zero =>
      rw [List.cons_append, piecesFrom.eq_def]
      simp only
      split
      · exact (ih (Nat.zero_le _)).cons [_]
      · exact (ih (Nat.zero_le _)).cons [_, _]
      · next n value hat =>
        by_cases hn : n ≤ front.length
        · exact (ih hn).cons [_]
        · -- The occurrence takes all of the part in front of the place.
          have hle := le_length_of_at? hat
          obtain ⟨m, rfl⟩ := Nat.exists_eq_add_of_le (Nat.le_of_not_le hn)
          simp only [List.length_cons, List.length_append] at hle
          have hlength : (back.take m).length = m := List.length_take_of_le (by omega)
          have hinside : back.take m ≠ [] := List.ne_nil_of_length_pos (by omega)
          have hrest := piecesFrom_length (p := p) (c :: before) (front ++ back.take m) (back.drop m)
          rw [List.append_assoc, List.take_append_drop, List.length_append, hlength] at hrest
          rw [hrest, List.take_length_add_append]
          have hbefore : (front ++ back.take m).reverse ++ c :: before =
              (back.take m).reverse ++ ((c :: front).reverse ++ before) := by simp
          rw [hbefore]
          refine .across [] (List.nil_append (c :: front)).symm (List.cons_ne_nil c front)
            (List.take_append_drop m back).symm hinside ?_
          simp only [List.length_append, List.length_cons, hlength]
          rw [List.cons_append, List.reverse_nil, List.nil_append, hat, Nat.add_right_comm]

/-- The occurrences among pieces part by part. -/
theorem locate_append (position : Nat) (first others : List (Piece α)) :
    locate position (first ++ others) =
      locate position first ++ locate (position + (first.flatMap Piece.source).length) others := by
  induction first generalizing position with
  | nil => rfl
  | cons piece first ih =>
    cases piece with
    | plain c =>
      rw [List.cons_append, locate, ih, locate, List.flatMap_cons, List.length_append, ← Nat.add_assoc]
      rfl
    | found text value =>
      rw [List.cons_append, locate, ih, locate, List.flatMap_cons, List.length_append, ← Nat.add_assoc]
      rfl

/-- An occurrence that the scan has reached is the next piece. -/
theorem piecesFrom_of_at? {before text : Text} {n : Nat} {value : α} (h : p.at? before text = some (n, value)) :
    ∃ source others, p.piecesFrom before 0 text = .found source value :: others ∧ source.length = n := by
  have hle := le_length_of_at? h
  cases text with
  | nil =>
    obtain rfl : n = 0 := Nat.le_zero.1 hle
    exact ⟨[], [], by simp [piecesFrom, h], rfl⟩
  | cons c text =>
    cases n with
    | zero => exact ⟨[], .plain c :: p.piecesFrom (c :: before) 0 text, by simp [piecesFrom, h], rfl⟩
    | succ n =>
      refine ⟨c :: text.take n, p.piecesFrom (c :: before) n text, by simp [piecesFrom, h], ?_⟩
      rw [List.length_cons, List.length_take_of_le (Nat.le_of_succ_le_succ hle)]

/-- An occurrence at a position of a text is found when none that begins before it goes on into it. -/
theorem mem_occurrences_of_at? {front back : Text} {n : Nat} {value : α}
    (hat : p.at? front.reverse back = some (n, value))
    (hapart : ∀ early late, front = early ++ late → late ≠ [] → ∀ m other,
      p.at? early.reverse (late ++ back) = some (m, other) → m ≤ late.length) :
    ⟨front.length, front.length + n, value⟩ ∈ p.occurrences (front ++ back) := by
  have hpieces : p.PiecesAt [] front back (p.pieces (front ++ back)) := piecesAt (Nat.zero_le _) back
  have hsource := p.source_pieces (front ++ back)
  rw [occurrences]
  generalize p.pieces (front ++ back) = pieces at hpieces hsource
  cases hpieces with
  | apart first =>
    rw [List.flatMap_append, source_piecesFrom, List.drop_zero] at hsource
    have hfirst : first.flatMap Piece.source = front := List.append_cancel_right hsource
    obtain ⟨source, others, hnext, rfl⟩ := piecesFrom_of_at? hat
    rw [List.append_nil, hnext, locate_append, hfirst, Nat.zero_add, locate]
    exact List.mem_append_right _ List.mem_cons_self
  | @across first early late inside rest other hfront hlate hback hinside hacross =>
    rw [List.append_nil] at hacross
    have hle := hapart early late hfront hlate _ _ hacross
    have hpos := List.length_pos_of_ne_nil hinside
    rw [List.length_append] at hle
    omega

/-- Where an occurrence can end one ends, when those that begin before it and go on into it end there too. -/
theorem exists_stop_mem_occurrences {front back : Text} {n : Nat} {value : α}
    (hat : p.at? front.reverse back = some (n, value))
    (hacross : ∀ early late, front = early ++ late → late ≠ [] → ∀ m other,
      p.at? early.reverse (late ++ back) = some (m, other) → m ≤ late.length ∨ m = late.length + n) :
    ∃ found ∈ p.occurrences (front ++ back), found.stop = front.length + n := by
  have hpieces : p.PiecesAt [] front back (p.pieces (front ++ back)) := piecesAt (Nat.zero_le _) back
  have hsource := p.source_pieces (front ++ back)
  rw [occurrences]
  generalize p.pieces (front ++ back) = pieces at hpieces hsource
  cases hpieces with
  | apart first =>
    rw [List.flatMap_append, source_piecesFrom, List.drop_zero] at hsource
    have hfirst : first.flatMap Piece.source = front := List.append_cancel_right hsource
    obtain ⟨source, others, hnext, rfl⟩ := piecesFrom_of_at? hat
    rw [List.append_nil, hnext, locate_append, hfirst, Nat.zero_add, locate]
    exact ⟨_, List.mem_append_right _ List.mem_cons_self, rfl⟩
  | @across first early late inside rest other hfront hlate hback hinside hbegins =>
    rw [List.append_nil] at hbegins
    have hpos := List.length_pos_of_ne_nil hinside
    have hstop := hacross early late hfront hlate _ _ hbegins
    rw [List.length_append] at hstop
    have hfirst : first.flatMap Piece.source = early := by
      rw [List.flatMap_append, List.flatMap_cons, source_piecesFrom, List.drop_zero, hfront, hback] at hsource
      simpa [Piece.source] using hsource
    rw [locate_append, hfirst, Nat.zero_add, locate]
    refine ⟨_, List.mem_append_right _ List.mem_cons_self, ?_⟩
    simp only [hfront, List.length_append]
    omega

/-- What was found in a piece is the value of an occurrence. -/
theorem exists_mem_locate {pieces : List (Piece α)} {text : Text} {value : α} (h : .found text value ∈ pieces)
    (position : Nat) : ∃ found ∈ locate position pieces, found.value = value := by
  induction pieces generalizing position with
  | nil => exact absurd h List.not_mem_nil
  | cons piece pieces ih =>
    rcases List.mem_cons.1 h with rfl | hrest
    · exact ⟨_, List.mem_cons_self, rfl⟩
    · cases piece with
      | plain c => exact ih hrest (position + 1)
      | found other _ =>
        obtain ⟨found, hfound, hvalue⟩ := ih hrest (position + other.length)
        exact ⟨found, List.mem_cons_of_mem _ hfound, hvalue⟩

/-- What can be read at a position is the value of an occurrence, when it also is what any occurrence reads that goes
across the position. -/
theorem exists_mem_occurrences {front back : Text} {n : Nat} {value : α}
    (hends : ∀ {text value after}, p.read text = some (value, after) → after <:+ text)
    (hat : p.at? front.reverse back = some (n, value))
    (hacross : ∀ early late inside rest other, front = early ++ late → late ≠ [] → back = inside ++ rest → inside ≠ [] →
      p.read (late ++ inside ++ rest) = some (other, rest) → other = value) :
    ∃ found ∈ p.occurrences (front ++ back), found.value = value := by
  have hpieces : p.PiecesAt [] front back (p.pieces (front ++ back)) := piecesAt (Nat.zero_le _) back
  suffices hmem : ∃ source, .found source value ∈ p.pieces (front ++ back) from
    hmem.elim fun _ hfound => exists_mem_locate hfound 0
  generalize p.pieces (front ++ back) = pieces at hpieces
  cases hpieces with
  | apart first =>
    rw [List.append_nil]
    obtain ⟨source, others, hnext, -⟩ := piecesFrom_of_at? hat
    rw [hnext]
    exact ⟨source, List.mem_append_right first List.mem_cons_self⟩
  | @across first early late inside rest other hfront hlate hback hinside hat =>
    rw [hback, ← List.append_assoc] at hat
    obtain rfl := hacross early late inside rest other hfront hlate hback hinside (read_of_at?_append hends hat)
    exact ⟨_, List.mem_append_right first List.mem_cons_self⟩

/-! ### Exchanged occurrences -/

/-- What holds of everything that the reader takes off a text holds of the occurrences among the pieces. -/
theorem forall_found_mem_piecesFrom {Q : Text → α → Prop}
    (h : ∀ after value rest, p.read after = some (value, rest) → ∃ taken, after = taken ++ rest ∧ Q taken value)
    (before : Text) (skip : Nat) (text : Text) :
    ∀ source value, .found source value ∈ p.piecesFrom before skip text → Q source value := by
  -- An occurrence of some length has taken the characters of that number.
  have htaken : ∀ before after n value, p.at? before after = some (n, value) → Q (after.take n) value := by
    intro before after n value hat
    obtain ⟨rest, hread, rfl⟩ := read_of_at? hat
    obtain ⟨taken, rfl, hQ⟩ := h after value rest hread
    rwa [List.length_append, Nat.add_sub_cancel, List.take_left]
  induction text generalizing before skip with
  | nil =>
    intro source value hmem
    cases skip with
    | succ skip => exact absurd hmem (by simp [piecesFrom])
    | zero =>
      rw [piecesFrom] at hmem
      split at hmem
      · next n other hat =>
        obtain ⟨rfl, rfl⟩ := Piece.found.inj (List.mem_singleton.1 hmem)
        have hQ := htaken _ _ _ _ hat
        rwa [List.take_nil] at hQ
      · exact absurd hmem List.not_mem_nil
  | cons c cs ih =>
    intro source value hmem
    cases skip with
    | succ skip => exact ih _ _ source value hmem
    | zero =>
      rw [piecesFrom.eq_def] at hmem
      simp only at hmem
      split at hmem
      · rcases List.mem_cons.1 hmem with hplain | hrest
        · cases hplain
        · exact ih _ _ source value hrest
      · next other hat =>
        rcases List.mem_cons.1 hmem with hfound | hmem
        · obtain ⟨rfl, rfl⟩ := Piece.found.inj hfound
          exact htaken _ _ _ _ hat
        · rcases List.mem_cons.1 hmem with hplain | hrest
          · cases hplain
          · exact ih _ _ source value hrest
      · next n other hat =>
        rcases List.mem_cons.1 hmem with hfound | hrest
        · obtain ⟨rfl, rfl⟩ := Piece.found.inj hfound
          exact htaken _ _ _ _ hat
        · exact ih _ _ source value hrest

/-- A text in which no occurrence begins stays as it is. -/
theorem flatMap_exchange_append {before text after : Text} (f : Text → α → Text) (h : p.Absent after before text) :
    (p.piecesFrom before 0 (text ++ after)).flatMap (exchange f) =
      text ++ (p.piecesFrom (text.reverse ++ before) 0 after).flatMap (exchange f) := by
  have hplain : (text.map Piece.plain).flatMap (exchange f) = text := by
    rw [List.flatMap_map]
    exact List.flatMap_singleton' text
  rw [piecesFrom_append h, List.flatMap_append, hplain]

/-- When exchanging one occurrence leads to a related text, whatever comes before it, so does exchanging all. -/
theorem related_piecesFrom {R : Text → Text → Prop} (hR : LeftCongruence R) {f : Text → α → Text}
    (h : ∀ after value rest, p.read after = some (value, rest) →
      ∃ taken, after = taken ++ rest ∧ R (f taken value ++ rest) (taken ++ rest)) (before : Text) (skip : Nat)
    (text : Text) : R ((p.piecesFrom before skip text).flatMap (exchange f)) (text.drop skip) := by
  induction text generalizing before skip with
  | nil =>
    cases skip with
    | succ skip => exact hR.refl []
    | zero =>
      rw [piecesFrom]
      split
      · next n value hat =>
        obtain ⟨rest, hread, -⟩ := read_of_at? hat
        obtain ⟨taken, htaken, hrelated⟩ := h [] value rest hread
        obtain ⟨rfl, rfl⟩ := List.append_eq_nil_iff.1 htaken.symm
        exact hrelated
      · exact hR.refl []
  | cons c cs ih =>
    cases skip with
    | succ skip => exact ih (c :: before) skip
    | zero =>
      have hplain : R (c :: (p.piecesFrom (c :: before) 0 cs).flatMap (exchange f)) (c :: cs) :=
        hR.append [c] (ih (c :: before) 0)
      rw [piecesFrom.eq_def]
      simp only
      split
      · exact hplain
      · next value hat =>
        -- Nothing was taken, and the exchange puts its text before the character.
        obtain ⟨rest, hread, hzero⟩ := read_of_at? hat
        obtain ⟨taken, htaken, hrelated⟩ := h (c :: cs) value rest hread
        obtain rfl : taken = [] := by
          rw [htaken, List.length_append, Nat.add_sub_cancel] at hzero
          exact List.length_eq_zero_iff.1 hzero.symm
        rw [List.nil_append] at htaken
        subst htaken
        exact hR.trans (hR.append (f [] value) hplain) hrelated
      · next n value hat =>
        obtain ⟨rest, hread, hlength⟩ := read_of_at? hat
        obtain ⟨taken, htaken, hrelated⟩ := h (c :: cs) value rest hread
        rw [htaken, List.length_append, Nat.add_sub_cancel] at hlength
        obtain ⟨htake, hdrop⟩ : c :: cs.take n = taken ∧ cs.drop n = rest := by
          have hsplit : (c :: cs).take (n + 1) = taken ∧ (c :: cs).drop (n + 1) = rest := by
            rw [htaken]
            exact ⟨List.take_left' hlength.symm, List.drop_left' hlength.symm⟩
          exact hsplit
        have hrest := ih (c :: before) n
        rw [hdrop] at hrest
        rw [htake, List.drop_zero, htaken]
        exact hR.trans (hR.append (f taken value) hrest) hrelated

/-- When exchanging one occurrence leads to a related text, so does exchanging all of them. -/
theorem related_replaceWith {R : Text → Text → Prop} (hR : LeftCongruence R) {f : Text → α → Text}
    (h : ∀ after value rest, p.read after = some (value, rest) →
      ∃ taken, after = taken ++ rest ∧ R (f taken value ++ rest) (taken ++ rest)) (text : Text) :
    R (p.replaceWith f text) text :=
  related_piecesFrom hR h [] 0 text

/-- When the text that takes the place of an occurrence has the same characters of a class as the occurrence, so has
the whole text. -/
theorem filter_replaceWith {f : Text → α → Text} {q : Char → Bool}
    (h : ∀ after value rest, p.read after = some (value, rest) →
      ∃ taken, after = taken ++ rest ∧ (f taken value).filter q = taken.filter q) (text : Text) :
    (p.replaceWith f text).filter q = text.filter q := by
  refine related_replaceWith (leftCongruence_filter q) (fun after value rest hread => ?_) text
  obtain ⟨taken, htaken, hkept⟩ := h after value rest hread
  exact ⟨taken, htaken, by rw [List.filter_append, List.filter_append, hkept]⟩

end Pattern

/-- The beginning of a line: the beginning of the text, or the position after a line break. -/
theorem lineStart_iff {text : Text} {position : Nat} (h : position ≤ text.length) :
    lineStart (text.take position).reverse (text.drop position) = true ↔
      position = 0 ∨ text[position - 1]? = some '\n' := by
  rw [lineStart, List.head?_reverse, List.getLast?_take]
  cases position with
  | zero => simp
  | succ position =>
    have hsome : text[position]? = some text[position] := List.getElem?_eq_getElem h
    simp [hsome]

end AngularUplift
