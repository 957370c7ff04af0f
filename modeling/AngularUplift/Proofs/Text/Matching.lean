import AngularUplift.Proofs.Text.Delimiter
import Mathlib.Order.Bounds.Basic

/-!
# Matched delimiters

The height of a text at a position is the number of delimiters of one kind that are open there: those that were
opened before it less those that were closed. A delimiter is closed by the first position after which the height is
back to what it was before the delimiter. Everything about matched pairs follows from that, without looking at the
scan again: pairs are nested or apart, and a text between a pair has the pairs of its own that the whole text has.

## Main definitions

* `Delimiter.height`: how many delimiters of a kind are open at a position.
* `Delimiter.Closes`: the close of a delimiter in terms of heights.
* `Delimiter.OpensAt`, `Delimiter.evenStops`: the positions of opening delimiters, and the positions up to which as
  many were opened as closed.

## Main statements

* `Delimiter.close_eq_ok_iff`: the scan finds exactly the position that closes a delimiter.
* `Delimiter.close_exact`: what the close of a delimiter, the text that it encloses and the next pair are.
* `Delimiter.close_laminar`: matched pairs are nested or apart, and what they enclose is matched in itself.
-/

namespace AngularUplift

namespace Text

variable {text : Text} {c : Char}

/-- The characters of a slice. -/
theorem getElem?_slice {start stop n : Nat} (h : start + n < stop) :
    (text.slice start stop)[n]? = text[start + n]? := by
  rw [slice, List.getElem?_drop, List.getElem?_take_of_lt h]

theorem indexOf?_singleton_eq_none (h : indexOf? [c] text = none) : c ∉ text := by
  induction text with
  | nil => exact List.not_mem_nil
  | cons first text ih =>
    rw [indexOf?] at h
    by_cases hstart : startsWith (first :: text) [c] = true
    · rw [if_pos hstart] at h
      exact absurd h (Option.some_ne_none 0)
    · rw [if_neg hstart, Option.map_eq_none_iff] at h
      have hne : c ≠ first := by simpa [startsWith] using hstart
      exact List.not_mem_cons_of_ne_of_not_mem hne (ih h)

/-- The search for a character fails when it does not stand at or after the position. -/
theorem indexFrom?_singleton_eq_none {position : Nat} (h : text.indexFrom? [c] position = none) :
    ∀ p, position ≤ p → text[p]? ≠ some c := by
  intro p hle hfound
  have hlength : ¬text.length < position := by
    have hlt := (List.getElem?_eq_some_iff.1 hfound).1
    omega
  rw [indexFrom?, if_neg hlength, Option.map_eq_none_iff] at h
  apply indexOf?_singleton_eq_none h
  rw [← Nat.add_sub_cancel' hle, ← List.getElem?_drop] at hfound
  exact List.mem_of_getElem? hfound

/-- The search for a character finds the first one at or after the position. -/
theorem indexFrom?_singleton_isLeast {position p : Nat} (h : text.indexFrom? [c] position = some p) :
    IsLeast {p | position ≤ p ∧ text[p]? = some c} p := by
  obtain ⟨hle, hfound, hnone⟩ := indexFrom?_singleton_eq_some h
  refine ⟨⟨hle, hfound⟩, ?_⟩
  rintro other ⟨hother, hc⟩
  by_contra! hlt
  apply hnone
  have hplace : position + (other - position) = other := Nat.add_sub_cancel' hother
  have hslice : (text.slice position p)[other - position]? = some c := by
    rw [getElem?_slice (by omega), hplace]
    exact hc
  exact List.mem_of_getElem? hslice

end Text

namespace Delimiter

variable {d : Delimiter} {text : Text}

/-! ### Heights -/

/-- The number of delimiters that are open at a position; negative where more were closed than opened. -/
def height (d : Delimiter) (text : Text) (position : Nat) : Int :=
  (text.take position).count d.opening - (text.take position).count d.closing

@[simp]
theorem height_zero (d : Delimiter) (text : Text) : d.height text 0 = 0 := by
  simp [height]

/-- The height after two stretches is the sum of what they open and close. -/
theorem height_add (d : Delimiter) (text : Text) (first second : Nat) :
    d.height text (first + second) = d.height text first + d.height (text.drop first) second := by
  simp only [height, List.take_add, List.count_append, Int.natCast_add]
  omega

theorem height_one (d : Delimiter) (c : Char) (text : Text) :
    d.height (c :: text) 1 = if c = d.opening then 1 else if c = d.closing then -1 else 0 := by
  have hne := d.opening_ne_closing
  by_cases hopening : c = d.opening
  · subst hopening
    simp [height, hne]
  · by_cases hclosing : c = d.closing
    · subst hclosing
      simp [height, hne.symm]
    · simp [height, hopening, hclosing]

theorem height_cons (d : Delimiter) (c : Char) (text : Text) (n : Nat) :
    d.height (c :: text) (n + 1) = d.height (c :: text) 1 + d.height text n := by
  rw [Nat.add_comm, height_add, List.drop_succ_cons, List.drop_zero]

theorem height_succ {c : Char} {n : Nat} (h : text[n]? = some c) :
    d.height text (n + 1) = d.height text n + if c = d.opening then 1 else if c = d.closing then -1 else 0 := by
  obtain ⟨hlt, rfl⟩ := List.getElem?_eq_some_iff.1 h
  rw [height_add, List.drop_eq_getElem_cons hlt, height_one]

theorem height_succ_opening {n : Nat} (h : text[n]? = some d.opening) :
    d.height text (n + 1) = d.height text n + 1 := by
  rw [height_succ h, if_pos rfl]

theorem height_succ_closing {n : Nat} (h : text[n]? = some d.closing) :
    d.height text (n + 1) = d.height text n - 1 := by
  rw [height_succ h, if_neg d.opening_ne_closing.symm, if_pos rfl]
  rfl

/-- Heights in the beginning of a text. -/
theorem height_take (d : Delimiter) (text : Text) {n limit : Nat} (h : n ≤ limit) :
    d.height (text.take limit) n = d.height text n := by
  rw [height, height, List.take_take, Nat.min_eq_left h]

/-- Heights in a slice, seen from the whole text. -/
theorem height_slice (d : Delimiter) (text : Text) {start stop n : Nat} (h : start + n ≤ stop) :
    d.height text (start + n) = d.height text start + d.height (text.slice start stop) n := by
  rw [height_add, Text.slice, List.drop_take, height_take d _ (Nat.le_sub_of_add_le' h)]

/-- What a slice opens and closes is the difference of the heights at its ends. -/
theorem count_slice_eq (d : Delimiter) (text : Text) {start stop : Nat} (h : start ≤ stop) :
    ((text.slice start stop).count d.opening : Int) - (text.slice start stop).count d.closing =
      d.height text stop - d.height text start := by
  have hsplit : text.take stop = text.take start ++ text.slice start stop := by
    have htake : text.take start = (text.take stop).take start := by
      rw [List.take_take, Nat.min_eq_left h]
    rw [htake, Text.slice, List.take_append_drop]
  simp only [height, hsplit, List.count_append, Int.natCast_add]
  omega

theorem Balanced.height_nonneg (h : d.Balanced text) (n : Nat) : 0 ≤ d.height text n := by
  have hnested := h.nested (text.take n) (List.take_prefix n text)
  rw [height]
  omega

theorem Balanced.height_length (h : d.Balanced text) : d.height text text.length = 0 := by
  have hclosed := h.closed
  rw [height, List.take_length]
  omega

/-! ### The scan -/

/-- A scan that finds no close stays above the ground at every position. -/
theorem height_pos_of_closeFrom_eq_none {depth : Nat} (hdepth : 0 < depth)
    (h : d.closeFrom depth text = none) (n : Nat) : 0 < depth + d.height text n := by
  induction text generalizing depth n with
  | nil => simpa [height] using hdepth
  | cons c text ih =>
    cases n with
    | zero => simpa using hdepth
    | succ n =>
      rw [height_cons, height_one]
      rw [closeFrom] at h
      -- In each case the rest of the scan goes on at the height after the first character.
      by_cases hopening : c = d.opening
      · rw [if_pos hopening, Option.map_eq_none_iff] at h
        have hrest := ih (Nat.succ_pos depth) h n
        rw [if_pos hopening]
        omega
      · rw [if_neg hopening] at h
        rw [if_neg hopening]
        by_cases hclosing : c = d.closing
        · rw [if_pos hclosing] at h
          by_cases hlast : depth ≤ 1
          · rw [if_pos hlast] at h
            exact absurd h (Option.some_ne_none 0)
          · rw [if_neg hlast, Option.map_eq_none_iff] at h
            have hrest := ih (by omega) h n
            rw [if_pos hclosing]
            omega
        · rw [if_neg hclosing, Option.map_eq_none_iff] at h
          have hrest := ih hdepth h n
          rw [if_neg hclosing]
          omega

/-- The position `stop` closes the delimiter that opens at `start`: it is the first one after which the height is
back to what it was. -/
structure Closes (d : Delimiter) (text : Text) (start stop : Nat) : Prop where
  /-- A delimiter opens at the start. -/
  opening : text[start]? = some d.opening
  /-- The stop comes after it. -/
  lt : start < stop
  /-- The stop is a closing delimiter. -/
  closing : text[stop]? = some d.closing
  /-- What the start opened is closed after the stop. -/
  level : d.height text (stop + 1) = d.height text start
  /-- It is open up to the stop. -/
  above : ∀ position, start < position → position ≤ stop → d.height text start < d.height text position

namespace Closes

variable {start stop : Nat}

theorem lt_length (h : d.Closes text start stop) : stop < text.length :=
  (List.getElem?_eq_some_iff.1 h.closing).1

/-- A delimiter has one close. -/
theorem unique (h : d.Closes text start stop) {other : Nat} (hother : d.Closes text start other) :
    stop = other := by
  -- Of two different ones, the first would lie where the height of the second is still above the ground.
  rcases Nat.lt_trichotomy stop other with hlt | heq | hgt
  · have habove := hother.above (stop + 1) (Nat.lt_succ_of_lt h.lt) hlt
    rw [h.level] at habove
    exact absurd habove (lt_irrefl _)
  · exact heq
  · have habove := h.above (other + 1) (Nat.lt_succ_of_lt hother.lt) hgt
    rw [hother.level] at habove
    exact absurd habove (lt_irrefl _)

end Closes

/-- A delimiter that the scan finds no close for is open at all later positions. -/
theorem height_lt_of_close_eq_error {start : Nat} {fault : Fault} (hopening : text[start]? = some d.opening)
    (h : d.close text start = .error fault) {position : Nat} (hlt : start < position) :
    d.height text start < d.height text position := by
  obtain ⟨n, rfl⟩ := Nat.exists_eq_add_of_le (Nat.succ_le_of_lt hlt)
  rw [close, Int.toNat_natCast, if_pos ⟨Int.natCast_nonneg start, hopening⟩] at h
  split at h
  · cases h
  · next hscan =>
    have hpos := height_pos_of_closeFrom_eq_none Nat.one_pos hscan n
    rw [Nat.succ_eq_add_one, height_add, height_succ_opening hopening]
    omega

/-- The scan finds exactly the position that closes a delimiter. -/
theorem close_eq_ok_iff {start stop : Nat} : d.close text start = .ok stop ↔ d.Closes text start stop := by
  have hsound : ∀ {stop}, d.close text start = .ok stop → d.Closes text start stop := by
    intro stop h
    obtain ⟨hopening, hlt, hclosing, hbalanced⟩ := close_eq_ok h
    have hinside : ∀ position, start < position → position ≤ stop →
        d.height text position =
          d.height text start + 1 + d.height (text.slice (start + 1) stop) (position - (start + 1)) := by
      intro position hstart hstop
      rw [← height_succ_opening hopening, ← height_slice d text (by omega), Nat.add_sub_cancel' hstart]
    refine ⟨hopening, hlt, hclosing, ?_, ?_⟩
    · have hstop := (List.getElem?_eq_some_iff.1 hclosing).1
      have hlevel := hbalanced.height_length
      rw [Text.length_slice hstop.le] at hlevel
      rw [height_succ_closing hclosing, hinside stop hlt le_rfl, hlevel]
      omega
    · intro position hstart hstop
      have hnonneg := hbalanced.height_nonneg (position - (start + 1))
      rw [hinside position hstart hstop]
      omega
  constructor
  · exact hsound
  · intro h
    cases hclose : d.close text start with
    | ok found => rw [(hsound hclose).unique h]
    | error fault =>
      have hlt := height_lt_of_close_eq_error h.opening hclose (Nat.lt_succ_of_lt h.lt)
      rw [h.level] at hlt
      exact absurd hlt (lt_irrefl _)

/-- A position that the scan closes is a position in the text. -/
theorem exists_closes {start : Int} {stop : Nat} (h : d.close text start = .ok stop) :
    ∃ n : Nat, start = n ∧ d.Closes text n stop := by
  have hnonneg : 0 ≤ start := by
    by_contra hneg
    rw [close, if_neg fun hopen => hneg hopen.1] at h
    cases h
  obtain ⟨n, rfl⟩ := Int.eq_ofNat_of_zero_le hnonneg
  exact ⟨n, rfl, close_eq_ok_iff.1 h⟩

/-- The scan blames the position and the delimiter that it was given. -/
theorem close_eq_error {start : Int} {fault : Fault} (h : d.close text start = .error fault) :
    fault = .unbalanced d.opening start := by
  rw [close] at h
  split at h
  · split at h
    · cases h
    · exact (Except.error.inj h).symm
  · exact (Except.error.inj h).symm

theorem enclosed_eq (d : Delimiter) (text : Text) (start : Int) :
    d.enclosed text start = (d.close text start).map (text.slice (start.toNat + 1)) := by
  rw [enclosed]
  cases d.close text start <;> rfl

/-! ### Even stretches -/

/-- An opening delimiter stands at a position of the text. -/
def OpensAt (d : Delimiter) (text : Text) (start : Int) : Prop :=
  0 ≤ start ∧ start < text.length ∧ text[start.toNat]? = some d.opening

/-- The positions from `start` on up to which, inclusive, as many delimiters are opened as closed. -/
def evenStops (d : Delimiter) (text : Text) (start : Nat) : Set Nat :=
  {stop | start ≤ stop ∧ stop < text.length ∧
    (text.slice start (stop + 1)).count d.opening = (text.slice start (stop + 1)).count d.closing}

theorem height_of_mem_evenStops {start stop : Nat} (h : stop ∈ d.evenStops text start) :
    d.height text (stop + 1) = d.height text start := by
  obtain ⟨hle, -, heven⟩ := h
  have hcount := count_slice_eq d text (Nat.le_succ_of_le hle)
  rw [Nat.succ_eq_add_one, heven] at hcount
  omega

/-- The close of a delimiter ends the shortest even stretch. -/
theorem Closes.isLeast {start stop : Nat} (h : d.Closes text start stop) :
    IsLeast (d.evenStops text start) stop := by
  constructor
  · refine ⟨h.lt.le, h.lt_length, ?_⟩
    have hcount := count_slice_eq d text (Nat.le_succ_of_le h.lt.le)
    rw [Nat.succ_eq_add_one, h.level] at hcount
    omega
  · intro other hother
    by_contra! hlt
    have habove := h.above (other + 1) (Nat.lt_succ_of_le hother.1) hlt
    rw [height_of_mem_evenStops hother] at habove
    exact absurd habove (lt_irrefl _)

/-- Where there is an even stretch after an opening delimiter, the delimiter is closed. -/
theorem exists_closes_of_mem_evenStops {start stop : Nat} (hopening : text[start]? = some d.opening)
    (h : stop ∈ d.evenStops text start) : ∃ close, d.Closes text start close := by
  cases hclose : d.close text start with
  | ok found => exact ⟨found, close_eq_ok_iff.1 hclose⟩
  | error fault =>
    have hlt := height_lt_of_close_eq_error hopening hclose (Nat.lt_succ_of_le h.1)
    rw [height_of_mem_evenStops h] at hlt
    exact absurd hlt (lt_irrefl _)

/-- The close of a delimiter is the end of the shortest even stretch that begins with it. -/
theorem close_eq_ok_iff_isLeast {start : Int} {stop : Nat} :
    d.close text start = .ok stop ↔
      d.OpensAt text start ∧ IsLeast (d.evenStops text start.toNat) stop := by
  constructor
  · intro h
    obtain ⟨n, rfl, hcloses⟩ := exists_closes h
    have hlt := hcloses.lt_length
    have hstart := hcloses.lt
    exact ⟨⟨Int.natCast_nonneg n, by omega, hcloses.opening⟩, hcloses.isLeast⟩
  · rintro ⟨⟨hnonneg, -, hopening⟩, hleast⟩
    obtain ⟨n, rfl⟩ := Int.eq_ofNat_of_zero_le hnonneg
    rw [Int.toNat_natCast] at hopening hleast
    obtain ⟨found, hfound⟩ := exists_closes_of_mem_evenStops hopening hleast.1
    rw [hleast.unique hfound.isLeast]
    exact close_eq_ok_iff.2 hfound

theorem close_eq_error_iff {start : Int} :
    d.close text start = .error (.unbalanced d.opening start) ↔
      ¬(d.OpensAt text start ∧ (d.evenStops text start.toNat).Nonempty) := by
  constructor
  · rintro h ⟨⟨hnonneg, -, hopening⟩, stop, hstop⟩
    obtain ⟨n, rfl⟩ := Int.eq_ofNat_of_zero_le hnonneg
    rw [Int.toNat_natCast] at hopening hstop
    obtain ⟨found, hfound⟩ := exists_closes_of_mem_evenStops hopening hstop
    rw [close_eq_ok_iff.2 hfound] at h
    exact nomatch h
  · intro h
    cases hclose : d.close text start with
    | ok stop =>
      obtain ⟨hopens, hleast⟩ := close_eq_ok_iff_isLeast.1 hclose
      exact absurd ⟨hopens, stop, hleast.1⟩ h
    | error fault => rw [close_eq_error hclose]

/-- Up to its close a delimiter is open: more is opened than closed. -/
theorem Closes.count_lt {start stop : Nat} (h : d.Closes text start stop) {position : Nat}
    (hstart : start ≤ position) (hstop : position < stop) :
    (text.slice start (position + 1)).count d.closing < (text.slice start (position + 1)).count d.opening := by
  have habove := h.above (position + 1) (Nat.lt_succ_of_le hstart) hstop
  have hcount := count_slice_eq d text (Nat.le_succ_of_le hstart)
  rw [Nat.succ_eq_add_one] at hcount
  omega

theorem ofOpening?_opening (d : Delimiter) : ofOpening? [d.opening] = .ok d := by
  cases d <;> rfl

/-- The next pair begins with the first opening delimiter at or after a position. -/
theorem next_eq_of_isLeast {position p : Nat}
    (h : IsLeast {p | position ≤ p ∧ text[p]? = some d.opening} p) :
    next [d.opening] text position = (d.close text p).map fun stop => some (p, stop) := by
  have hposition : ¬(position : Int) < 0 := by omega
  rw [next, if_neg hposition, Int.toNat_natCast]
  cases hindex : text.indexFrom? [d.opening] position with
  | none => exact absurd h.1.2 (Text.indexFrom?_singleton_eq_none hindex p h.1.1)
  | some found =>
    obtain rfl := (Text.indexFrom?_singleton_isLeast hindex).unique h
    change (do let d ← ofOpening? [d.opening]; let stop ← d.close text found; return some (found, stop)) = _
    rw [ofOpening?_opening]
    change (do let stop ← d.close text found; return some (found, stop)) = _
    cases d.close text found <;> rfl

theorem next_eq_none_iff {position : Nat} :
    next [d.opening] text position = .ok none ↔ ∀ p, position ≤ p → text[p]? ≠ some d.opening := by
  have hposition : ¬(position : Int) < 0 := by omega
  cases hindex : text.indexFrom? [d.opening] position with
  | none =>
    have hnone : next [d.opening] text position = .ok none := by
      rw [next, if_neg hposition, Int.toNat_natCast, hindex]
    exact ⟨fun _ => Text.indexFrom?_singleton_eq_none hindex, fun _ => hnone⟩
  | some found =>
    have hleast := Text.indexFrom?_singleton_isLeast hindex
    rw [next_eq_of_isLeast hleast]
    constructor
    · intro h
      cases hclose : d.close text found with
      | ok stop => simp [hclose, Except.map] at h
      | error fault => simp [hclose, Except.map] at h
    · intro h
      exact absurd hleast.1.2 (h found hleast.1.1)

/-- What the close of a delimiter is, for every text and position. It is the end of the shortest stretch from the
position on that opens as much as it closes, and every shorter stretch opens more; without one, and where no
delimiter opens, the fault names the position and the delimiter. The enclosed text stands between the two, and the
next pair is that of the first opening delimiter from a position on, if there is one. -/
theorem close_exact (d : Delimiter) (text : Text) (start : Int) :
    (∀ stop, d.close text start = .ok stop ↔
      d.OpensAt text start ∧ IsLeast (d.evenStops text start.toNat) stop) ∧
    (∀ stop, d.close text start = .ok stop → ∀ position : Nat, start ≤ position → position < stop →
      (text.slice start.toNat (position + 1)).count d.closing <
        (text.slice start.toNat (position + 1)).count d.opening) ∧
    (d.close text start = .error (.unbalanced d.opening start) ↔
      ¬(d.OpensAt text start ∧ (d.evenStops text start.toNat).Nonempty)) ∧
    (∀ stop, d.close text start = .ok stop →
      d.enclosed text start = .ok (text.slice (start.toNat + 1) stop)) ∧
    (∀ fault, d.close text start = .error fault → d.enclosed text start = .error fault) ∧
    ∀ position : Nat,
      (next [d.opening] text position = .ok none ↔ ∀ p, position ≤ p → text[p]? ≠ some d.opening) ∧
      ∀ p, IsLeast {p | position ≤ p ∧ text[p]? = some d.opening} p →
        next [d.opening] text position = (d.close text p).map fun stop => some (p, stop) := by
  refine ⟨fun stop => close_eq_ok_iff_isLeast, ?_, close_eq_error_iff, ?_, ?_, ?_⟩
  · intro stop h position hstart hstop
    obtain ⟨n, rfl, hcloses⟩ := exists_closes h
    exact hcloses.count_lt (by omega) hstop
  · intro stop h
    rw [enclosed_eq, h]
    rfl
  · intro fault h
    rw [enclosed_eq, h]
    rfl
  · intro position
    exact ⟨next_eq_none_iff, fun p hleast => next_eq_of_isLeast hleast⟩

/-- The outer and the inner pair of a call in a call. -/
theorem close_exact_call :
    paren.close (txt "f(a(b))") 1 = .ok 6 ∧ paren.enclosed (txt "f(a(b))") 1 = .ok (txt "a(b)") ∧
      next ['('] (txt "f(a(b))") 2 = .ok (some (3, 5)) := by
  obtain ⟨-, -, -, henclosed, -, hnext⟩ := close_exact paren (txt "f(a(b))") 1
  have hclose : paren.close (txt "f(a(b))") 1 = .ok 6 := by decide
  have hfirst : IsLeast {p | 2 ≤ p ∧ (txt "f(a(b))")[p]? = some '('} 3 := by
    refine ⟨by decide, ?_⟩
    rintro p ⟨hle, hopening⟩
    by_contra! hlt
    obtain rfl : p = 2 := by omega
    exact absurd hopening (by decide)
  exact ⟨hclose, henclosed 6 hclose, ((hnext 2).2 3 hfirst).trans (by decide)⟩

/-! ### Pairs and the texts between them -/

/-- A delimiter that opens inside a pair is closed inside it. -/
theorem Closes.exists_inner {start stop : Nat} (h : d.Closes text start stop) {inner : Nat}
    (hstart : start < inner) (hstop : inner < stop) (hopening : text[inner]? = some d.opening) :
    ∃ close, d.Closes text inner close ∧ close < stop := by
  -- The pair is still open at the inner delimiter, so the height falls below that one when the pair is closed.
  have habove := h.above inner hstart hstop.le
  have hlevel := h.level
  cases hclose : d.close text inner with
  | error fault =>
    have hlt := height_lt_of_close_eq_error hopening hclose (Nat.lt_succ_of_lt hstop)
    rw [Nat.succ_eq_add_one] at hlt
    omega
  | ok close =>
    have hcloses := close_eq_ok_iff.1 hclose
    refine ⟨close, hcloses, ?_⟩
    by_contra! hle
    rcases hle.lt_or_eq with hlt | rfl
    · have hopen := hcloses.above (stop + 1) (Nat.lt_succ_of_lt hstop) hlt
      omega
    · have hinner := hcloses.level
      omega

/-- Of two pairs, the one that opens later opens after the other one is closed, or is closed before it. -/
theorem Closes.apart_or_nested {start stop inner close : Nat} (h : d.Closes text start stop)
    (hinner : d.Closes text inner close) (hlt : start < inner) : stop < inner ∨ close < stop := by
  rcases Nat.lt_trichotomy stop inner with hapart | rfl | hinside
  · exact Or.inl hapart
  · -- One character would both open and close.
    have hsame := h.closing.symm.trans hinner.opening
    exact absurd (Option.some.inj hsame).symm d.opening_ne_closing
  · obtain ⟨found, hfound, hbefore⟩ := h.exists_inner hlt hinside hinner.opening
    rw [hinner.unique hfound]
    exact Or.inr hbefore

/-- A slice has the pairs that the text has in its place. -/
theorem closes_slice_iff {base limit start stop : Nat} (hstop : base + stop < limit) :
    d.Closes (text.slice base limit) start stop ↔ d.Closes text (base + start) (base + stop) := by
  have hheight : ∀ n, n ≤ stop + 1 →
      d.height text (base + n) = d.height text base + d.height (text.slice base limit) n :=
    fun n hn => height_slice d text (by omega)
  have hclosing : (text.slice base limit)[stop]? = text[base + stop]? := Text.getElem?_slice hstop
  constructor
  · intro h
    have hlt := h.lt
    refine ⟨?_, by omega, hclosing ▸ h.closing, ?_, ?_⟩
    · rw [← Text.getElem?_slice (by omega : base + start < limit)]
      exact h.opening
    · rw [Nat.add_assoc, hheight (stop + 1) le_rfl, hheight start (by omega), h.level]
    · intro position hstart hposition
      obtain ⟨n, rfl⟩ := Nat.exists_eq_add_of_le (show base ≤ position by omega)
      have habove := h.above n (by omega) (by omega)
      rw [hheight n (by omega), hheight start (by omega)]
      omega
  · intro h
    have hlt := h.lt
    refine ⟨?_, by omega, hclosing.trans h.closing, ?_, ?_⟩
    · rw [Text.getElem?_slice (by omega : base + start < limit)]
      exact h.opening
    · have hlevel := h.level
      rw [Nat.add_assoc, hheight (stop + 1) le_rfl, hheight start (by omega)] at hlevel
      omega
    · intro position hstart hposition
      have habove := h.above (base + position) (by omega) (by omega)
      rw [hheight position (by omega), hheight start (by omega)] at habove
      omega

/-- The pairs inside the text that a pair encloses are the pairs of the whole text there. -/
theorem Closes.close_slice_iff {start stop : Nat} (h : d.Closes text start stop) {p q : Nat}
    (hp : start + 1 + p < stop) :
    d.Closes (text.slice (start + 1) stop) p q ↔ d.Closes text (start + 1 + p) (start + 1 + q) := by
  constructor
  · intro hinner
    have hq := hinner.lt_length
    rw [Text.length_slice h.lt_length.le] at hq
    exact (closes_slice_iff (by omega)).1 hinner
  · intro houter
    rcases h.apart_or_nested houter (by omega) with hafter | hbefore
    · omega
    · exact (closes_slice_iff hbefore).2 houter

/-- Matched pairs of one kind form a nest. A delimiter that opens inside a pair is closed inside it; any two pairs
are the same, apart, or one inside the other; and the text that a pair encloses is balanced and has, taken alone,
the pairs that the whole text has there. -/
theorem close_laminar (d : Delimiter) (text : Text) :
    (∀ (start inner : Int) (stop : Nat), d.close text start = .ok stop → start < inner → inner < stop →
      text[inner.toNat]? = some d.opening →
        ∃ close : Nat, d.close text inner = .ok close ∧ inner < close ∧ close < stop) ∧
    (∀ (start other : Int) (stop close : Nat), d.close text start = .ok stop → d.close text other = .ok close →
      (start = other ∧ stop = close) ∨ stop < other ∨ close < start ∨
        (start < other ∧ close < stop) ∨ (other < start ∧ stop < close)) ∧
    ∀ (start : Int) (enclosed : Text), d.enclosed text start = .ok enclosed →
      d.Balanced enclosed ∧
        ∀ p q : Nat, p < enclosed.length →
          (d.close enclosed p = .ok q ↔ d.close text (start + 1 + p) = .ok (start.toNat + 1 + q)) := by
  refine ⟨?_, ?_, ?_⟩
  · intro start inner stop h hstart hstop hopening
    obtain ⟨i, rfl, hcloses⟩ := exists_closes h
    obtain ⟨k, rfl⟩ := Int.eq_ofNat_of_zero_le (show 0 ≤ inner by omega)
    rw [Int.toNat_natCast] at hopening
    obtain ⟨close, hinner, hbefore⟩ := hcloses.exists_inner (by omega) (by omega) hopening
    have hlt := hinner.lt
    exact ⟨close, close_eq_ok_iff.2 hinner, by omega, hbefore⟩
  · intro start other stop close h hother
    obtain ⟨i, rfl, hcloses⟩ := exists_closes h
    obtain ⟨k, rfl, hcloses'⟩ := exists_closes hother
    rcases Nat.lt_trichotomy i k with hlt | rfl | hgt
    · have hcase := hcloses.apart_or_nested hcloses' hlt
      omega
    · exact Or.inl ⟨rfl, hcloses.unique hcloses'⟩
    · have hcase := hcloses'.apart_or_nested hcloses hgt
      omega
  · intro start enclosed h
    rw [enclosed_eq] at h
    cases hclose : d.close text start with
    | error fault => simp [hclose, Except.map] at h
    | ok stop =>
      rw [hclose] at h
      obtain rfl := Except.ok.inj h
      obtain ⟨i, rfl, hcloses⟩ := exists_closes hclose
      refine ⟨(close_eq_ok hclose).2.2.2, ?_⟩
      intro p q hp
      rw [Int.toNat_natCast, Text.length_slice hcloses.lt_length.le] at hp
      have hplace : (i : Int) + 1 + p = ((i + 1 + p : Nat) : Int) := by omega
      rw [Int.toNat_natCast, hplace, close_eq_ok_iff, close_eq_ok_iff]
      exact hcloses.close_slice_iff (by omega)

/-- A call in the arguments of a call is closed there, and by what closes it in the arguments alone. -/
theorem close_laminar_call :
    paren.close (txt "f(a(b)c)") 1 = .ok 7 ∧
      (∃ close : Nat, paren.close (txt "f(a(b)c)") 3 = .ok close ∧ 3 < (close : Int) ∧ close < 7) ∧
      paren.Balanced (txt "a(b)c") ∧ paren.close (txt "a(b)c") 1 = .ok 3 := by
  obtain ⟨hinner, -, henclosed⟩ := close_laminar paren (txt "f(a(b)c)")
  have hclose : paren.close (txt "f(a(b)c)") 1 = .ok 7 := by decide
  obtain ⟨hbalanced, hpairs⟩ := henclosed 1 (txt "a(b)c") (by decide)
  exact ⟨hclose, hinner 1 3 7 hclose (by decide) (by decide) (by decide), hbalanced,
    (hpairs 1 3 (by decide)).2 (by decide)⟩

end Delimiter

end AngularUplift
