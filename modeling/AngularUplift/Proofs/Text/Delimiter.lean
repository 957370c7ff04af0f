import AngularUplift.Proofs.Text.Slice
import AngularUplift.Text.Delimiter
import Mathlib.Data.List.Basic

/-!
# Balanced text between delimiters

The text between a delimiter and its close is balanced in delimiters of that kind: none is closed before it is
opened, and none is left open.

## Main definitions

* `Delimiter.Balanced`: a text that is balanced in one kind of delimiter.

## Main statements

* `Delimiter.close_eq_ok`: the close of a delimiter is a closing character after balanced text.
* `Delimiter.closeOfNext_eq_ok`: the next delimiter of a kind is the first one, and its close is found.
* `Delimiter.close_append`, `Delimiter.closeOfNext_append`: the close of a delimiter before balanced text stands right
  after that text.
-/

namespace AngularUplift

namespace Text

/-- The first occurrence of a character has no other one before it. -/
theorem indexOf?_singleton_eq_some {c : Char} {text : Text} {n : Nat}
    (h : indexOf? [c] text = some n) : text[n]? = some c ∧ c ∉ text.take n := by
  induction text generalizing n with
  | nil => exact absurd h (by simp [indexOf?])
  | cons d text ih =>
    rw [indexOf?] at h
    split at h
    · next hstart =>
      obtain rfl := Option.some.inj h
      have heq : c = d := by simpa [startsWith] using hstart
      simp [heq]
    · next hstart =>
      obtain ⟨m, hm, rfl⟩ := Option.map_eq_some_iff.1 h
      obtain ⟨hfound, hnone⟩ := ih hm
      have hne : c ≠ d := by simpa [startsWith] using hstart
      simp [hfound, hne, hnone]

/-- A character is found after a text without it. -/
theorem indexOf?_singleton_append {c : Char} {front : Text} (h : c ∉ front) (rest : Text) :
    indexOf? [c] (front ++ c :: rest) = some front.length := by
  induction front with
  | nil => simp [indexOf?, startsWith]
  | cons d front ih =>
    rw [List.mem_cons, not_or] at h
    simp [indexOf?, startsWith, h.1, ih h.2]

/-- The first occurrence of a character from a position on has no other one between the position and it. -/
theorem indexFrom?_singleton_eq_some {c : Char} {text : Text} {position n : Nat}
    (h : text.indexFrom? [c] position = some n) :
    position ≤ n ∧ text[n]? = some c ∧ c ∉ text.slice position n := by
  rw [indexFrom?, Option.ite_none_left_eq_some] at h
  obtain ⟨hle, hmap⟩ := h
  obtain ⟨m, hm, rfl⟩ := Option.map_eq_some_iff.1 hmap
  obtain ⟨hfound, hnone⟩ := indexOf?_singleton_eq_some hm
  refine ⟨Nat.le_add_left .., ?_, ?_⟩
  · rwa [List.getElem?_drop, Nat.add_comm] at hfound
  · rwa [slice, List.drop_take, Nat.add_sub_cancel]

end Text

namespace Delimiter

/-- A text that opens as many delimiters of a kind as it closes, and closes none before opening it. -/
structure Balanced (d : Delimiter) (text : Text) : Prop where
  /-- Nothing is left open. -/
  closed : text.count d.closing = text.count d.opening
  /-- Nothing is closed before it is opened. -/
  nested : ∀ front, front <+: text → front.count d.closing ≤ front.count d.opening

/-- The two characters of a delimiter differ. -/
theorem opening_ne_closing (d : Delimiter) : d.opening ≠ d.closing := by
  cases d <;> decide

/-- The scan for the close stops at a closing character. The text before it closes one delimiter less than the
depth of the scan demands, and no beginning of it closes as many. -/
theorem closeFrom_eq_some {d : Delimiter} {depth n : Nat} {text : Text} (hdepth : 0 < depth)
    (h : d.closeFrom depth text = some n) :
    text[n]? = some d.closing ∧
      (text.take n).count d.closing + 1 = (text.take n).count d.opening + depth ∧
      ∀ front, front <+: text.take n → front.count d.closing < front.count d.opening + depth := by
  induction text generalizing depth n with
  | nil => exact absurd h (by simp [closeFrom])
  | cons c cs ih =>
    -- A character that changes the depth by what it opens and closes may be put before.
    have hstep : ∀ next m, 0 < next → d.closeFrom next cs = some m →
        next + [c].count d.closing = depth + [c].count d.opening →
        (c :: cs)[m + 1]? = some d.closing ∧
          ((c :: cs).take (m + 1)).count d.closing + 1 =
            ((c :: cs).take (m + 1)).count d.opening + depth ∧
          ∀ front, front <+: (c :: cs).take (m + 1) →
            front.count d.closing < front.count d.opening + depth := by
      intro next m hnext hclose hchange
      obtain ⟨hfound, hcount, hfront⟩ := ih hnext hclose
      have hcons : ∀ (e : Char) (front : Text), (c :: front).count e = [c].count e + front.count e :=
        fun e front => by rw [← List.count_append, List.singleton_append]
      refine ⟨hfound, ?_, fun front hleading => ?_⟩
      · rw [List.take_succ_cons, hcons d.closing, hcons d.opening]
        omega
      · rw [List.take_succ_cons] at hleading
        rcases List.prefix_cons_iff.1 hleading with rfl | ⟨tail, rfl, htail⟩
        · simpa using hdepth
        · have hlt := hfront tail htail
          rw [hcons d.closing, hcons d.opening]
          omega
    have hne := d.opening_ne_closing
    rw [closeFrom] at h
    split at h
    · next hopen =>
      obtain ⟨m, hm, rfl⟩ := Option.map_eq_some_iff.1 h
      exact hstep (depth + 1) m (Nat.succ_pos _) hm (by simp [hopen, hne])
    · next hopen =>
      split at h
      · next hclose =>
        split at h
        · obtain rfl := Option.some.inj h
          refine ⟨by simp [hclose], by simp; omega, fun front hleading => ?_⟩
          obtain rfl := List.prefix_nil.1 hleading
          simpa using hdepth
        · obtain ⟨m, hm, rfl⟩ := Option.map_eq_some_iff.1 h
          refine hstep (depth - 1) m (by omega) hm ?_
          simp [hclose, hne.symm]
          omega
      · next hclose =>
        obtain ⟨m, hm, rfl⟩ := Option.map_eq_some_iff.1 h
        exact hstep depth m hdepth hm (by simp [hopen, hclose])

/-- Searching for the close of a delimiter finds one, or fails at the delimiter. -/
theorem close_cases (d : Delimiter) (text : Text) (start : Int) :
    (∃ stop, d.close text start = .ok stop) ∨ d.close text start = .error (.unbalanced d.opening start) := by
  rw [close]
  split
  · split
    · exact .inl ⟨_, rfl⟩
    · exact .inr rfl
  · exact .inr rfl

/-- The close of a delimiter is a closing character, with balanced text between the two. -/
theorem close_eq_ok {d : Delimiter} {text : Text} {start stop : Nat}
    (h : d.close text start = .ok stop) :
    text[start]? = some d.opening ∧ start < stop ∧ text[stop]? = some d.closing ∧
      d.Balanced (text.slice (start + 1) stop) := by
  rw [close] at h
  split at h
  · next hopen =>
    split at h
    · next n hclose =>
      obtain rfl := Except.ok.inj h
      obtain ⟨hfound, hcount, hfront⟩ := closeFrom_eq_some Nat.one_pos hclose
      have hslice : text.slice (start + 1) (start + 1 + n) = (text.drop (start + 1)).take n := by
        rw [Text.slice, List.drop_take, Nat.add_sub_cancel_left]
      refine ⟨hopen.2, by simp; omega, ?_, ?_⟩
      · rwa [List.getElem?_drop] at hfound
      · simp only [Int.toNat_natCast] at hcount hfront ⊢
        rw [hslice]
        exact ⟨by omega, fun front hleading => Nat.le_of_lt_succ (hfront front hleading)⟩
    · exact absurd h (by simp)
  · exact absurd h (by simp)

/-- The next delimiter of a kind is the first one from a position on, and it is closed. -/
theorem closeOfNext_eq_ok {d : Delimiter} {text : Text} {position start stop : Nat}
    (h : d.closeOfNext text position = .ok (start, stop)) :
    position ≤ start ∧ d.opening ∉ text.slice position start ∧ d.close text start = .ok stop := by
  rw [closeOfNext] at h
  split at h
  · exact absurd h (by simp)
  · next first hindex =>
    obtain ⟨hle, -, hnone⟩ := Text.indexFrom?_singleton_eq_some hindex
    cases hclose : d.close text first with
    | error fault => simp [hclose, bind, Except.bind] at h
    | ok close =>
      simp only [hclose, bind, Except.bind, pure, Except.pure, Except.ok.injEq, Prod.mk.injEq] at h
      obtain ⟨rfl, rfl⟩ := h
      exact ⟨hle, hnone, hclose⟩

/-! ### Balanced texts -/

/-- A text without delimiters of a kind is balanced in it. -/
theorem Balanced.of_notMem {d : Delimiter} {text : Text} (hopen : d.opening ∉ text) (hclose : d.closing ∉ text) :
    d.Balanced text where
  closed := by rw [List.count_eq_zero_of_not_mem hopen, List.count_eq_zero_of_not_mem hclose]
  nested front hfront := by
    rw [List.count_eq_zero_of_not_mem fun hmem => hclose (hfront.subset hmem)]
    exact Nat.zero_le _

/-- Balanced texts one after the other are balanced. -/
theorem Balanced.append {d : Delimiter} {text other : Text} (htext : d.Balanced text)
    (hother : d.Balanced other) : d.Balanced (text ++ other) where
  closed := by rw [List.count_append, List.count_append, htext.closed, hother.closed]
  nested front hfront := by
    rcases List.prefix_or_prefix_of_prefix hfront (List.prefix_append text other) with hin | ⟨tail, rfl⟩
    · exact htext.nested front hin
    · have htail := (List.prefix_append_right_inj text).1 hfront
      have hle := hother.nested tail htail
      have heq := htext.closed
      rw [List.count_append, List.count_append]
      omega

/-- A balanced text between an opening and a closing character is balanced. -/
theorem Balanced.enclose {d : Delimiter} {text : Text} (h : d.Balanced text) :
    d.Balanced (d.opening :: text ++ [d.closing]) where
  closed := by
    have hne := d.opening_ne_closing
    have heq := h.closed
    simp [hne, hne.symm]
    omega
  nested front hfront := by
    have hne := d.opening_ne_closing
    rw [List.cons_append] at hfront
    rcases List.prefix_cons_iff.1 hfront with rfl | ⟨tail, rfl, htail⟩
    · simp
    rw [List.count_cons_self, List.count_cons_of_ne hne]
    rcases List.prefix_or_prefix_of_prefix htail (List.prefix_append text _) with hin | ⟨last, rfl⟩
    · have hle := h.nested tail hin
      omega
    · have hlast := (List.prefix_append_right_inj text).1 htail
      have hle : last.count d.closing ≤ 1 := Nat.le_trans (hlast.sublist.count_le _) (by simp)
      have heq := h.closed
      rw [List.count_append, List.count_append]
      omega

/-- The scan for the close passes over a text that keeps it open. -/
theorem closeFrom_append {d : Delimiter} {depth : Nat} {text : Text} (rest : Text)
    (h : ∀ front, front <+: text → front.count d.closing < front.count d.opening + depth) :
    d.closeFrom depth (text ++ rest) =
      (d.closeFrom (depth + text.count d.opening - text.count d.closing) rest).map (· + text.length) := by
  induction text generalizing depth with
  | nil => simp
  | cons c text ih =>
    have hne := d.opening_ne_closing
    -- After one character the same holds at the depth that the character leads to.
    have hnext : ∀ next, next + [c].count d.closing = depth + [c].count d.opening →
        (d.closeFrom next (text ++ rest)).map (· + 1) =
          (d.closeFrom (depth + (c :: text).count d.opening - (c :: text).count d.closing) rest).map
            (· + (c :: text).length) := by
      intro next hchange
      have hcons : ∀ (e : Char) (front : Text), (c :: front).count e = [c].count e + front.count e :=
        fun e front => by rw [← List.count_append, List.singleton_append]
      have hopen : ∀ front, front <+: text → front.count d.closing < front.count d.opening + next := by
        intro front hfront
        have hlt := h (c :: front) ((List.prefix_cons_inj c).2 hfront)
        rw [hcons d.closing, hcons d.opening] at hlt
        omega
      have hdepth : next + text.count d.opening - text.count d.closing =
          depth + (c :: text).count d.opening - (c :: text).count d.closing := by
        rw [hcons d.closing, hcons d.opening]
        omega
      rw [ih hopen, hdepth, Option.map_map]
      rfl
    rw [List.cons_append, closeFrom]
    split
    · next hopening => exact hnext (depth + 1) (by simp [hopening, hne])
    · next hopening =>
      split
      · next hclosing =>
        have hlt := h [c] (by simp)
        simp only [hclosing, List.count_singleton_self, List.count_singleton, beq_eq_false_iff_ne.2 hne.symm,
          Bool.false_eq_true, if_false, Nat.zero_add] at hlt
        rw [if_neg (by omega)]
        refine hnext (depth - 1) ?_
        simp [hclosing, hne.symm]
        omega
      · next hclosing => exact hnext depth (by simp [hopening, hclosing])

/-- A close that the scan finds in a text is found whatever comes after the text. -/
theorem closeFrom_append_of_eq_some {d : Delimiter} {depth n : Nat} {text : Text} (h : d.closeFrom depth text = some n)
    (rest : Text) : d.closeFrom depth (text ++ rest) = some n := by
  induction text generalizing depth n with
  | nil => exact absurd h (by simp [closeFrom])
  | cons c text ih =>
    have hstep : ∀ {next}, (d.closeFrom next text).map (· + 1) = some n →
        (d.closeFrom next (text ++ rest)).map (· + 1) = some n := by
      intro next hnext
      obtain ⟨m, hm, rfl⟩ := Option.map_eq_some_iff.1 hnext
      rw [ih hm]
      rfl
    rw [closeFrom] at h
    rw [List.cons_append, closeFrom]
    split at h
    · next hopening =>
      rw [if_pos hopening]
      exact hstep h
    · next hopening =>
      rw [if_neg hopening]
      split at h
      · next hclosing =>
        rw [if_pos hclosing]
        split at h
        · next hlast => rw [if_pos hlast, h]
        · next hlast =>
          rw [if_neg hlast]
          exact hstep h
      · next hclosing =>
        rw [if_neg hclosing]
        exact hstep h

/-- The scan for the close passes over a text without delimiters of its kind. -/
theorem closeFrom_append_of_notMem {d : Delimiter} {depth : Nat} {text : Text} (hdepth : 0 < depth)
    (hopen : d.opening ∉ text) (hclose : d.closing ∉ text) (rest : Text) :
    d.closeFrom depth (text ++ rest) = (d.closeFrom depth rest).map (· + text.length) := by
  have hnone := Balanced.of_notMem hopen hclose
  rw [closeFrom_append rest fun front hfront => ?_, hnone.closed, Nat.add_sub_cancel]
  have hle := hnone.nested front hfront
  omega

/-- Balanced text between an opening and a closing character is what stands between a delimiter and its close. -/
theorem close_append {d : Delimiter} {inner : Text} (h : d.Balanced inner) (before rest : Text) :
    d.close (before ++ d.opening :: (inner ++ d.closing :: rest)) before.length =
      .ok (before.length + 1 + inner.length) := by
  have hopening : (before ++ d.opening :: (inner ++ d.closing :: rest))[before.length]? = some d.opening := by
    simp
  have hdrop : (before ++ d.opening :: (inner ++ d.closing :: rest)).drop (before.length + 1) =
      inner ++ d.closing :: rest := by
    rw [List.drop_append, List.drop_eq_nil_of_le (Nat.le_succ _)]
    simp
  have hscan : d.closeFrom 1 (inner ++ d.closing :: rest) = some inner.length := by
    have hnested : ∀ front, front <+: inner → front.count d.closing < front.count d.opening + 1 :=
      fun front hfront => Nat.lt_succ_of_le (h.nested front hfront)
    rw [closeFrom_append _ hnested, h.closed, Nat.add_sub_cancel, closeFrom, if_neg d.opening_ne_closing.symm,
      if_pos rfl]
    simp
  rw [close, Int.toNat_natCast, if_pos ⟨Int.natCast_nonneg _, hopening⟩, hdrop, hscan]

/-- The next delimiter after a text without one is closed where the balanced text after it ends. -/
theorem closeOfNext_append {d : Delimiter} {gap inner : Text} (hgap : d.opening ∉ gap) (hinner : d.Balanced inner)
    (before rest : Text) :
    d.closeOfNext (before ++ (gap ++ d.opening :: (inner ++ d.closing :: rest))) before.length =
      .ok (before.length + gap.length, before.length + gap.length + 1 + inner.length) := by
  have hindex : (before ++ (gap ++ d.opening :: (inner ++ d.closing :: rest))).indexFrom? [d.opening] before.length =
      some (before ++ gap).length := by
    rw [Text.indexFrom?, if_neg (by simp), List.drop_left, Text.indexOf?_singleton_append hgap, List.length_append,
      Nat.add_comm]
    rfl
  have hclose := close_append hinner (before ++ gap) rest
  rw [List.append_assoc] at hclose
  rw [closeOfNext, hindex]
  simp only [hclose, bind, Except.bind, pure, Except.pure]
  rw [List.length_append]

end Delimiter

end AngularUplift
