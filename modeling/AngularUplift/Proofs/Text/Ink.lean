import AngularUplift.Proofs.Text.Line
import AngularUplift.Proofs.Text.Occurrence
import AngularUplift.Text.Tidy

/-!
# The ink of a text

The ink of a text is what it has besides white space. Trimming, collapsing blank lines and joining pieces with line
breaks move white space only, so that they keep the ink; an exchange keeps it when the exchanged pieces have the same.

## Main definitions

* `Text.ink`: the characters of a text that are no white space.

## Main statements

* `Text.line_induction`: a text is one line, or a line before a text.
* `Text.related_replaceAll`: what an exchange of pieces keeps of a text.
* `Text.ink_trim`, `Text.ink_removeEmptyLines`, `Text.ink_join`: the steps that keep the ink.
-/

namespace AngularUplift

namespace Text

/-- The characters of a text that are no white space. -/
def ink (text : Text) : Text := text.filter (!isBlank ·)

@[simp]
theorem ink_nil : ink [] = [] := rfl

@[simp]
theorem ink_append (text other : Text) : ink (text ++ other) = ink text ++ ink other := List.filter_append ..

/-- A text without ink is white space. -/
theorem ink_eq_nil_iff {text : Text} : ink text = [] ↔ ∀ c ∈ text, isBlank c := by
  simp [ink, List.filter_eq_nil_iff]

/-- The ink of several texts put together. -/
theorem ink_flatten (texts : List Text) : ink texts.flatten = (texts.map ink).flatten := List.filter_flatten

@[simp]
theorem ink_trim (text : Text) : ink (trim text) = ink text := filter_trim (fun _ h => by rw [h, Bool.not_true]) text

/-- Nothing is left of a text by trimming when it has no ink. -/
theorem trim_eq_nil_iff {text : Text} : trim text = [] ↔ ink text = [] := by
  refine ⟨fun h => by rw [← ink_trim, h, ink_nil], fun h => ?_⟩
  rw [trim, trimLeft, List.dropWhile_eq_nil_iff.2 (ink_eq_nil_iff.1 h)]
  rfl

/-- Joining texts with line breaks adds no ink. -/
theorem ink_join (texts : List Text) : ink (join ['\n'] texts) = (texts.map ink).flatten := by
  induction texts with
  | nil => rfl
  | cons text texts ih =>
    cases texts with
    | nil => simp [join]
    | cons next texts =>
      have hbreak : ink ['\n'] = [] := rfl
      rw [join, ink_append, ink_append, ih, hbreak, List.append_nil]
      rfl

/-! ### Lines -/

/-- A text is one line, or a line before a line break and a text. -/
@[elab_as_elim]
theorem line_induction {motive : Text → Prop} (last : ∀ line, '\n' ∉ line → motive line)
    (step : ∀ line rest, '\n' ∉ line → motive rest → motive (line ++ '\n' :: rest)) (text : Text) : motive text := by
  by_cases hbreak : '\n' ∈ text
  · obtain ⟨line, rest, heq, hline⟩ := List.eq_append_cons_of_mem hbreak
    have hshorter : rest.length < text.length := by
      rw [heq, List.length_append, List.length_cons]
      omega
    rw [heq]
    exact step line rest hline (line_induction last step rest)
  · exact last text hbreak
termination_by text.length

/-! ### Exchanged pieces -/

/-- When exchanging a piece leads to a related text, whatever comes before and after it, so does exchanging it
everywhere. -/
theorem related_replaceFrom {R : Text → Text → Prop} (hR : LeftCongruence R) {piece replacement : Text}
    (hne : piece ≠ []) (h : ∀ rest, R (replacement ++ rest) (piece ++ rest)) (skip : Nat) (text : Text) :
    R (replaceFrom piece replacement skip text) (text.drop skip) := by
  induction text generalizing skip with
  | nil => cases skip <;> exact hR.refl []
  | cons c text ih =>
    cases skip with
    | succ skip => exact ih skip
    | zero =>
      rw [replaceFrom]
      split
      · next hstarts =>
        -- The piece is passed over, all but its first character by the scan of the rest.
        obtain ⟨rest, hrest⟩ := List.isPrefixOf_iff_prefix.1 hstarts
        obtain ⟨d, piece, rfl⟩ := List.exists_cons_of_ne_nil hne
        have htext : text = piece ++ rest := (List.cons.inj hrest).2.symm
        have hafter := ih (d :: piece).length.pred
        rw [List.length_cons, Nat.pred_succ, htext, List.drop_left] at hafter
        rw [List.drop_zero, ← hrest, htext, List.length_cons, Nat.add_sub_cancel]
        exact hR.trans (hR.append replacement hafter) (h rest)
      · exact hR.append [c] (ih 0)

/-- When exchanging a piece leads to a related text, so does exchanging it everywhere. -/
theorem related_replaceAll {R : Text → Text → Prop} (hR : LeftCongruence R) {piece replacement : Text}
    (hne : piece ≠ []) (h : ∀ rest, R (replacement ++ rest) (piece ++ rest)) (text : Text) :
    R (replaceAll text piece replacement) text :=
  related_replaceFrom hR hne h 0 text

/-- Exchanging a piece for one with the same characters of a class keeps the characters of the class. -/
theorem filter_replaceAll {q : Char → Bool} {piece replacement : Text} (hne : piece ≠ [])
    (h : replacement.filter q = piece.filter q) (text : Text) :
    (replaceAll text piece replacement).filter q = text.filter q :=
  related_replaceAll (leftCongruence_filter q) hne
    (fun rest => by rw [List.filter_append, List.filter_append, h]) text

/-! ### Blank lines -/

/-- The blank line that a text begins with is white space. -/
theorem isBlank_of_blankLineLength? {text : Text} {n : Nat} (h : blankLineLength? text = some n) :
    ∀ c ∈ text.take n, isBlank c := by
  -- The line is a gap and one or two characters that break it.
  have hsplit : ∃ gap mark rest, text = (gap ++ mark) ++ rest ∧ n = (gap ++ mark).length ∧
      (∀ c ∈ gap, isGap c) ∧ ∀ c ∈ mark, isBlank c := by
    have hgap : text = text.takeWhile isGap ++ text.dropWhile isGap := List.takeWhile_append_dropWhile.symm
    have hlength := congrArg List.length hgap
    rw [List.length_append] at hlength
    rw [blankLineLength?] at h
    split at h
    · next rest hrest =>
      refine ⟨text.takeWhile isGap, ['\n'], rest, ?_, ?_, fun c hc => List.mem_takeWhile_imp hc,
        List.forall_mem_singleton.2 (by decide)⟩
      · rw [List.append_assoc, List.singleton_append, ← hrest, ← hgap]
      · rw [← Option.some.inj h, List.length_append, List.length_singleton]
        omega
    · next rest hrest =>
      refine ⟨text.takeWhile isGap, ['\r', '\n'], rest, ?_, ?_, fun c hc => List.mem_takeWhile_imp hc,
        List.forall_mem_cons.2 ⟨by decide, List.forall_mem_singleton.2 (by decide)⟩⟩
      · rw [List.append_assoc, List.cons_append, List.singleton_append, ← hrest, ← hgap]
      · rw [← Option.some.inj h, List.length_append, List.length_cons, List.length_singleton]
        omega
    · exact absurd h (by simp)
  obtain ⟨gap, mark, rest, rfl, rfl, hgap, hmark⟩ := hsplit
  rw [List.take_left]
  exact List.forall_mem_append.2 ⟨fun c hc => isBlank_of_isGap (hgap c hc), hmark⟩

/-- The blank lines that a text begins with are white space. -/
theorem isBlank_of_blankLinesLength {skip : Nat} {text : Text} (h : ∀ c ∈ text.take skip, isBlank c) :
    ∀ c ∈ text.take (blankLinesLength skip text), isBlank c := by
  induction text generalizing skip with
  | nil => simp
  | cons c text ih =>
    cases skip with
    | succ skip =>
      obtain ⟨hc, hskip⟩ := List.forall_mem_cons.1 h
      exact List.forall_mem_cons.2 ⟨hc, ih hskip⟩
    | zero =>
      rw [blankLinesLength]
      split
      · next n hline =>
        obtain ⟨hc, hrest⟩ := List.forall_mem_cons.1 (isBlank_of_blankLineLength? hline)
        exact List.forall_mem_cons.2 ⟨hc, ih hrest⟩
      · simp

/-- A run of blank lines is a line break and white space. -/
theorem read_blankRun {text rest : Text} {value : Unit} (h : blankRun.read text = some (value, rest)) :
    ∃ space, text = ('\n' :: space) ++ rest ∧ ∀ c ∈ space, isBlank c := by
  rw [blankRun] at h
  dsimp only at h
  split at h
  · next after =>
    refine ⟨after.take (blankLinesLength 0 after), ?_, isBlank_of_blankLinesLength (by simp)⟩
    split at h
    · exact absurd h (by simp)
    · obtain ⟨-, rfl⟩ := Prod.mk.inj (Option.some.inj h)
      rw [List.cons_append, List.take_append_drop]
  · exact absurd h (by simp)

/-- Collapsing blank lines takes white space away, and nothing else. -/
@[simp]
theorem ink_removeEmptyLines (text : Text) : ink (removeEmptyLines text) = ink text := by
  apply Pattern.filter_replaceWith
  intro after value rest hread
  obtain ⟨space, rfl, hspace⟩ := read_blankRun hread
  exact ⟨'\n' :: space, rfl, (congrArg (ink ['\n'] ++ ·) (ink_eq_nil_iff.2 hspace)).symm⟩

end Text

end AngularUplift
