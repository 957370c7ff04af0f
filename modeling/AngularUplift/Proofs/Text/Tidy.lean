import AngularUplift.Proofs.Suite.Block
import AngularUplift.Proofs.Text.Ink

/-!
# What tidying up keeps of a text

Code that is written piece by piece is tidied up at the end: the pieces are joined by line breaks, runs of blank lines
are collapsed, and the whole is trimmed. A line without white space at its ends comes through all of this unchanged, and
it stays a line of its own.

## Main definitions

* `Text.IsTight`: a text with no white space at its two ends.

## Main statements

* `Text.mem_lines_append`, `Text.exists_of_mem_lines`: the lines of a text, with what stands around them.
* `Text.mem_lines_join`: joining pieces keeps their lines.
* `Text.IsTight.mem_lines_trim`: trimming keeps a tight line.
* `Text.exists_removeEmptyLines`, `Text.absent_blankRun`: tight lines at the beginning of a text stay when runs of blank
  lines are collapsed.
-/

namespace AngularUplift

namespace Text

/-! ### Lines of a text -/

/-- A text between the end of a line and a line break is a line. -/
theorem mem_lines_append {front line back : Text} (hfront : front.EndsLine) (hline : '\n' ∉ line)
    (hback : ∀ c ∈ back.head?, c = '\n') : line ∈ lines (front ++ (line ++ back)) := by
  have hfirst : line ∈ lines (line ++ back) := by
    cases back with
    | nil => rw [List.append_nil, lines_eq_singleton hline]; exact List.mem_singleton_self line
    | cons c back =>
      obtain rfl := hback c rfl
      rw [lines_append_break, lines_eq_singleton hline]
      exact List.mem_cons_self
  rcases hfront.eq_nil_or with rfl | ⟨front, rfl⟩
  · exact hfirst
  · rw [List.append_assoc, List.singleton_append, lines_append_break]
    exact List.mem_append_right _ hfirst

/-- A line of a text stands between the end of a line and a line break. -/
theorem exists_of_mem_lines {text line : Text} (h : line ∈ lines text) :
    ∃ front back, text = front ++ (line ++ back) ∧ front.EndsLine ∧ '\n' ∉ line ∧ ∀ c ∈ back.head?, c = '\n' := by
  induction text using line_induction with
  | last only honly =>
    obtain rfl : line = only := by simpa [lines_eq_singleton honly] using h
    exact ⟨[], [], by simp, by simp [EndsLine], honly, by simp⟩
  | step first rest hfirst ih =>
    rw [lines_append_break, lines_eq_singleton hfirst, List.singleton_append] at h
    rcases List.mem_cons.1 h with rfl | hrest
    · exact ⟨[], '\n' :: rest, by simp, by simp [EndsLine], hfirst, by simp⟩
    · obtain ⟨front, back, rfl, hfront, hline, hback⟩ := ih hrest
      have hended : (first ++ ['\n']).EndsLine := by simp [EndsLine]
      exact ⟨first ++ ['\n'] ++ front, back, by simp, hended.append hfront, hline, hback⟩

/-- The lines of a piece are lines of the pieces that are joined. -/
theorem mem_lines_join {pieces : List Text} {piece line : Text} (hpiece : piece ∈ pieces) (hline : line ∈ lines piece) :
    line ∈ lines (join ['\n'] pieces) := by
  induction pieces with
  | nil => exact absurd hpiece List.not_mem_nil
  | cons first rest ih =>
    cases rest with
    | nil => rwa [← List.mem_singleton.1 hpiece]
    | cons second rest =>
      rw [join, List.append_assoc, List.singleton_append, lines_append_break]
      rcases List.mem_cons.1 hpiece with rfl | hrest
      · exact List.mem_append_left _ hline
      · exact List.mem_append_right _ (ih hrest)

/-! ### Trimming -/

/-- Dropping characters from the left end stops at a part that does not begin with one of them. -/
theorem dropWhile_append_core {p : Char → Bool} {core : Text} (hhead : ∀ c ∈ core.head?, p c = false) (front : Text) :
    (front ++ core).dropWhile p = front.dropWhile p ++ core := by
  rw [List.dropWhile_append]
  split
  · next hnil =>
    rw [List.isEmpty_iff.1 hnil, List.nil_append]
    cases core with
    | nil => rfl
    | cons c core => exact List.dropWhile_cons_of_neg (by simp [hhead c rfl])
  · rfl

/-- A text with no white space at its two ends. -/
structure IsTight (text : Text) : Prop where
  /-- Its first character is no white space. -/
  exists_cons : ∃ c rest, text = c :: rest ∧ isBlank c = false
  /-- Nor is its last one. -/
  exists_concat : ∃ front c, text = front ++ [c] ∧ isBlank c = false

/-- What is trimmed from a text stands on the two sides of a tight part of it. -/
theorem IsTight.trim_append {core : Text} (h : core.IsTight) (front back : Text) :
    trim (front ++ (core ++ back)) = trimLeft front ++ (core ++ trimRight back) := by
  have hleft : trimLeft (front ++ (core ++ back)) = trimLeft front ++ core ++ back := by
    obtain ⟨c, rest, rfl, hblank⟩ := h.exists_cons
    rw [List.append_assoc]
    refine dropWhile_append_core (fun d hd => ?_) front
    obtain rfl := Option.some.inj hd
    exact hblank
  -- The right end is the left end of the reverse.
  have hright : trimRight (trimLeft front ++ core ++ back) = trimLeft front ++ core ++ trimRight back := by
    obtain ⟨rest, c, rfl, hblank⟩ := h.exists_concat
    rw [trimRight, dropRightWhile, List.reverse_append, dropWhile_append_core, List.reverse_append,
      List.reverse_reverse, trimRight, dropRightWhile]
    intro d hd
    rw [List.head?_reverse, ← List.append_assoc, List.getLast?_concat] at hd
    obtain rfl := Option.some.inj hd
    exact hblank
  rw [trim, hleft, hright, List.append_assoc]

/-- A tight line stays one when the text is trimmed. -/
theorem IsTight.mem_lines_trim {text line : Text} (h : line.IsTight) (hmem : line ∈ lines text) :
    line ∈ lines (trim text) := by
  obtain ⟨front, back, rfl, hfront, hline, hback⟩ := exists_of_mem_lines hmem
  rw [h.trim_append]
  refine mem_lines_append (fun c hc => ?_) hline fun c hc => ?_
  · obtain ⟨dropped, hdropped⟩ : trimLeft front <:+ front := List.dropWhile_suffix isBlank
    exact hfront c (hdropped ▸ List.mem_getLast?_append_of_mem_getLast? hc)
  · obtain ⟨trail, htrail, -⟩ := exists_trimRight back
    exact hback c (htrail ▸ List.mem_head?_append_of_mem_head? hc)

/-! ### Blank lines -/

/-- A tight text does not begin with a blank line. -/
theorem blankLinesLength_eq_zero {text : Text} (h : text.IsTight) (after : Text) :
    blankLinesLength 0 (text ++ after) = 0 := by
  obtain ⟨c, rest, rfl, hblank⟩ := h.exists_cons
  have hnone : blankLineLength? (c :: (rest ++ after)) = none := by
    have hbreak : isBlank '\n' = true ∧ isBlank '\r' = true := by decide
    rw [blankLineLength?, List.dropWhile_cons_of_neg (by simp [isGap_of_isBlank hblank])]
    split
    · next heq =>
      rw [(List.cons.inj heq).1, hbreak.1] at hblank
      cases hblank
    · next heq =>
      rw [(List.cons.inj heq).1, hbreak.2] at hblank
      cases hblank
    · rfl
  rw [List.cons_append, blankLinesLength, hnone]

/-- No run of blank lines begins in a line. -/
theorem absent_blankRun_line {line : Text} (h : '\n' ∉ line) (before after : Text) :
    blankRun.Absent after before line := by
  refine Pattern.absent_of_forall fun front back hline hne => ?_
  obtain ⟨c, back, rfl⟩ := List.exists_cons_of_ne_nil hne
  have hc : c ≠ '\n' := by
    rintro rfl
    exact h (hline ▸ List.mem_append_right front List.mem_cons_self)
  simp [Pattern.at?, blankRun, hc]

/-- No run of blank lines begins in tight lines. -/
theorem absent_blankRun {lines : List Text} (hlines : ∀ line ∈ lines, line.IsTight ∧ '\n' ∉ line) {last : Text}
    (htight : last.IsTight) (hlast : '\n' ∉ last) (before after : Text) :
    blankRun.Absent after before (unlines lines ++ last) := by
  induction lines generalizing before with
  | nil => exact absent_blankRun_line hlast before after
  | cons line lines ih =>
    obtain ⟨hline, hrest⟩ := List.forall_mem_cons.1 hlines
    rw [unlines_cons, List.append_assoc, List.cons_append, Pattern.absent_append]
    refine ⟨absent_blankRun_line hline.2 _ _, ?_, ih hrest _⟩
    -- A run would begin at a line break, but the line behind it is not blank.
    have hzero : blankLinesLength 0 (unlines lines ++ (last ++ after)) = 0 := by
      cases lines with
      | nil => exact blankLinesLength_eq_zero htight after
      | cons next lines =>
        rw [unlines_cons, List.append_assoc]
        exact blankLinesLength_eq_zero (hrest next List.mem_cons_self).1 _
    simp [Pattern.at?, blankRun, hzero]

/-- What stands before a line break stays as it is when no run of blank lines begins in it. -/
theorem exists_removeEmptyLines {front : Text} (rest : Text) (h : blankRun.Absent ('\n' :: rest) [] front) :
    ∃ tail, removeEmptyLines (front ++ '\n' :: rest) = front ++ '\n' :: tail := by
  rw [removeEmptyLines, Pattern.replace, Pattern.replaceWith, Pattern.pieces, Pattern.flatMap_exchange_append _ h]
  -- The line break is kept, or a run that begins with it becomes one.
  rw [Pattern.piecesFrom.eq_def]
  simp only
  split
  · exact ⟨_, rfl⟩
  · exact ⟨_, rfl⟩
  · exact ⟨_, rfl⟩

end Text

end AngularUplift
