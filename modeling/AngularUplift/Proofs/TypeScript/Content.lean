import AngularUplift.Proofs.Text.Line
import AngularUplift.TypeScript.Layout

/-!
# The content of laid-out code

Layout moves lines to the left or right and adds or drops blank lines. It keeps the content: the trimmed lines that
are not blank, in their order. The output of a layout is kept last line first, so one more line puts its content
before that of the others, and only empty lines are ever taken back.

## Main statements

* `LayoutState.output_step`: what one more line does to the output.
* `LayoutState.contentOf_foldl_step`: lines add their content to the output.
* `content_layoutWith`: the laid-out code has the content of the code.
-/

namespace AngularUplift

namespace LayoutState

variable {indent : Text}

/-! ### One line -/

/-- The indentation is made of the characters of the indent. -/
theorem isGap_of_mem_margin (hindent : ∀ c ∈ indent, isGap c) (state : LayoutState) :
    ∀ c ∈ state.margin indent, isGap c := by
  intro c hc
  obtain ⟨level, hlevel, hmem⟩ := List.mem_flatten.1 hc
  rw [List.eq_of_mem_replicate hlevel] at hmem
  exact hindent c hmem

/-- The output after one more line. A blank line adds an empty line or nothing. Any other line is trimmed and put
behind spaces and tabs, and may take away one empty line before it. -/
theorem output_step (hindent : ∀ c ∈ indent, isGap c) (state : LayoutState) (line : Text) :
    (Text.trim line = [] ∧
      ((state.step indent line).output = state.output ∨
        (state.step indent line).output = [] :: state.output)) ∨
    (Text.trim line ≠ [] ∧ ∃ space kept, (∀ c ∈ space, isGap c) ∧
      (state.output = kept ∨ state.output = [] :: kept) ∧
      (state.step indent line).output = (space ++ Text.trim line) :: kept) := by
  rw [step]
  split
  · next hblank =>
    refine Or.inl ⟨hblank, ?_⟩
    rw [blankLine]
    -- It adds nothing at the beginning, after another blank line and after an opening bracket.
    split
    · exact Or.inl rfl
    · split
      · exact Or.inl rfl
      · exact Or.inr rfl
  · next hline =>
    refine Or.inr ⟨hline, ?_⟩
    split
    · -- In a block comment a star is put one space to the right of the indentation.
      refine ⟨_, state.output, fun c hc => ?_, Or.inl rfl, rfl⟩
      rcases List.mem_append.1 hc with hmargin | hstar
      · exact isGap_of_mem_margin hindent state c hmargin
      · split at hstar
        · rw [List.mem_singleton.1 hstar]
          rfl
        · exact absurd hstar List.not_mem_nil
    · refine ⟨_, _, isGap_of_mem_margin hindent _, ?_, rfl⟩
      -- A closing bracket takes back an empty line, and nothing else is ever taken back.
      split
      · next rest houtput =>
        split
        · exact Or.inl rfl
        · exact Or.inr houtput
      · exact Or.inl rfl

/-- One more line adds its content to that of the output. -/
theorem contentOf_step (hindent : ∀ c ∈ indent, isGap c) (state : LayoutState) (line : Text) :
    Text.contentOf (state.step indent line).output = Text.contentOf [line] ++ Text.contentOf state.output := by
  rcases output_step hindent state line with ⟨hblank, houtput⟩ | ⟨hline, space, kept, hspace, hkept, houtput⟩
  -- A blank line has no content, and an empty line in the output has none either.
  · rw [Text.contentOf_cons_blank hblank]
    rcases houtput with hsame | hempty
    · rw [hsame]
      rfl
    · rw [hempty, Text.contentOf_cons_blank rfl]
      rfl
  · have htrim : Text.trim (space ++ Text.trim line) = Text.trim line := by
      rw [Text.trim_append_left fun c hc => isBlank_of_isGap (hspace c hc), Text.trim_trim]
    have hcontent : Text.contentOf state.output = Text.contentOf kept := by
      rcases hkept with hsame | hempty
      · rw [hsame]
      · rw [hempty, Text.contentOf_cons_blank rfl]
    rw [houtput, Text.contentOf_cons (by rwa [htrim]), htrim, Text.contentOf_cons hline, hcontent]
    rfl

/-- One more line puts no character into the output that is neither its own nor a space or a tab. -/
theorem notMem_step (hindent : ∀ c ∈ indent, isGap c) {c : Char} (hc : isGap c = false) {state : LayoutState}
    (hstate : ∀ line ∈ state.output, c ∉ line) {line : Text} (hline : c ∉ line) :
    ∀ other ∈ (state.step indent line).output, c ∉ other := by
  rcases output_step hindent state line with ⟨-, houtput⟩ | ⟨-, space, kept, hspace, hkept, houtput⟩
  · rcases houtput with hsame | hempty
    · rwa [hsame]
    · rw [hempty]
      exact List.forall_mem_cons.2 ⟨List.not_mem_nil, hstate⟩
  · rw [houtput]
    refine List.forall_mem_cons.2 ⟨fun hmem => ?_, fun other hother => hstate other ?_⟩
    · rcases List.mem_append.1 hmem with hleft | hright
      · exact absurd (hspace c hleft) (Bool.eq_false_iff.1 hc)
      · exact hline (Text.mem_of_mem_trim hright)
    · rcases hkept with hsame | hempty
      · rwa [hsame]
      · rw [hempty]
        exact List.mem_cons_of_mem _ hother

/-! ### All lines -/

/-- Lines add their content to that of the output, one after the other. -/
theorem contentOf_foldl_step (hindent : ∀ c ∈ indent, isGap c) (state : LayoutState) (lines : List Text) :
    Text.contentOf (lines.foldl (step indent) state).output.reverse =
      Text.contentOf state.output.reverse ++ Text.contentOf lines := by
  -- The induction is on the lines, for every state; the output is kept last line first.
  induction lines generalizing state with
  | nil => simp [Text.contentOf]
  | cons line lines ih =>
    rw [List.foldl_cons, ih, Text.contentOf_reverse, contentOf_step hindent, List.reverse_append,
      ← Text.contentOf_reverse, ← Text.contentOf_reverse, List.reverse_singleton, List.append_assoc,
      ← Text.contentOf_append, List.singleton_append]

/-- A character that is in no line, and is no space or tab, is in no line of the output. -/
theorem notMem_foldl_step (hindent : ∀ c ∈ indent, isGap c) {c : Char} (hc : isGap c = false)
    {state : LayoutState} (hstate : ∀ line ∈ state.output, c ∉ line) {lines : List Text}
    (hlines : ∀ line ∈ lines, c ∉ line) :
    ∀ line ∈ (lines.foldl (step indent) state).output, c ∉ line := by
  induction lines generalizing state with
  | nil => exact hstate
  | cons line lines ih =>
    obtain ⟨hline, hrest⟩ := List.forall_mem_cons.1 hlines
    exact ih (notMem_step hindent hc hstate hline) hrest

/-- Lines without line breaks give an output without line breaks. -/
theorem break_notMem_foldl_step (hindent : ∀ c ∈ indent, isGap c) {state : LayoutState}
    (hstate : ∀ line ∈ state.output, '\n' ∉ line) {lines : List Text} (hlines : ∀ line ∈ lines, '\n' ∉ line) :
    ∀ line ∈ (lines.foldl (step indent) state).output, '\n' ∉ line :=
  notMem_foldl_step hindent rfl hstate hlines

end LayoutState

/-- The empty lines at the end of the output have no content. -/
theorem contentOf_dropWhile_isEmpty (output : List Text) :
    Text.contentOf (output.dropWhile (·.isEmpty)) = Text.contentOf output := by
  induction output with
  | nil => rfl
  | cons line output ih =>
    rw [List.dropWhile_cons]
    split
    · next hempty =>
      rw [ih, List.isEmpty_iff.1 hempty, Text.contentOf_cons_blank rfl]
    · rfl

/-- The content of lines without line breaks that are joined and ended by line breaks. -/
theorem content_join_append_break {lines : List Text} (h : ∀ line ∈ lines, '\n' ∉ line) :
    Text.content (Text.join ['\n'] lines ++ ['\n']) = Text.contentOf lines := by
  cases lines with
  | nil => rfl
  | cons line rest =>
    have hempty : Text.contentOf [[]] = [] := rfl
    rw [Text.join_append_break (List.cons_ne_nil line rest), Text.content, Text.lines_unlines h,
      Text.contentOf_append, hempty, List.append_nil]

/-- Layout keeps the content of code. Whatever spaces and tabs lines are indented with, the lines of the laid-out
code that are not blank are, when trimmed, the trimmed lines of the code that are not blank, in the same order. -/
theorem content_layoutWith {indent : Text} (hindent : ∀ c ∈ indent, isGap c) (code : Text) :
    Text.content (layoutWith indent code) = Text.content (Text.normaliseBreaks code) := by
  -- The output is joined with line breaks, so its lines come back only if they hold none.
  have hbreaks : ∀ line ∈ ((Text.normaliseBreaks code).lines.foldl (LayoutState.step indent) {}).output,
      '\n' ∉ line :=
    LayoutState.break_notMem_foldl_step hindent (fun _ hline => absurd hline List.not_mem_nil)
      fun _ => Text.break_notMem_of_mem_lines
  rw [layoutWith, content_join_append_break, Text.contentOf_reverse, contentOf_dropWhile_isEmpty,
    ← Text.contentOf_reverse, LayoutState.contentOf_foldl_step hindent]
  · rfl
  · intro line hline
    exact hbreaks line ((List.dropWhile_sublist _).subset (List.mem_reverse.1 hline))

/-- A tab and a space as indent, three kinds of line break, a block comment with starred and blank lines, and a blank
line that a closing bracket takes away. -/
theorem content_layoutWith_comment :
    (∀ c ∈ txt "\t ", isGap c) ∧
      Text.content (layoutWith (txt "\t ")
        (txt "run(function () \x7b\r\n\r\n  /* a\r * b\r\r*/ c();  \n\n\n  \x7d);\n")) =
      [txt "run(function () \x7b", txt "/* a", txt "* b", txt "*/ c();", txt "\x7d);"] := by
  have hindent : ∀ c ∈ txt "\t ", isGap c := List.all_eq_true.1 rfl
  exact ⟨hindent, (content_layoutWith hindent _).trans (by decide)⟩

end AngularUplift
