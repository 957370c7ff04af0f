import AngularUplift.Proofs.TypeScript.Content
import Mathlib.Data.List.Chain

/-!
# The normal form of laid-out code

A layout is stable: the lines that it has put out, laid out once more, come out as they are. A state of a layout
knows of the lines before it only through the brackets and comments they leave open and through the last line that
was put out, so it is enough to see that every state is reached through its own output.

## Main definitions

* `LayoutState.Settled`: the states that a layout reaches through lines that it leaves as they are.
* `NormalForm`: what laid-out code looks like.

## Main statements

* `LayoutState.Settled.step`: one more line leads from such a state to such a state.
* `LayoutState.Settled.replay`: such a state is reached through its own output.
* `layoutWith_stable`: laid-out code is in normal form and is not changed by another layout.
-/

namespace AngularUplift

namespace LayoutState

variable {indent : Text} {state : LayoutState}

/-! ### One line -/

/-- Only the content of a line matters to a layout. -/
theorem step_congr {line other : Text} (h : Text.trim line = Text.trim other) (state : LayoutState) :
    state.step indent line = state.step indent other := by
  rw [step, step, h]

/-- A line with content is laid out as part of a comment or as code. -/
theorem step_of_content {line : Text} (h : Text.trim line ≠ []) (state : LayoutState) :
    state.step indent line =
      if state.inComment then state.commentLine indent (Text.trim line)
      else state.codeLine indent (Text.trim line) := by
  rw [step]
  split
  · contradiction
  · rfl

/-- After a line with content the last line is not blank. -/
theorem previousBlank_step {line : Text} (h : Text.trim line ≠ []) (state : LayoutState) :
    (state.step indent line).previousBlank = false := by
  rw [step_of_content h]
  split <;> rfl

/-- A line with content comes out with this content, and may take away one empty line before it. -/
theorem output_step_of_content (hindent : ∀ c ∈ indent, isGap c) {line : Text} (hline : Text.trim line ≠ [])
    (state : LayoutState) :
    ∃ first kept, (state.output = kept ∨ state.output = [] :: kept) ∧
      (state.step indent line).output = first :: kept ∧ Text.trim first = Text.trim line := by
  rcases output_step hindent state line with ⟨hblank, -⟩ | ⟨-, space, kept, hspace, hkept, houtput⟩
  · exact absurd hblank hline
  · refine ⟨space ++ Text.trim line, kept, hkept, houtput, ?_⟩
    rw [Text.trim_append_left fun c hc => isBlank_of_isGap (hspace c hc), Text.trim_trim]

/-- The state with an empty line put out. -/
def afterBlank (state : LayoutState) : LayoutState :=
  { state with output := [] :: state.output, previousBlank := true }

/-- A line that takes away an empty line before it is laid out as it would be without that line. -/
theorem step_afterBlank {line : Text} (hhead : state.output.head? ≠ some []) (hline : Text.trim line ≠ [])
    (htaken : (state.afterBlank.step indent line).output.tail ≠ [] :: state.output) :
    state.afterBlank.step indent line = state.step indent line := by
  rw [step_of_content hline] at htaken ⊢
  rw [step_of_content hline]
  by_cases hcomment : state.inComment
  · -- In a comment nothing is taken away.
    simp only [afterBlank, hcomment, if_true] at htaken
    exact absurd rfl htaken
  · simp only [afterBlank, hcomment, Bool.false_eq_true, if_false] at htaken ⊢
    by_cases hleading : (scanLine (Text.trim line)).leading = 0
    · simp only [codeLine, hleading, if_true] at htaken
      exact absurd rfl htaken
    · -- Nothing but the output is different, and both lose the empty line.
      have hkept : ∀ rest, state.output ≠ [] :: rest := fun rest heq => hhead (by rw [heq]; rfl)
      simp only [codeLine, margin, hleading, if_false]

/-- An output whose last line is not empty has no empty lines to drop at its end. -/
theorem dropWhile_isEmpty {output : List Text} (h : output.head? ≠ some []) :
    output.dropWhile (·.isEmpty) = output := by
  cases output with
  | nil => rfl
  | cons last earlier =>
    have hlast : last ≠ [] := by simpa using h
    simp [hlast]

/-! ### States reached through their own output -/

/-- The states that a layout reaches through lines that it leaves as they are: an empty line is put out, and a line
takes none away. -/
inductive Settled (indent : Text) : LayoutState → Prop
  /-- Nothing was put out yet. -/
  | start : Settled indent {}
  /-- An empty line after a line that is neither empty nor ends with an opening bracket. -/
  | blank {state : LayoutState} {last : Text} {earlier : List Text} (hstate : Settled indent state)
      (houtput : state.output = last :: earlier) (hlast : last ≠ []) (hopen : endsOpen last = false) :
      Settled indent state.afterBlank
  /-- A line with content that takes nothing away. -/
  | line {state : LayoutState} {line : Text} (hstate : Settled indent state) (hline : Text.trim line ≠ [])
      (hkept : (state.step indent line).output.tail = state.output) : Settled indent (state.step indent line)

namespace Settled

/-- The last line is remembered as blank exactly when it is empty. -/
theorem previousBlank_iff (hindent : ∀ c ∈ indent, isGap c) (h : Settled indent state) :
    state.previousBlank = true ↔ state.output.head? = some [] := by
  cases h with
  | start => simp
  | blank => simp [afterBlank]
  | @line state line _ hline _ =>
    obtain ⟨first, kept, -, houtput, hfirst⟩ := output_step_of_content hindent hline state
    have hne : first ≠ [] := by
      rintro rfl
      exact hline hfirst.symm
    rw [previousBlank_step hline, houtput]
    simpa using hne

/-- A settled state whose last line is empty comes from one whose last line is not. -/
theorem exists_afterBlank (hindent : ∀ c ∈ indent, isGap c) (h : Settled indent state)
    (hempty : state.output.head? = some []) :
    ∃ before : LayoutState, Settled indent before ∧ before.output.head? ≠ some [] ∧ state = before.afterBlank := by
  have hprevious := (h.previousBlank_iff hindent).2 hempty
  cases h with
  | start => simp at hempty
  | @blank before last earlier hbefore houtput hlast hopen =>
    exact ⟨before, hbefore, by simpa [houtput] using hlast, rfl⟩
  | line _ hline _ =>
    rw [previousBlank_step hline] at hprevious
    exact absurd hprevious Bool.false_ne_true

/-- One more line leads from a settled state to a settled state. -/
theorem step (hindent : ∀ c ∈ indent, isGap c) (h : Settled indent state) (line : Text) :
    Settled indent (state.step indent line) := by
  by_cases hline : Text.trim line = []
  · -- A blank line changes nothing, or it is put out after a line after which it may stand.
    rw [LayoutState.step, hline]
    simp only [blankLine]
    split
    · exact h
    · next last earlier houtput =>
      split
      · exact h
      · next hcond =>
        obtain ⟨hprevious, hopen⟩ := Bool.or_eq_false_iff.1 (Bool.eq_false_iff.2 hcond)
        have hlast : last ≠ [] := by
          rintro rfl
          have hblank := (h.previousBlank_iff hindent).2 (by rw [houtput]; rfl)
          rw [hprevious] at hblank
          exact absurd hblank Bool.false_ne_true
        have hblank := h.blank houtput hlast hopen
        rw [afterBlank, houtput] at hblank
        rwa [houtput]
  · by_cases hkept : (state.step indent line).output.tail = state.output
    · exact h.line hline hkept
    · -- The line takes an empty line away, and so stands where it would stand without that line.
      have hempty : state.output.head? = some [] := by
        obtain ⟨first, kept, hcases, houtput, -⟩ := output_step_of_content hindent hline state
        rcases hcases with hsame | hempty
        · exact absurd (by rw [houtput, hsame, List.tail_cons]) hkept
        · rw [hempty, List.head?_cons]
      obtain ⟨before, hbefore, hhead, rfl⟩ := h.exists_afterBlank hindent hempty
      rw [step_afterBlank hhead hline hkept]
      refine hbefore.line hline ?_
      obtain ⟨first, kept, hcases, hfirst, -⟩ := output_step_of_content hindent hline before
      rcases hcases with heq | hempty
      · rw [hfirst, heq, List.tail_cons]
      · exact absurd (by rw [hempty, List.head?_cons]) hhead

/-- Every state that lines lead to is settled. -/
theorem foldl (hindent : ∀ c ∈ indent, isGap c) (h : Settled indent state) (lines : List Text) :
    Settled indent (lines.foldl (LayoutState.step indent) state) := by
  induction lines generalizing state with
  | nil => exact h
  | cons line lines ih => exact ih (h.step hindent line)

/-- An empty line is put out where it stands in the output of a settled state. -/
theorem step_nil {last : Text} {earlier : List Text} (hindent : ∀ c ∈ indent, isGap c)
    (h : Settled indent state) (houtput : state.output = last :: earlier) (hlast : last ≠ [])
    (hopen : endsOpen last = false) : state.step indent [] = state.afterBlank := by
  have hprevious : state.previousBlank = false := by
    rw [← Bool.not_eq_true, h.previousBlank_iff hindent, houtput]
    simpa using hlast
  change state.blankLine = _
  simp [blankLine, afterBlank, houtput, hprevious, hopen]

/-- A settled state is reached through its own output. -/
theorem replay (hindent : ∀ c ∈ indent, isGap c) (h : Settled indent state) :
    state.output.reverse.foldl (LayoutState.step indent) {} = state := by
  induction h with
  | start => rfl
  | @blank state last earlier hstate houtput hlast hopen ih =>
    change ([] :: state.output).reverse.foldl _ _ = _
    rw [List.reverse_cons, List.foldl_append, ih]
    exact hstate.step_nil hindent houtput hlast hopen
  | @line state line hstate hline hkept ih =>
    -- The line comes out with its content, and only that counts when it is laid out again.
    obtain ⟨first, kept, -, houtput, hfirst⟩ := output_step_of_content hindent hline state
    rw [houtput, List.tail_cons] at hkept
    rw [houtput, hkept, List.reverse_cons, List.foldl_append, ih]
    exact step_congr hfirst state

/-- Without the empty line at its end the output of a settled state is that of a settled state too. -/
theorem exists_dropWhile (hindent : ∀ c ∈ indent, isGap c) (h : Settled indent state) :
    ∃ before : LayoutState, Settled indent before ∧ before.output = state.output.dropWhile (·.isEmpty) ∧
      before.output.head? ≠ some [] := by
  by_cases hempty : state.output.head? = some []
  · obtain ⟨before, hbefore, hhead, rfl⟩ := h.exists_afterBlank hindent hempty
    refine ⟨before, hbefore, ?_, hhead⟩
    rw [afterBlank, List.dropWhile_cons_of_pos List.isEmpty_nil, dropWhile_isEmpty hhead]
  · exact ⟨state, h, (dropWhile_isEmpty hempty).symm, hempty⟩

/-- A line of the output that is not empty has content. -/
theorem trim_ne_nil_of_mem (hindent : ∀ c ∈ indent, isGap c) (h : Settled indent state) :
    ∀ line ∈ state.output, line ≠ [] → Text.trim line ≠ [] := by
  induction h with
  | start => simp
  | blank _ _ _ _ ih =>
    refine List.forall_mem_cons.2 ⟨fun hne => absurd rfl hne, ih⟩
  | @line state line hstate hline hkept ih =>
    obtain ⟨first, kept, -, houtput, hfirst⟩ := output_step_of_content hindent hline state
    rw [houtput, List.tail_cons] at hkept
    rw [houtput, hkept]
    exact List.forall_mem_cons.2 ⟨fun _ => hfirst ▸ hline, ih⟩

/-- Before a blank line of the output stands a line that is not blank and does not end with an opening bracket. -/
theorem isChain_output (hindent : ∀ c ∈ indent, isGap c) (h : Settled indent state) :
    state.output.IsChain fun line before =>
      Text.trim line = [] → Text.trim before ≠ [] ∧ endsOpen before = false := by
  induction h with
  | start => exact .nil
  | @blank state last earlier hstate houtput hlast hopen ih =>
    have hcontent := hstate.trim_ne_nil_of_mem hindent last (by simp [houtput]) hlast
    rw [afterBlank, houtput]
    rw [houtput] at ih
    exact .cons_cons (fun _ => ⟨hcontent, hopen⟩) ih
  | @line state line hstate hline hkept ih =>
    obtain ⟨first, kept, -, houtput, hfirst⟩ := output_step_of_content hindent hline state
    rw [houtput, List.tail_cons] at hkept
    rw [houtput, hkept]
    exact List.isChain_cons.2 ⟨fun _ _ hblank => absurd (hfirst.symm.trans hblank) hline, ih⟩

/-- The first line of the output is not blank. -/
theorem trim_getLast_ne_nil (hindent : ∀ c ∈ indent, isGap c) (h : Settled indent state) :
    ∀ line ∈ state.output.getLast?, Text.trim line ≠ [] := by
  induction h with
  | start => simp
  | @blank state last earlier hstate houtput hlast hopen ih =>
    rw [afterBlank, houtput, List.getLast?_cons_cons]
    rwa [houtput] at ih
  | @line state line hstate hline hkept ih =>
    obtain ⟨first, kept, -, houtput, hfirst⟩ := output_step_of_content hindent hline state
    rw [houtput, List.tail_cons] at hkept
    rw [houtput, hkept]
    cases hstateOutput : state.output with
    | nil =>
      intro other hother
      rw [List.getLast?_singleton, Option.mem_some] at hother
      rwa [← hother, hfirst]
    | cons last earlier =>
      rw [List.getLast?_cons_cons]
      rwa [hstateOutput] at ih

end Settled

end LayoutState

/-! ### Laid-out code -/

/-- Code in the form that a layout gives to code that is not all blank. What follows the last line break is no line. -/
structure NormalForm (text : Text) : Prop where
  /-- It ends with exactly one line break. -/
  one_last_break : ∃ front last, text = front ++ [last] ++ ['\n'] ∧ last ≠ '\n'
  /-- The first line is not blank. -/
  first_line : ∀ line ∈ text.lines.dropLast.head?, Text.trim line ≠ []
  /-- The last line is not blank. -/
  last_line : ∀ line ∈ text.lines.dropLast.getLast?, Text.trim line ≠ []
  /-- No blank line follows another one. -/
  single_blanks : text.lines.dropLast.IsChain fun line next => Text.trim line = [] → Text.trim next ≠ []
  /-- No blank line follows a line that ends with an opening bracket. -/
  no_blank_after_open : text.lines.dropLast.IsChain fun line next => endsOpen line = true → Text.trim next ≠ []
  /-- There is one kind of line break. -/
  no_return : '\r' ∉ text

/-- The state from which the layout of a code is written down, one line after the other. -/
structure LayoutState.Yields (indent code : Text) (state : LayoutState) : Prop where
  /-- It is reached through its own output. -/
  settled : Settled indent state
  /-- The last line is not empty. -/
  head_ne : state.output.head? ≠ some []
  /-- No line holds a line break. -/
  no_break : ∀ line ∈ state.output, '\n' ∉ line
  /-- No line holds a carriage return. -/
  no_return : ∀ line ∈ state.output, '\r' ∉ line
  /-- The lines have the content of the code. -/
  content_eq : Text.contentOf state.output.reverse = Text.content (Text.normaliseBreaks code)
  /-- They are the laid-out code. -/
  layout_eq : layoutWith indent code = Text.join ['\n'] state.output.reverse ++ ['\n']

/-- The layout of any code is written down from such a state. -/
theorem exists_yields {indent : Text} (hindent : ∀ c ∈ indent, isGap c) (code : Text) :
    ∃ state : LayoutState, state.Yields indent code := by
  let final := (Text.normaliseBreaks code).lines.foldl (LayoutState.step indent) {}
  have hsettled : LayoutState.Settled indent final := LayoutState.Settled.start.foldl hindent _
  obtain ⟨state, hstate, houtput, hhead⟩ := hsettled.exists_dropWhile hindent
  -- A character that the lines of the code do not hold is not in the output either.
  have hnotMem : ∀ c, isGap c = false → (∀ line ∈ (Text.normaliseBreaks code).lines, c ∉ line) →
      ∀ line ∈ state.output, c ∉ line := by
    intro c hgap hlines line hline
    rw [houtput] at hline
    exact LayoutState.notMem_foldl_step hindent hgap (fun _ hmem => absurd hmem List.not_mem_nil) hlines line
      ((List.dropWhile_sublist _).subset hline)
  refine ⟨state, ?_⟩
  constructor
  · exact hstate
  · exact hhead
  · exact hnotMem '\n' rfl fun line hline => Text.break_notMem_of_mem_lines hline
  · exact hnotMem '\r' rfl fun line hline hmem =>
      Text.return_notMem_normaliseBreaks code (Text.mem_of_mem_line hline hmem)
  · rw [houtput, Text.contentOf_reverse, contentOf_dropWhile_isEmpty, ← Text.contentOf_reverse,
      LayoutState.contentOf_foldl_step hindent]
    rfl
  · rw [houtput]
    rfl

namespace LayoutState.Yields

variable {indent code : Text} {state : LayoutState}

/-- The last line has content, if there is a line at all. -/
theorem trim_head_ne_nil (hindent : ∀ c ∈ indent, isGap c) (h : state.Yields indent code) :
    ∀ line ∈ state.output.head?, Text.trim line ≠ [] := by
  intro line hline
  refine h.settled.trim_ne_nil_of_mem hindent line (List.mem_of_mem_head? hline) ?_
  rintro rfl
  exact h.head_ne hline

/-- There are no lines exactly when the code has no content. -/
theorem output_eq_nil_iff (hindent : ∀ c ∈ indent, isGap c) (h : state.Yields indent code) :
    state.output = [] ↔ Text.content (Text.normaliseBreaks code) = [] := by
  rw [← h.content_eq]
  constructor
  · intro hnil
    rw [hnil]
    rfl
  · intro hnil
    cases houtput : state.output with
    | nil => rfl
    | cons last earlier =>
      have hlast := h.trim_head_ne_nil hindent last (by simp [houtput])
      rw [houtput, Text.contentOf_reverse, Text.contentOf_cons hlast] at hnil
      simp at hnil

/-- The lines of the layout, where there are any. -/
theorem layoutWith_eq (h : state.Yields indent code) (hne : state.output ≠ []) :
    layoutWith indent code = Text.unlines state.output.reverse := by
  rw [h.layout_eq]
  exact Text.join_append_break (by simpa using hne)

theorem lines_layoutWith (h : state.Yields indent code) (hne : state.output ≠ []) :
    (layoutWith indent code).lines = state.output.reverse ++ [[]] := by
  rw [h.layoutWith_eq hne]
  exact Text.lines_unlines fun line hline => h.no_break line (List.mem_reverse.1 hline)

/-- The layout is written with one kind of line break. -/
theorem return_notMem_layoutWith (h : state.Yields indent code) : '\r' ∉ layoutWith indent code := by
  by_cases hnil : state.output = []
  · rw [h.layout_eq, hnil]
    decide
  · rw [h.layoutWith_eq hnil]
    intro hmem
    obtain ⟨line, hline, hin⟩ := List.mem_flatMap.1 hmem
    rcases List.mem_append.1 hin with hleft | hright
    · exact h.no_return line (List.mem_reverse.1 hline) hleft
    · exact absurd hright (by decide)

/-- The layout of code with content is in normal form. -/
theorem normalForm (hindent : ∀ c ∈ indent, isGap c) (h : state.Yields indent code) (hne : state.output ≠ []) :
    NormalForm (layoutWith indent code) := by
  have hlines : (layoutWith indent code).lines.dropLast = state.output.reverse := by
    rw [h.lines_layoutWith hne, List.dropLast_concat]
  have hchain := List.isChain_reverse.2 (h.settled.isChain_output hindent)
  constructor
  · -- The last line is not empty and holds no line break.
    obtain ⟨last, earlier, houtput⟩ := List.exists_cons_of_ne_nil hne
    have hlast : last ≠ [] := by simpa [houtput] using h.head_ne
    obtain ⟨front, final, hfinal⟩ := (List.eq_nil_or_concat last).resolve_left hlast
    refine ⟨Text.unlines earlier.reverse ++ front, final, ?_, ?_⟩
    · rw [h.layoutWith_eq hne, houtput, List.reverse_cons, Text.unlines_append, hfinal]
      simp [Text.unlines]
    · rintro rfl
      exact h.no_break last (by simp [houtput]) (by simp [hfinal])
  · rw [hlines, List.head?_reverse]
    exact h.settled.trim_getLast_ne_nil hindent
  · rw [hlines, List.getLast?_reverse]
    exact h.trim_head_ne_nil hindent
  · rw [hlines]
    exact hchain.imp fun line next hnext hblank hcontent => (hnext hcontent).1 hblank
  · rw [hlines]
    refine hchain.imp fun line next hnext hopen hcontent => ?_
    rw [(hnext hcontent).2] at hopen
    exact absurd hopen Bool.false_ne_true
  · exact h.return_notMem_layoutWith

/-- Laid out again, the layout of code with content comes out as it is. -/
theorem layoutWith_layoutWith (hindent : ∀ c ∈ indent, isGap c) (h : state.Yields indent code)
    (hne : state.output ≠ []) : layoutWith indent (layoutWith indent code) = layoutWith indent code := by
  -- The lines lead back to the state, and what follows the last line break is a blank line.
  have hfinal : (layoutWith indent code).lines.foldl (LayoutState.step indent) {} = state.step indent [] := by
    rw [h.lines_layoutWith hne, List.foldl_append, h.settled.replay hindent, List.foldl_cons, List.foldl_nil]
  have houtput : (state.step indent []).output.dropWhile (·.isEmpty) = state.output := by
    rcases output_step hindent state [] with ⟨-, hsame | hempty⟩ | ⟨hcontent, -⟩
    · rw [hsame, dropWhile_isEmpty h.head_ne]
    · rw [hempty, List.dropWhile_cons_of_pos List.isEmpty_nil, dropWhile_isEmpty h.head_ne]
    · exact absurd rfl hcontent
  calc layoutWith indent (layoutWith indent code)
      = Text.join ['\n'] ((state.step indent []).output.dropWhile (·.isEmpty)).reverse ++ ['\n'] := by
        rw [layoutWith, Text.normaliseBreaks_eq_self h.return_notMem_layoutWith, hfinal]
    _ = layoutWith indent code := by rw [houtput, h.layout_eq]

end LayoutState.Yields

/-- Laid-out code is in normal form. Code without content is laid out as a single line break; all other code ends with
exactly one line break and has no blank lines at its ends, after one another or after an opening bracket. In both
cases another layout changes nothing. -/
theorem layoutWith_stable {indent : Text} (hindent : ∀ c ∈ indent, isGap c) (code : Text) :
    (Text.content (Text.normaliseBreaks code) = [] → layoutWith indent code = ['\n']) ∧
      (Text.content (Text.normaliseBreaks code) ≠ [] → NormalForm (layoutWith indent code)) ∧
      layoutWith indent (layoutWith indent code) = layoutWith indent code := by
  obtain ⟨state, hstate⟩ := exists_yields hindent code
  rw [Ne, ← hstate.output_eq_nil_iff hindent]
  by_cases hnil : state.output = []
  · -- A single line break is two blank lines, of which nothing is put out.
    have hbreak : layoutWith indent code = ['\n'] := by
      rw [hstate.layout_eq, hnil]
      rfl
    refine ⟨fun _ => hbreak, fun hne => absurd hnil hne, ?_⟩
    rw [hbreak]
    rfl
  · exact ⟨fun h => absurd h hnil, fun _ => hstate.normalForm hindent hnil,
      hstate.layoutWith_layoutWith hindent hnil⟩

/-- A tab and a space as indent, three kinds of line break, blank lines after an opening bracket, in a comment, doubled
and before a closing bracket. -/
theorem layoutWith_stable_comment :
    (∀ c ∈ txt "\t ", isGap c) ∧
      let code := txt "\n run(function () \x7b\r\n\r\n  /* a\r\n * b\r\r*/ c();  \n\n\n d(); \n\n  \x7d);\n\n"
      Text.content (Text.normaliseBreaks code) ≠ [] ∧ NormalForm (layoutWith (txt "\t ") code) ∧
        layoutWith (txt "\t ") (layoutWith (txt "\t ") code) = layoutWith (txt "\t ") code := by
  have hindent : ∀ c ∈ txt "\t ", isGap c := List.all_eq_true.1 rfl
  refine ⟨hindent, ?_⟩
  intro code
  have hcontent : Text.content (Text.normaliseBreaks code) ≠ [] := by decide
  obtain ⟨-, hnormal, hstable⟩ := layoutWith_stable hindent code
  exact ⟨hcontent, hnormal hcontent, hstable⟩

end AngularUplift
