import AngularUplift.Proofs.TypeScript.NormalForm
import Mathlib.Algebra.GroupWithZero.Nat
import Mathlib.Algebra.Order.Group.Int
import Mathlib.Algebra.Order.Group.Nat

/-!
# Indentation and brackets

The levels of indentation of a layout are a stack: one line may open several brackets as one level, and later lines
close parts of levels. Only lines of code change the stack, by the brackets that were counted in them. The sum of the
levels is the depth of the brackets, so lines that never close more than they have opened never reach the levels below
their own, and lines that close all that they have opened leave the stack as they found it.

## Main definitions

* `readLine`, `codeScans`, `leavesComment`: the lines of code among lines, with their brackets, and whether lines leave
  a block comment open.
* `clampedDepth`: the depth of the brackets, which never falls below zero.
* `BalancedFrom`: lines of code that never close what was open before them, and close all that they open.

## Main statements

* `closeLevels_append`: closing no more than the upper levels leaves the lower ones alone.
* `LayoutState.levels_after`: the levels after lines depend on the brackets of their lines of code only.
* `LayoutState.exists_lastLine`: where the last line of a layout is put.
* `indentation_compositional`: a balanced block does not matter to the indentation of what follows it.
-/

namespace AngularUplift

/-! ### Lines of code -/

/-- The brackets of a line, if it is a line of code, and whether a block comment is open after it. The flag says whether
one is open before it. -/
def readLine (inComment : Bool) (line : Text) : Option LineScan × Bool :=
  match Text.trim line with
  | [] => (none, inComment)
  | content =>
    if inComment then (none, !content.contains (txt "*/"))
    else (some (scanLine content), (scanLine content).inComment)

theorem readLine_of_blank {line : Text} (h : Text.trim line = []) (inComment : Bool) :
    readLine inComment line = (none, inComment) := by
  rw [readLine, h]

theorem readLine_of_content {line : Text} (h : Text.trim line ≠ []) (inComment : Bool) :
    readLine inComment line =
      if inComment then (none, !(Text.trim line).contains (txt "*/"))
      else (some (scanLine (Text.trim line)), (scanLine (Text.trim line)).inComment) := by
  rw [readLine]
  split
  · contradiction
  · rfl

/-- Whether a block comment is open after lines; the flag says whether one is open before them. -/
def leavesComment (inComment : Bool) (lines : List Text) : Bool :=
  lines.foldl (fun inComment line => (readLine inComment line).2) inComment

/-- The brackets of the lines of code among lines; the flag says whether a block comment is open before them. -/
def codeScans : (inComment : Bool) → List Text → List LineScan
  | _, [] => []
  | inComment, line :: rest => (readLine inComment line).1.toList ++ codeScans (readLine inComment line).2 rest

theorem codeScans_append (inComment : Bool) (lines others : List Text) :
    codeScans inComment (lines ++ others) =
      codeScans inComment lines ++ codeScans (leavesComment inComment lines) others := by
  induction lines generalizing inComment with
  | nil => rfl
  | cons line lines ih =>
    rw [List.cons_append, codeScans, ih, codeScans, List.append_assoc]
    rfl

theorem leavesComment_append (inComment : Bool) (lines others : List Text) :
    leavesComment inComment (lines ++ others) = leavesComment (leavesComment inComment lines) others :=
  List.foldl_append ..

/-! ### Depth -/

namespace LineScan

/-- The depth after the closing brackets at the beginning of a line. -/
def inner (scan : LineScan) (depth : Int) : Int := depth - scan.leading

/-- The depth after a line. -/
def outer (scan : LineScan) (depth : Int) : Int := scan.inner depth + scan.opened - scan.closed

end LineScan

/-- The depth of the brackets after lines of code. It stays at zero where more is closed than is open. -/
def clampedDepth (scans : List LineScan) : Int :=
  scans.foldl (fun depth scan => max 0 (max 0 (scan.inner depth) + scan.opened - scan.closed)) 0

/-- The depth never falls below zero in lines of code, neither after the closing brackets at the beginning of a line nor
after a line, and is zero in the end. -/
def BalancedFrom : (depth : Int) → List LineScan → Prop
  | depth, [] => depth = 0
  | depth, scan :: rest => 0 ≤ scan.inner depth ∧ 0 ≤ scan.outer depth ∧ BalancedFrom (scan.outer depth) rest

/-- Whether lines of code are balanced is decidable. -/
instance decidableBalancedFrom : (depth : Int) → (scans : List LineScan) → Decidable (BalancedFrom depth scans)
  | depth, [] => inferInstanceAs (Decidable (depth = 0))
  | depth, scan :: rest =>
    have : Decidable (BalancedFrom (scan.outer depth) rest) := decidableBalancedFrom _ rest
    inferInstanceAs (Decidable (0 ≤ scan.inner depth ∧ 0 ≤ scan.outer depth ∧ BalancedFrom (scan.outer depth) rest))

/-! ### Levels -/

/-- Closing brackets takes their number off the sum of the levels. -/
theorem sum_closeLevels (count : Nat) (levels : List Nat) : (closeLevels count levels).sum = levels.sum - count := by
  fun_induction closeLevels count levels with
  | case1 count => simp
  | case2 level rest => simp
  | case3 count level rest hcount hlt =>
    rw [List.sum_cons, List.sum_cons]
    omega
  | case4 count level rest hcount hlt ih =>
    rw [ih, List.sum_cons]
    omega

/-- A level that is closed goes away, and no level is left at zero. -/
theorem pos_of_mem_closeLevels {count : Nat} {levels : List Nat} (h : ∀ level ∈ levels, 0 < level) :
    ∀ level ∈ closeLevels count levels, 0 < level := by
  fun_induction closeLevels count levels with
  | case1 count => exact h
  | case2 level rest => exact h
  | case3 count level rest hcount hlt =>
    exact List.forall_mem_cons.2 ⟨Nat.sub_pos_of_lt hlt, (List.forall_mem_cons.1 h).2⟩
  | case4 count level rest hcount hlt ih => exact ih (List.forall_mem_cons.1 h).2

/-- Closing no more brackets than the upper levels have leaves the lower ones alone. -/
theorem closeLevels_append {count : Nat} {upper : List Nat} (h : count ≤ upper.sum) (lower : List Nat) :
    closeLevels count (upper ++ lower) = closeLevels count upper ++ lower := by
  fun_induction closeLevels count upper with
  | case1 count =>
    obtain rfl : count = 0 := Nat.le_zero.1 h
    cases lower <;> rfl
  | case2 level rest => rfl
  | case3 count level rest hcount hlt => rw [List.cons_append, closeLevels, if_neg hcount, if_pos hlt, List.cons_append]
  | case4 count level rest hcount hlt ih =>
    rw [List.sum_cons] at h
    rw [List.cons_append, closeLevels, if_neg hcount, if_neg hlt, ih (by omega)]

namespace LineScan

/-- The levels after a line of code. -/
def levels (scan : LineScan) (before : List Nat) : List Nat :=
  let outer := closeLevels scan.leading before
  if scan.closed < scan.opened then (scan.opened - scan.closed) :: outer
  else closeLevels (scan.closed - scan.opened) outer

/-- The sum of the levels follows the depth of the brackets. -/
theorem sum_levels (scan : LineScan) (before : List Nat) :
    (scan.levels before).sum = before.sum - scan.leading + scan.opened - scan.closed := by
  rw [levels]
  split
  · rw [List.sum_cons, sum_closeLevels]
    omega
  · rw [sum_closeLevels, sum_closeLevels]
    omega

theorem pos_of_mem_levels (scan : LineScan) {before : List Nat} (h : ∀ level ∈ before, 0 < level) :
    ∀ level ∈ scan.levels before, 0 < level := by
  rw [levels]
  split
  · next hlt => exact List.forall_mem_cons.2 ⟨Nat.sub_pos_of_lt hlt, pos_of_mem_closeLevels h⟩
  · exact pos_of_mem_closeLevels (pos_of_mem_closeLevels h)

/-- A line that closes no more than the upper levels have leaves the lower ones alone. -/
theorem levels_append (scan : LineScan) {upper : List Nat} (hinner : scan.leading ≤ upper.sum)
    (houter : scan.closed ≤ upper.sum - scan.leading + scan.opened) (lower : List Nat) :
    scan.levels (upper ++ lower) = scan.levels upper ++ lower := by
  rw [levels, levels, closeLevels_append hinner]
  split
  · rw [List.cons_append]
  · -- What the line closes more than it opens is still there after its leading brackets.
    refine closeLevels_append ?_ lower
    rw [sum_closeLevels]
    omega

end LineScan

/-- The levels after lines of code. -/
def openLevels (scans : List LineScan) (before : List Nat) : List Nat :=
  scans.foldl (fun levels scan => scan.levels levels) before

theorem openLevels_append (scans others : List LineScan) (before : List Nat) :
    openLevels (scans ++ others) before = openLevels others (openLevels scans before) :=
  List.foldl_append ..

/-- Positive levels whose sum is zero are none. -/
theorem eq_nil_of_sum_eq_zero {levels : List Nat} (hpos : ∀ level ∈ levels, 0 < level) (hsum : levels.sum = 0) :
    levels = [] := by
  cases levels with
  | nil => rfl
  | cons level rest =>
    have hlevel := hpos level List.mem_cons_self
    rw [List.sum_cons] at hsum
    omega

/-- Balanced lines of code close the levels that they open, and leave the lower ones alone. -/
theorem openLevels_of_balanced {scans : List LineScan} {upper : List Nat} (hpos : ∀ level ∈ upper, 0 < level)
    (h : BalancedFrom upper.sum scans) (lower : List Nat) : openLevels scans (upper ++ lower) = lower := by
  -- The invariant is that the depth is the sum of the levels that the block has opened.
  induction scans generalizing upper with
  | nil =>
    rw [eq_nil_of_sum_eq_zero hpos (Int.natCast_eq_zero.1 h)]
    rfl
  | cons scan scans ih =>
    obtain ⟨hinner, houter, hrest⟩ := h
    simp only [LineScan.outer, LineScan.inner] at hinner houter
    -- As the depth does not fall below zero, the line closes only brackets of the block.
    have hleading : scan.leading ≤ upper.sum := by omega
    have hclosed : scan.closed ≤ upper.sum - scan.leading + scan.opened := by omega
    rw [openLevels, List.foldl_cons, scan.levels_append hleading hclosed]
    refine ih (scan.pos_of_mem_levels hpos) ?_
    have hdepth : ((scan.levels upper).sum : Int) = scan.outer upper.sum := by
      rw [scan.sum_levels, LineScan.outer, LineScan.inner]
      omega
    rwa [hdepth]

/-- After any lines of code the levels are positive, and their sum is the depth of the brackets. -/
theorem openLevels_spec (scans : List LineScan) :
    (∀ level ∈ openLevels scans [], 0 < level) ∧ ((openLevels scans []).sum : Int) = clampedDepth scans := by
  induction scans using List.reverseRecOn with
  | nil => exact ⟨fun _ hlevel => absurd hlevel List.not_mem_nil, rfl⟩
  | append_singleton scans scan ih =>
    obtain ⟨hpos, hsum⟩ := ih
    rw [clampedDepth, openLevels, List.foldl_concat, List.foldl_concat, ← clampedDepth, ← openLevels, ← hsum,
      scan.sum_levels, LineScan.inner]
    refine ⟨scan.pos_of_mem_levels hpos, ?_⟩
    omega

/-! ### Layouts -/

namespace LayoutState

/-- The state after lines. -/
def after (indent : Text) (lines : List Text) : LayoutState := lines.foldl (step indent) {}

/-- What one more line does to the comment and the levels of a state. -/
theorem step_eq_readLine (indent : Text) (state : LayoutState) (line : Text) :
    (state.step indent line).inComment = (readLine state.inComment line).2 ∧
      (state.step indent line).levels =
        (readLine state.inComment line).1.elim state.levels fun scan => scan.levels state.levels := by
  by_cases hline : Text.trim line = []
  · -- A blank line is put out or not, and changes nothing else.
    rw [readLine_of_blank hline, step, hline]
    simp only [blankLine]
    split
    · exact ⟨rfl, rfl⟩
    · split <;> exact ⟨rfl, rfl⟩
  · rw [readLine_of_content hline, step_of_content hline]
    split <;> exact ⟨rfl, rfl⟩

/-- The comment and the levels of a state after more lines. -/
theorem foldl_step_eq (indent : Text) (state : LayoutState) (lines : List Text) :
    (lines.foldl (step indent) state).inComment = leavesComment state.inComment lines ∧
      (lines.foldl (step indent) state).levels =
        openLevels (codeScans state.inComment lines) state.levels := by
  induction lines generalizing state with
  | nil => exact ⟨rfl, rfl⟩
  | cons line lines ih =>
    obtain ⟨hcomment, hlevels⟩ := step_eq_readLine indent state line
    obtain ⟨hcomment', hlevels'⟩ := ih (state.step indent line)
    rw [List.foldl_cons, hcomment', hlevels', hcomment, hlevels, codeScans, openLevels_append]
    refine ⟨rfl, ?_⟩
    cases (readLine state.inComment line).1 <;> rfl

theorem inComment_after (indent : Text) (lines : List Text) :
    (after indent lines).inComment = leavesComment false lines :=
  (foldl_step_eq indent {} lines).1

/-- The levels after lines depend on the brackets of their lines of code only. -/
theorem levels_after (indent : Text) (lines : List Text) :
    (after indent lines).levels = openLevels (codeScans false lines) [] :=
  (foldl_step_eq indent {} lines).2

/-- A balanced block that begins and ends outside of block comments leaves the levels as they were before it. -/
theorem levels_after_append (indent : Text) {lines block : List Text} (hlines : leavesComment false lines = false)
    (hblock : BalancedFrom 0 (codeScans false block)) :
    (after indent (lines ++ block)).levels = (after indent lines).levels := by
  rw [levels_after, codeScans_append, hlines, openLevels_append, ← levels_after indent]
  have hnone : ∀ level ∈ ([] : List Nat), 0 < level := fun _ hlevel => absurd hlevel List.not_mem_nil
  exact openLevels_of_balanced hnone hblock _

/-- The number of levels that a line of code with a content is indented by. -/
def lineLevels (state : LayoutState) (content : Text) : Nat :=
  (closeLevels (scanLine content).leading state.levels).length

end LayoutState

/-- The last line of a text is a content, indented by some levels. -/
def EndsWithLine (indent text : Text) (count : Nat) (content : Text) : Prop :=
  ∃ front : List Text, text = Text.unlines (front ++ [(List.replicate count indent).flatten ++ content])

/-- The layout of lines that are joined by line breaks. -/
theorem layoutWith_join (indent : Text) {lines : List Text} {last : Text}
    (hlines : ∀ line ∈ lines ++ [last], '\n' ∉ line ∧ '\r' ∉ line) :
    layoutWith indent (Text.join ['\n'] (lines ++ [last])) =
      Text.join ['\n'] ((LayoutState.after indent (lines ++ [last])).output.dropWhile (·.isEmpty)).reverse ++
        ['\n'] := by
  have hlast := hlines last (List.mem_append_right _ List.mem_cons_self)
  have hfront : ∀ line ∈ lines, '\n' ∉ line ∧ '\r' ∉ line :=
    fun line hline => hlines line (List.mem_append_left _ hline)
  have hcut : (Text.join ['\n'] (lines ++ [last])).lines = lines ++ [last] := by
    rw [Text.lines_join_append (fun line hline => (hfront line hline).1) (List.cons_ne_nil last []), Text.join,
      Text.lines_eq_singleton hlast.1]
  -- Without carriage returns the breaks stay as they are, and the text is cut into the lines it was joined from.
  have hreturn : '\r' ∉ Text.join ['\n'] (lines ++ [last]) := by
    rw [Text.join_concat, List.mem_append, not_or]
    refine ⟨fun hmem => ?_, hlast.2⟩
    obtain ⟨line, hline, hin⟩ := List.mem_flatMap.1 hmem
    rcases List.mem_append.1 hin with hleft | hright
    · exact (hfront line hline).2 hleft
    · exact absurd hright (by decide)
  rw [layoutWith, Text.normaliseBreaks_eq_self hreturn, hcut]
  rfl

/-- Outside of block comments the last line of code is put behind the levels that its leading closing brackets leave. -/
theorem endsWithLine_layoutWith (indent : Text) {lines : List Text} {last : Text}
    (hcomment : leavesComment false lines = false) (hlast : Text.trim last ≠ [])
    (hlines : ∀ line ∈ lines ++ [last], '\n' ∉ line ∧ '\r' ∉ line) :
    EndsWithLine indent (layoutWith indent (Text.join ['\n'] (lines ++ [last])))
      ((LayoutState.after indent lines).lineLevels (Text.trim last)) (Text.trim last) := by
  let state := LayoutState.after indent lines
  let line := (List.replicate (state.lineLevels (Text.trim last)) indent).flatten ++ Text.trim last
  obtain ⟨kept, hkept⟩ : ∃ kept, (LayoutState.after indent (lines ++ [last])).output = line :: kept := by
    have hstep : LayoutState.after indent (lines ++ [last]) = state.codeLine indent (Text.trim last) := by
      have hcode : state.inComment = false := (LayoutState.inComment_after indent lines).trans hcomment
      rw [LayoutState.after, List.foldl_concat]
      exact (LayoutState.step_of_content hlast state).trans (if_neg (by rw [hcode]; decide))
    rw [hstep]
    exact ⟨_, rfl⟩
  -- The blank lines at the end are dropped, and this line is none.
  have hne : line ≠ [] := List.append_ne_nil_of_right_ne_nil _ hlast
  refine ⟨kept.reverse, ?_⟩
  rw [layoutWith_join indent hlines, hkept,
    List.dropWhile_cons_of_neg (by simpa using hne), List.reverse_cons,
    Text.join_append_break (List.concat_ne_nil _ _)]

/-- Indentation is compositional. After any lines the levels are positive and their sum is the depth of the brackets. A
block that begins and ends outside of block comments and is balanced leaves the levels as they were before it, and a
line after it is indented as it would be without it. -/
theorem indentation_compositional (indent : Text) :
    (∀ lines : List Text,
      (∀ level ∈ (LayoutState.after indent lines).levels, 0 < level) ∧
        ((LayoutState.after indent lines).levels.sum : Int) = clampedDepth (codeScans false lines)) ∧
    ∀ lines block : List Text, leavesComment false lines = false → leavesComment false block = false →
      BalancedFrom 0 (codeScans false block) →
      (LayoutState.after indent (lines ++ block)).levels = (LayoutState.after indent lines).levels ∧
      ∀ line : Text, Text.trim line ≠ [] → (∀ other ∈ lines ++ block ++ [line], '\n' ∉ other ∧ '\r' ∉ other) →
        ∃ count,
          EndsWithLine indent (layoutWith indent (Text.join ['\n'] (lines ++ block ++ [line]))) count
            (Text.trim line) ∧
          EndsWithLine indent (layoutWith indent (Text.join ['\n'] (lines ++ [line]))) count (Text.trim line) := by
  refine ⟨fun lines => ?_, fun lines block hlines hblock hbalanced => ?_⟩
  · rw [LayoutState.levels_after]
    exact openLevels_spec _
  · have hlevels := LayoutState.levels_after_append indent hlines hbalanced
    refine ⟨hlevels, fun line hline hbreaks => ⟨(LayoutState.after indent lines).lineLevels (Text.trim line), ?_, ?_⟩⟩
    · have hcomment : leavesComment false (lines ++ block) = false := by rw [leavesComment_append, hlines, hblock]
      have hends := endsWithLine_layoutWith indent hcomment hline hbreaks
      rwa [LayoutState.lineLevels, hlevels, ← LayoutState.lineLevels] at hends
    · refine endsWithLine_layoutWith indent hlines hline fun other hother => hbreaks other ?_
      rw [List.append_assoc]
      rcases List.mem_append.1 hother with hfront | hback
      · exact List.mem_append_left _ hfront
      · exact List.mem_append_right _ (List.mem_append_right _ hback)

/-- A block with a blank line, a comment with brackets in it, a line that opens three brackets at once and lines that
begin by closing some of them, between a call that is open and the line that closes it. -/
theorem indentation_compositional_call :
    let lines := [txt "run(function () \x7b", txt "first();"]
    let block := [txt "go([\x7b a: 1 \x7d, \x7b", txt "/* (", txt " * [", txt "*/ b: 2", [],
      txt "\x7d], function () \x7b", txt "next(')');", txt "\x7d);"]
    let line := txt "  \x7d);"
    leavesComment false lines = false ∧ leavesComment false block = false ∧
      BalancedFrom 0 (codeScans false block) ∧ Text.trim line ≠ [] ∧
      (∀ other ∈ lines ++ block ++ [line], '\n' ∉ other ∧ '\r' ∉ other) ∧
      ∃ count,
        EndsWithLine (txt "  ") (layoutWith (txt "  ") (Text.join ['\n'] (lines ++ block ++ [line]))) count
          (Text.trim line) ∧
        EndsWithLine (txt "  ") (layoutWith (txt "  ") (Text.join ['\n'] (lines ++ [line]))) count
          (Text.trim line) := by
  intro lines block line
  have hlines : leavesComment false lines = false := by decide
  have hblock : leavesComment false block = false := by decide
  have hbalanced : BalancedFrom 0 (codeScans false block) := by decide
  have hline : Text.trim line ≠ [] := by decide
  have hbreaks : ∀ other ∈ lines ++ block ++ [line], '\n' ∉ other ∧ '\r' ∉ other := by decide
  obtain ⟨-, hcompositional⟩ := indentation_compositional (txt "  ")
  obtain ⟨-, hindented⟩ := hcompositional lines block hlines hblock hbalanced
  exact ⟨hlines, hblock, hbalanced, hline, hbreaks, hindented line hline hbreaks⟩

end AngularUplift
