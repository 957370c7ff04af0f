import AngularUplift.Harvest.Basic
import AngularUplift.Proofs.Text.Ink
import Mathlib.Data.List.Chain

/-!
# The comment that keeps leftover code

What a harvest could not place goes into a comment. Lines of nothing but spaces, tabs and semicolons are left out, and
comment marks in the code are broken up, so that the comment ends where its last mark is. Apart from white space
nothing else is lost.

## Main definitions

* `IsLeftoverLine`: a line of nothing but spaces, tabs and semicolons.
* `codeLines`: the other lines of a text.
* `Unclosed`: a text in which no comment ends.

## Main statements

* `ink_erase_leftoverLine`: without the leftover lines, a text has the ink of its other lines.
* `unclosed_replaceFrom`: no comment ends in code whose marks are broken up.
* `unmigratedBlock_cases`: there is no comment, or what it is made of.
* `unmigratedBlock_keeps`: when there is a comment, where it ends, and what it keeps.
-/

namespace AngularUplift

/-! ### Leftover lines -/

/-- A line of nothing but spaces, tabs and semicolons. -/
def IsLeftoverLine (line : Text) : Prop := ∀ c ∈ line, isGap c ∨ c = ';'

/-- Whether a line is nothing but spaces, tabs and semicolons is decidable. -/
instance (line : Text) : Decidable (IsLeftoverLine line) := inferInstanceAs (Decidable (∀ c ∈ line, _))

/-- The lines of a text that are more than spaces, tabs and semicolons. -/
def codeLines (text : Text) : List Text := text.lines.filter fun line => ¬IsLeftoverLine line

theorem codeLines_singleton {line : Text} (h : '\n' ∉ line) :
    codeLines line = if IsLeftoverLine line then [] else [line] := by
  rw [codeLines, Text.lines_eq_singleton h, List.filter_singleton]
  by_cases hline : IsLeftoverLine line <;> simp [hline]

theorem codeLines_append_break (text other : Text) :
    codeLines (text ++ '\n' :: other) = codeLines text ++ codeLines other := by
  rw [codeLines, Text.lines_append_break, List.filter_append, codeLines, codeLines]

theorem endOfLine_eq_some_iff {text : Text} {value : Unit} {rest : Text} :
    Reader.endOfLine text = some (value, rest) ↔ rest = text ∧ ∀ c ∈ text.head?, c = '\n' := by
  cases text with
  | nil => simp [Reader.endOfLine, eq_comm]
  | cons c text =>
    simp only [Reader.endOfLine, Option.ite_none_right_eq_some, beq_iff_eq, Option.some.injEq, Prod.mk.injEq,
      List.head?_cons, Option.mem_def, forall_eq']
    exact ⟨fun ⟨hc, _, hrest⟩ => ⟨hrest.symm, hc⟩, fun ⟨hrest, hc⟩ => ⟨hc, trivial, hrest.symm⟩⟩

/-- A leftover line is read with its line break, and no other line is read at all. -/
theorem read_leftoverLine {line tail : Text} (hline : '\n' ∉ line) (htail : ∀ c ∈ tail.head?, c = '\n') :
    leftoverLine.read (line ++ tail) = if IsLeftoverLine line then some ((), tail.drop 1) else none := by
  split
  · next hleft =>
    refine Reader.bind_eq_some_iff.2 ⟨line, tail, Reader.run_append ?_ ?_, ?_⟩
    · intro c hc
      simpa using hleft c hc
    · intro c hc
      rw [htail c hc]
      decide
    · refine Reader.bind_eq_some_iff.2 ⟨(), tail, endOfLine_eq_some_iff.2 ⟨rfl, htail⟩, ?_⟩
      cases tail with
      | nil => rfl
      | cons c tail =>
        obtain rfl := htail c rfl
        rfl
  · next hleft =>
    cases hread : leftoverLine.read (line ++ tail) with
    | none => rfl
    | some found =>
      -- What is read ends before a line break, and so with the line.
      obtain ⟨taken, rest, hrun, hend⟩ := Reader.bind_eq_some_iff.1 hread
      obtain ⟨_, _, hend, -⟩ := Reader.bind_eq_some_iff.1 hend
      obtain ⟨hsplit, htaken⟩ := Reader.run_eq_some hrun
      obtain ⟨-, hrest⟩ := endOfLine_eq_some_iff.1 hend
      refine absurd (fun c hc => ?_) hleft
      suffices hmem : c ∈ taken by simpa using htaken c hmem
      rcases List.append_eq_append_iff.1 hsplit with ⟨more, rfl, -⟩ | ⟨more, rfl, hmore⟩
      · exact List.mem_append_left more hc
      · cases more with
        | nil => simpa using hc
        | cons d more =>
          rw [hmore] at hrest
          obtain rfl := hrest d rfl
          exact absurd (List.mem_append_right taken List.mem_cons_self) hline

variable {before after : Text}

/-- Inside a line no leftover line begins, and neither does one at the line break after it. -/
theorem absent_insideLine {d : Char} (hd : d ≠ '\n') {line : Text} (hline : '\n' ∉ line) {mark : Text}
    (hmark : mark.length ≤ 1) : leftoverLine.Absent after (d :: before) (line ++ mark) := by
  have hnone : ∀ (c : Char) (before text : Text), c ≠ '\n' → leftoverLine.at? (c :: before) text = none := by
    intro c before text hc
    exact if_neg (by simpa [leftoverLine, lineStart] using hc)
  induction line generalizing d before with
  | nil =>
    cases mark with
    | nil => exact trivial
    | cons c rest =>
      obtain rfl : rest = [] := List.eq_nil_of_length_eq_zero (Nat.le_zero.1 (Nat.le_of_succ_le_succ hmark))
      exact ⟨hnone d _ _ hd, trivial⟩
  | cons c line ih =>
    obtain ⟨hc, hline⟩ := not_or.1 (mt List.mem_cons.2 hline)
    exact ⟨hnone d _ _ hd, ih (Ne.symm hc) hline⟩

/-- In a line with more than spaces, tabs and semicolons no leftover line begins. -/
theorem absent_leftoverLine {line mark : Text} (hline : '\n' ∉ line) (hleft : ¬IsLeftoverLine line)
    (hmark : mark.length ≤ 1) (hbreak : ∀ c ∈ (mark ++ after).head?, c = '\n') :
    leftoverLine.Absent after before (line ++ mark) := by
  have hread := read_leftoverLine hline hbreak
  rw [if_neg hleft] at hread
  cases line with
  | nil => exact absurd (List.forall_mem_nil _) hleft
  | cons c line =>
    obtain ⟨hc, hline⟩ := not_or.1 (mt List.mem_cons.2 hline)
    have hat : leftoverLine.at? before (c :: line ++ mark ++ after) = none := by
      rw [Pattern.at?, List.append_assoc, hread, Option.map_none, ite_self]
    exact ⟨hat, absent_insideLine (Ne.symm hc) hline hmark⟩

/-- A leftover line is an occurrence at the beginning of a line, together with its line break. -/
theorem at?_leftoverLine (hbefore : before.head?.all (· == '\n') = true) {line mark : Text} (hline : '\n' ∉ line)
    (hleft : IsLeftoverLine line) (hmark : mark = ['\n'] ∨ mark = [] ∧ after = []) :
    leftoverLine.at? before (line ++ mark ++ after) = some ((line ++ mark).length, ()) := by
  have hread : leftoverLine.read (line ++ (mark ++ after)) = some ((), after) := by
    rcases hmark with rfl | ⟨rfl, rfl⟩
    · rw [read_leftoverLine hline (by simp), if_pos hleft]
      rfl
    · rw [read_leftoverLine hline (by simp), if_pos hleft]
      rfl
  rw [Pattern.at?, List.append_assoc, hread]
  simp only [leftoverLine, lineStart, hbefore, if_true, Option.map_some, List.length_append]
  congr 2
  omega

/-- When leftover lines are erased from the beginning of a line on, the ink of the other lines stays. -/
theorem ink_erase_piecesFrom (text : Text) (hbefore : before.head?.all (· == '\n') = true) :
    Text.ink ((leftoverLine.piecesFrom before 0 text).flatMap (Pattern.exchange fun _ _ => [])) =
      Text.ink (codeLines text).flatten := by
  have hplain : ∀ text : Text, (text.map Piece.plain).flatMap (Pattern.exchange fun _ (_ : Unit) => []) = text := by
    intro text
    rw [List.flatMap_map]
    exact List.flatMap_singleton' text
  have hend : ∀ before : Text,
      (leftoverLine.piecesFrom before 0 []).flatMap (Pattern.exchange fun _ _ => []) = [] := by
    intro before
    rw [Pattern.piecesFrom]
    split <;> rfl
  induction text using Text.line_induction generalizing before with
  | last line hline =>
    rw [codeLines_singleton hline]
    split
    · next hleft =>
      have hat := at?_leftoverLine hbefore hline hleft (.inr ⟨rfl, rfl⟩)
      simp only [List.append_nil] at hat
      cases line with
      | nil => rw [hend, List.flatten_nil]
      | cons c line =>
        have hpieces : leftoverLine.piecesFrom before 0 (c :: line ++ []) =
            .found (c :: line) () :: leftoverLine.piecesFrom ((c :: line).reverse ++ before) 0 [] :=
          Pattern.piecesFrom_found (List.cons_ne_nil c line) (by rwa [List.append_nil])
        rw [List.append_nil] at hpieces
        rw [hpieces, List.flatMap_cons, hend]
        rfl
    · next hleft =>
      have habsent : leftoverLine.Absent [] before (line ++ []) := absent_leftoverLine hline hleft (by simp) (by simp)
      have hpieces := Pattern.piecesFrom_append habsent
      rw [List.append_nil, List.append_nil] at hpieces
      rw [hpieces, List.flatMap_append, hplain, hend, List.append_nil, List.flatten_singleton]
  | step line rest hline ih =>
    -- The line goes with its line break, or stays with it; the next line begins after it in any case.
    have hnext := @ih ((line ++ ['\n']).reverse ++ before) (by simp)
    rw [codeLines_append_break, codeLines_singleton hline, List.flatten_append, Text.ink_append, ← hnext]
    rw [← List.singleton_append, ← List.append_assoc]
    split
    · next hleft =>
      rw [Pattern.piecesFrom_found (by simp) (at?_leftoverLine hbefore hline hleft (.inl rfl)), List.flatMap_cons]
      rfl
    · next hleft =>
      have hbreak : Text.ink ['\n'] = [] := rfl
      rw [Pattern.piecesFrom_append (absent_leftoverLine hline hleft (by simp) (by simp)), List.flatMap_append, hplain,
        Text.ink_append, Text.ink_append, hbreak, List.append_nil, List.flatten_singleton]

/-- Without the leftover lines, a text has the ink of its other lines. -/
theorem ink_erase_leftoverLine (text : Text) :
    Text.ink (leftoverLine.erase text) = Text.ink (codeLines text).flatten :=
  ink_erase_piecesFrom text rfl

/-! ### Comment marks -/

/-- A text in which no comment ends: no asterisk stands before a slash. -/
def Unclosed (text : Text) : Prop := text.IsChain fun c d => ¬(c = '*' ∧ d = '/')

/-- Whether a comment ends in a text is decidable. -/
instance (text : Text) : Decidable (Unclosed text) := inferInstanceAs (Decidable (List.IsChain _ text))

/-- A comment ends where an asterisk stands before a slash. -/
theorem startsWith_drop_iff (text : Text) (n : Nat) :
    Text.startsWith (text.drop n) (txt "*/") = true ↔ text[n]? = some '*' ∧ text[n + 1]? = some '/' := by
  have hfirst : text[n]? = (text.drop n)[0]? := by rw [List.getElem?_drop, Nat.add_zero]
  have hsecond : text[n + 1]? = (text.drop n)[1]? := by rw [List.getElem?_drop]
  have hmark : txt "*/" = ['*', '/'] := rfl
  rw [hfirst, hsecond, hmark, Text.startsWith, List.isPrefixOf_iff_prefix]
  generalize text.drop n = rest
  match rest with
  | [] => simp
  | [c] => simp
  | c :: d :: rest => simp [@eq_comm _ c, @eq_comm _ d]

/-- Broken-up marks begin with a slash only where the text does. -/
theorem head?_replaceFrom {text : Text}
    (h : (Text.replaceFrom (txt "*/") (txt "* /") 0 text).head? = some '/') : text.head? = some '/' := by
  cases text with
  | nil => exact h
  | cons c text =>
    rw [Text.replaceFrom] at h
    split at h
    · exact absurd (Option.some.inj h) (by decide)
    · exact h

/-- No comment ends in a text whose marks are broken up. -/
theorem unclosed_replaceFrom (skip : Nat) (text : Text) :
    Unclosed (Text.replaceFrom (txt "*/") (txt "* /") skip text) := by
  induction text generalizing skip with
  | nil => exact List.isChain_nil
  | cons c text ih =>
    cases skip with
    | succ skip => exact ih skip
    | zero =>
      rw [Text.replaceFrom]
      split
      · have hmark : Unclosed (txt "* /") := by decide
        refine List.isChain_append.2 ⟨hmark, ih _, ?_⟩
        rintro d hd e - ⟨rfl, -⟩
        exact absurd (Option.mem_some.1 hd) (by decide)
      · next hstarts =>
        refine List.isChain_cons.2 ⟨?_, ih 0⟩
        rintro d hd ⟨rfl, rfl⟩
        -- The slash is one of the text, so that a mark begins here.
        obtain ⟨rest, rfl⟩ : ∃ rest, text = '/' :: rest := List.head?_eq_some_iff.1 (head?_replaceFrom hd)
        exact hstarts rfl

/-- A comment around code in which no comment ends is closed by its last two characters only. -/
theorem closes_iff {code : Text} (h : Unclosed code) (n : Nat) :
    let block := txt "/*\nTODO: Unmigrated code\n" ++ (code ++ txt "\n*/")
    Text.startsWith (block.drop n) (txt "*/") = true ↔ n + 2 = block.length := by
  intro block
  -- Without its last character the comment is not closed at all.
  obtain ⟨front, hblock, hfront⟩ : ∃ front, block = front ++ ['*'] ++ ['/'] ∧ Unclosed (front ++ ['*']) := by
    refine ⟨txt "/*\nTODO: Unmigrated code\n" ++ (code ++ ['\n']), ?_, ?_⟩
    · simp only [block, List.append_assoc]
      rfl
    · have hopening : Unclosed (txt "/*\nTODO: Unmigrated code\n") := by decide
      rw [List.append_assoc, List.append_assoc]
      refine List.isChain_append.2 ⟨hopening, List.isChain_append.2 ⟨h, by simp, ?_⟩, ?_⟩
      · rintro c - d hd ⟨-, rfl⟩
        exact absurd (Option.mem_some.1 hd) (by decide)
      · rintro c hc d - ⟨rfl, -⟩
        exact absurd (Option.mem_some.1 hc) (by decide)
  have hlength : block.length = front.length + 2 := by rw [hblock]; simp
  rw [startsWith_drop_iff]
  constructor
  · rintro ⟨hstar, hslash⟩
    have hlt : n + 1 < block.length := (List.getElem?_eq_some_iff.1 hslash).1
    by_contra hne
    have hinside : n + 1 < (front ++ ['*']).length := by
      rw [List.length_append, List.length_singleton]
      omega
    rw [hblock, List.getElem?_append_left (by omega)] at hstar
    rw [hblock, List.getElem?_append_left hinside] at hslash
    obtain ⟨_, hstar⟩ := List.getElem?_eq_some_iff.1 hstar
    obtain ⟨_, hslash⟩ := List.getElem?_eq_some_iff.1 hslash
    exact List.isChain_iff_getElem.1 hfront n hinside ⟨hstar, hslash⟩
  · intro hend
    obtain rfl : n = front.length := by omega
    rw [hblock]
    simp

/-! ### The comment -/

/-- What could not be placed leaves no trace when it is blank. Otherwise a comment keeps its ink, and no comment ends
in the code. -/
theorem unmigratedBlock_cases (residual : Text) (preserved : List Text) :
    let kept := Text.ink (codeLines residual).flatten ++ Text.ink preserved.flatten
    unmigratedBlock residual preserved = [] ∧ kept = [] ∨
      kept ≠ [] ∧ ∃ code, Unclosed code ∧ Text.ink code = kept ∧
        unmigratedBlock residual preserved = txt "/*\nTODO: Unmigrated code\n" ++ (code ++ txt "\n*/") := by
  intro kept
  set leftover := Text.removeEmptyLines (leftoverLine.erase residual) with hleftover
  set parts := ((leftover :: preserved).map Text.trim).filter (!·.isEmpty) with hparts
  -- Neither trimming nor leaving out empty parts takes ink away.
  have hink : (parts.map Text.ink).flatten = kept := by
    rw [← Text.ink_flatten, hparts, List.flatten_filter_not_isEmpty, Text.ink_flatten, List.map_map, List.map_cons,
      List.flatten_cons]
    simp only [Function.comp_def, Text.ink_trim]
    rw [← Text.ink_flatten, hleftover, Text.ink_removeEmptyLines, ink_erase_leftoverLine]
  have hblock : unmigratedBlock residual preserved =
      if parts.isEmpty then []
      else txt "/*\nTODO: Unmigrated code\n" ++
        (Text.join ['\n'] parts).replaceAll (txt "*/") (txt "* /") ++ txt "\n*/" := rfl
  rw [hblock]
  by_cases hempty : parts = []
  · refine .inl ⟨by rw [hempty]; rfl, ?_⟩
    rw [← hink, hempty]
    rfl
  · refine .inr ⟨fun hkept => ?_, _, unclosed_replaceFrom 0 (Text.join ['\n'] parts), ?_, ?_⟩
    · -- Every part is trimmed and not empty, so that it has ink.
      obtain ⟨part, hpart⟩ := List.exists_mem_of_ne_nil _ hempty
      obtain ⟨htrimmed, hfull⟩ := List.mem_filter.1 hpart
      obtain ⟨text, -, rfl⟩ := List.mem_map.1 htrimmed
      have hnone := List.flatten_eq_nil_iff.1 (hink.trans hkept) _ (List.mem_map_of_mem hpart)
      rw [Text.ink_trim, ← Text.trim_eq_nil_iff] at hnone
      rw [hnone] at hfull
      exact absurd hfull (by decide)
    · have hmarks : Text.ink (txt "* /") = Text.ink (txt "*/") := by decide
      rw [← hink, ← Text.ink_join]
      exact Text.filter_replaceAll (by simp) hmarks _
    · rw [if_neg (by simpa using hempty), List.append_assoc, Text.replaceAll]

/-- Every line of a text and every preserved text is blank or left out exactly when nothing is kept. -/
theorem kept_eq_nil_iff (residual : Text) (preserved : List Text) :
    Text.ink (codeLines residual).flatten ++ Text.ink preserved.flatten = [] ↔
      (∀ line ∈ residual.lines, (∀ c ∈ line, isBlank c) ∨ IsLeftoverLine line) ∧
        ∀ text ∈ preserved, ∀ c ∈ text, isBlank c := by
  have hflatten : ∀ texts : List Text, Text.ink texts.flatten = [] ↔ ∀ text ∈ texts, ∀ c ∈ text, isBlank c := by
    intro texts
    simp only [Text.ink_flatten, List.flatten_eq_nil_iff, List.forall_mem_map, Text.ink_eq_nil_iff]
  rw [List.append_eq_nil_iff, hflatten, hflatten]
  refine and_congr_left fun _ => forall_congr' fun line => ?_
  rw [codeLines, List.mem_filter, decide_eq_true_iff, and_imp, or_comm, or_iff_not_imp_left]

/-- Every line with more than spaces, tabs and semicolons stands in the comment, apart from white space. -/
theorem ink_infix_unmigratedBlock {residual line : Text} (h : line ∈ codeLines residual) (preserved : List Text) :
    Text.ink line <:+: Text.ink (unmigratedBlock residual preserved) := by
  have hline : Text.ink line <:+: Text.ink (codeLines residual).flatten := by
    rw [Text.ink_flatten]
    exact List.infix_of_mem_flatten (List.mem_map_of_mem h)
  rcases unmigratedBlock_cases residual preserved with ⟨-, hkept⟩ | ⟨-, code, -, hink, hblock⟩
  · rw [(List.append_eq_nil_iff.1 hkept).1] at hline
    rw [List.infix_nil.1 hline]
    exact List.nil_infix
  · rw [hblock, Text.ink_append, Text.ink_append, hink]
    exact (hline.trans (List.prefix_append ..).isInfix).trans
      (((List.prefix_append ..).isInfix).trans (List.suffix_append ..).isInfix)

/-- There is no comment exactly when every line is white space or nothing but spaces, tabs and semicolons, and every
preserved text is white space. Otherwise the comment is closed by its last two characters only, and between its first
line and its last mark it keeps, apart from white space, the lines that are more than spaces, tabs and semicolons,
and then the preserved texts. -/
theorem unmigratedBlock_keeps (residual : Text) (preserved : List Text) :
    let block := unmigratedBlock residual preserved
    (block = [] ↔ (∀ line ∈ residual.lines, (∀ c ∈ line, isBlank c) ∨ IsLeftoverLine line) ∧
      ∀ text ∈ preserved, ∀ c ∈ text, isBlank c) ∧
    (block = [] ∨ ∃ code, block = txt "/*\nTODO: Unmigrated code\n" ++ (code ++ txt "\n*/") ∧
      (∀ n, Text.startsWith (block.drop n) (txt "*/") = true ↔ n + 2 = block.length) ∧
      Text.ink code = Text.ink (codeLines residual).flatten ++ Text.ink preserved.flatten) := by
  intro block
  rw [← kept_eq_nil_iff]
  rcases unmigratedBlock_cases residual preserved with ⟨hnone, hkept⟩ | ⟨hkept, code, hunclosed, hink, hblock⟩
  · exact ⟨⟨fun _ => hkept, fun _ => hnone⟩, .inl hnone⟩
  · refine ⟨⟨fun hnone => ?_, fun hnone => absurd hnone hkept⟩, .inr ⟨code, hblock, fun n => ?_, hink⟩⟩
    · exact absurd (hblock.symm.trans hnone) (by simp)
    · rw [show block = _ from hblock]
      exact closes_iff hunclosed n

end AngularUplift
