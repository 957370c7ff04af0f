import AngularUplift.Proofs.Text.Comment
import AngularUplift.Text.Statement

/-!
# Where statements end

The scan for the end of a statement counts the delimiters of all kinds together, passes over string literals, and
remembers whether it has come to anything but white space. Code in which literals are closed and delimiters are
matched leaves it as it was, at the same depth and outside a literal. So where a statement ends is decided by what
stands behind such code.

## Main definitions

* `Text.WellNested`: code with closed literals and matched delimiters.

## Main statements

* `Text.statementEnd_bounds`: a statement ends in its text, and not before it starts.
* `Text.statementLength_append`: the scan passes over well-nested code.
* `Text.statementEnd_wellNested`: the statement that well-nested code is ends where the code does.
-/

namespace AngularUplift

namespace Text

/-! ### Bounds -/

/-- A statement ends in the text. -/
theorem statementLength_le (n : Nesting) (content : Bool) (text : Text) :
    statementLength n content text ≤ text.length := by
  induction text generalizing n content with
  | nil => exact Nat.le_refl _
  | cons c cs ih =>
    rw [statementLength, List.length_cons]
    -- Each branch stops here or counts this character and goes on with the others.
    repeat' split
    all_goals first | omega | exact Nat.succ_le_succ (ih ..)

/-- The end of the statement that starts at a position in a text, by the scan from there on. -/
theorem statementEnd_eq {text : Text} {position : Nat} (h : position ≤ text.length) :
    text.statementEnd position = position + statementLength {} false (text.drop position) := by
  rw [statementEnd]
  split
  · next hle =>
    rw [List.drop_eq_nil_of_le hle, statementLength]
    omega
  · rfl

/-- A statement that starts in the text ends there, and not before it starts. -/
theorem statementEnd_bounds {text : Text} {position : Nat} (h : position ≤ text.length) :
    position ≤ text.statementEnd position ∧ text.statementEnd position ≤ text.length := by
  have hle := statementLength_le {} false (text.drop position)
  rw [List.length_drop] at hle
  rw [statementEnd_eq h]
  omega

/-! ### Well-nested code -/

/-- Code in which string literals are closed and delimiters are matched. Between delimiters there may be any
characters besides; at the top there are no semicolons and no line breaks. -/
inductive WellNested : (inner : Bool) → Text → Prop
  /-- Nothing. -/
  | nil (inner : Bool) : WellNested inner []
  /-- A character that is no quotation mark and no delimiter. -/
  | plain {inner : Bool} {c : Char} {rest : Text} (hquote : isQuote c = false) (hopening : isOpening c = false)
      (hclosing : isClosing c = false) (htop : inner = false → c ≠ ';' ∧ c ≠ '\n') (hrest : WellNested inner rest) :
      WellNested inner (c :: rest)
  /-- A string literal. -/
  | literal {inner : Bool} {quote : Char} {inside rest : Text} (hquote : isQuote quote = true)
      (hinside : InLiteral quote inside) (hrest : WellNested inner rest) :
      WellNested inner (quote :: (inside ++ quote :: rest))
  /-- Code between two delimiters. -/
  | group {inner : Bool} (d : Delimiter) {inside rest : Text} (hinside : WellNested true inside)
      (hrest : WellNested inner rest) : WellNested inner (d.opening :: (inside ++ d.closing :: rest))

/-! ### The scan of well-nested code -/

/-- Whether a text has any content. -/
def hasContent (text : Text) : Bool := text.any (!isBlank ·)

theorem hasContent_cons (c : Char) (text : Text) : hasContent (c :: text) = (!isBlank c || hasContent text) := rfl

theorem hasContent_iff {text : Text} : hasContent text = true ↔ ∃ c ∈ text, isBlank c = false := by
  simp [hasContent]

/-- What a character outside of literals does to the scan. -/
theorem statementLength_unquoted (depth : Int) (content : Bool) (c : Char) (rest : Text) :
    statementLength { depth } content (c :: rest) =
      if isQuote c || isOpening c then statementLength (Nesting.step { depth } c) true rest + 1
      else if isClosing c then
        if depth == 0 then 0 else statementLength (Nesting.step { depth } c) content rest + 1
      else if c == ';' && depth == 0 then 1
      else if c == '\n' && depth == 0 && content then 0
      else statementLength { depth } (content || !isBlank c) rest + 1 := rfl

/-- A character outside a literal that opens a literal or a delimiter is content. -/
theorem statementLength_opens {c : Char} (h : (isQuote c || isOpening c) = true) (depth : Int) (content : Bool)
    (rest : Text) :
    statementLength { depth } content (c :: rest) = statementLength (Nesting.step { depth } c) true rest + 1 := by
  rw [statementLength_unquoted, if_pos h]

/-- Inside a literal nothing ends a statement. -/
theorem statementLength_quoted (depth : Int) (quote : Char) (escaped content : Bool) (c : Char) (rest : Text) :
    statementLength { depth, quote := some quote, escaped } content (c :: rest) =
      statementLength (Nesting.step { depth, quote := some quote, escaped } c) content rest + 1 := by
  rw [statementLength, if_pos (Option.isSome_some ..)]

/-- What stands between the marks of a literal leaves the scan in the literal. -/
theorem statementLength_inLiteral {quote : Char} {inside : Text} (h : InLiteral quote inside) (depth : Int)
    (content : Bool) (rest : Text) :
    statementLength { depth, quote := some quote } content (inside ++ rest) =
      inside.length + statementLength { depth, quote := some quote } content rest := by
  induction h with
  | nil => rw [List.nil_append, List.length_nil, Nat.zero_add]
  | @escape c inside _ ih =>
    have hslash : Nesting.step { depth, quote := some quote } '\\' =
        { depth, quote := some quote, escaped := true } := rfl
    have hnext : Nesting.step { depth, quote := some quote, escaped := true } c = { depth, quote := some quote } := rfl
    rw [List.cons_append, List.cons_append, statementLength_quoted, hslash, statementLength_quoted, hnext, ih,
      List.length_cons, List.length_cons]
    omega
  | @plain c inside hquote hslash _ ih =>
    have hstep : Nesting.step { depth, quote := some quote } c = { depth, quote := some quote } := by
      simp [Nesting.step, hslash, hquote]
    rw [List.cons_append, statementLength_quoted, hstep, ih, List.length_cons]
    omega

/-- The scan passes over a literal, which is content. -/
theorem statementLength_literal {quote : Char} {inside : Text} (hquote : isQuote quote = true)
    (h : InLiteral quote inside) (depth : Int) (content : Bool) (rest : Text) :
    statementLength { depth } content (quote :: (inside ++ quote :: rest)) =
      inside.length + 2 + statementLength { depth } true rest := by
  have hopen : Nesting.step { depth } quote = { depth, quote := some quote } := by simp [Nesting.step, hquote]
  have hslash : quote ≠ '\\' := by
    rintro rfl
    exact absurd hquote (by decide)
  have hclose : Nesting.step { depth, quote := some quote } quote = { depth } := by simp [Nesting.step, hslash]
  rw [statementLength_opens (by rw [hquote, Bool.true_or]), hopen, statementLength_inLiteral h, statementLength_quoted,
    hclose]
  omega

/-- A delimiter that closes an open one is passed over. -/
theorem statementLength_closing (d : Delimiter) {depth : Int} (hdepth : 0 ≤ depth) (content : Bool) (rest : Text) :
    statementLength { depth := depth + 1 } content (d.closing :: rest) =
      statementLength { depth } content rest + 1 := by
  have hclasses : isQuote d.closing = false ∧ isOpening d.closing = false ∧ isClosing d.closing = true := by
    cases d <;> decide
  have hstep : Nesting.step { depth := depth + 1 } d.closing = { depth } := by
    simp [Nesting.step, hclasses]
  have hopen : ¬((depth + 1 == 0) = true) := by
    rw [beq_iff_eq]
    omega
  rw [statementLength_unquoted, hclasses.1, hclasses.2.1, Bool.or_false, if_neg Bool.false_ne_true,
    if_pos hclasses.2.2, if_neg hopen, hstep]

/-- Any other character is passed over where no statement can end, or when it does not end one. -/
theorem statementLength_plain {c : Char} (hquote : isQuote c = false) (hopening : isOpening c = false)
    (hclosing : isClosing c = false) {depth : Int} (htop : depth = 0 → c ≠ ';' ∧ c ≠ '\n') (content : Bool)
    (rest : Text) :
    statementLength { depth } content (c :: rest) =
      statementLength { depth } (content || !isBlank c) rest + 1 := by
  have hsemicolon : ¬((c == ';' && depth == 0) = true) := by
    rw [Bool.and_eq_true, beq_iff_eq, beq_iff_eq]
    exact fun h => (htop h.2).1 h.1
  have hbreak : ¬((c == '\n' && depth == 0 && content) = true) := by
    rw [Bool.and_eq_true, Bool.and_eq_true, beq_iff_eq, beq_iff_eq]
    exact fun h => (htop h.1.2).2 h.1.1
  rw [statementLength_unquoted, hquote, hopening, hclosing, Bool.or_false, if_neg Bool.false_ne_true,
    if_neg Bool.false_ne_true, if_neg hsemicolon, if_neg hbreak]

/-- The scan passes over well-nested code and is left at the same depth. -/
theorem statementLength_append {inner : Bool} {code : Text} (h : WellNested inner code) {depth : Int}
    (hdepth : 0 ≤ depth) (hinner : inner = true → depth ≠ 0) (content : Bool) (rest : Text) :
    statementLength { depth } content (code ++ rest) =
      code.length + statementLength { depth } (content || hasContent code) rest := by
  -- The depth changes on the way, but it is never 0 between delimiters, and it comes back to where it was behind them.
  induction h generalizing depth content rest with
  | nil => simp [hasContent]
  | @plain inner c code hquote hopening hclosing htop _ ih =>
    have hends : depth = 0 → c ≠ ';' ∧ c ≠ '\n' := fun hzero =>
      htop (Bool.eq_false_iff.2 fun htrue => hinner htrue hzero)
    rw [List.cons_append, statementLength_plain hquote hopening hclosing hends, ih hdepth hinner, hasContent_cons,
      Bool.or_assoc, List.length_cons]
    omega
  | @literal inner quote inside code hquote hinside _ ih =>
    have hmark : isBlank quote = false := by
      simp only [isQuote, Bool.or_eq_true, beq_iff_eq] at hquote
      rcases hquote with (rfl | rfl) | rfl <;> decide
    rw [List.cons_append, List.append_assoc, List.cons_append, statementLength_literal hquote hinside,
      ih hdepth hinner, hasContent_cons, hmark]
    simp only [Bool.not_false, Bool.true_or, Bool.or_true, List.length_cons, List.length_append]
    omega
  | @group inner d inside code _ _ ihInside ih =>
    have hclasses : isQuote d.opening = false ∧ isOpening d.opening = true ∧ isBlank d.opening = false := by
      cases d <;> decide
    have hstep : Nesting.step { depth } d.opening = { depth := depth + 1 } := by simp [Nesting.step, hclasses]
    -- What stands between the delimiters is read one level deeper, where nothing ends a statement.
    have hopens : (isQuote d.opening || isOpening d.opening) = true := by rw [hclasses.2.1, Bool.or_true]
    rw [List.cons_append, List.append_assoc, List.cons_append, statementLength_opens hopens, hstep,
      ihInside (by omega) (fun _ => by omega), statementLength_closing d hdepth, ih hdepth hinner,
      hasContent_cons, hclasses.2.2]
    simp only [Bool.not_false, Bool.true_or, Bool.or_true, List.length_cons, List.length_append]
    omega

/-! ### The end of a well-nested statement -/

/-- The end of a statement behind any text, by the scan of what stands behind well-nested code. -/
theorem statementEnd_append {code : Text} (h : WellNested false code) (before rest : Text) :
    statementEnd (before ++ code ++ rest) before.length =
      before.length + code.length + statementLength {} (hasContent code) rest := by
  have hinside : before.length ≤ (before ++ code ++ rest).length := by simp
  rw [statementEnd_eq hinside, List.append_assoc, List.drop_left,
    statementLength_append h le_rfl (fun hinner => absurd hinner Bool.false_ne_true), Bool.false_or, Nat.add_assoc]

/-- A statement that is well-nested code ends just behind a semicolon, and before a closing delimiter or, if there is
anything but white space in the code, before a line break. Every statement that starts in a text ends in it, and not
before it starts. -/
theorem statementEnd_wellNested :
    (∀ code, WellNested false code → ∀ before after : Text,
      statementEnd (before ++ code ++ ';' :: after) before.length = before.length + code.length + 1 ∧
      (∀ c, isClosing c = true →
        statementEnd (before ++ code ++ c :: after) before.length = before.length + code.length) ∧
      ((∃ c ∈ code, isBlank c = false) →
        statementEnd (before ++ code ++ '\n' :: after) before.length = before.length + code.length)) ∧
    ∀ (text : Text) (position : Nat), position ≤ text.length →
      position ≤ statementEnd text position ∧ statementEnd text position ≤ text.length := by
  refine ⟨fun code hcode before after => ⟨?_, fun c hc => ?_, fun hcontent => ?_⟩, fun text position hinside => ?_⟩
  · rw [statementEnd_append hcode]
    rfl
  · rw [statementEnd_append hcode]
    have hstop : statementLength {} (hasContent code) (c :: after) = 0 := by
      simp only [isClosing, Bool.or_eq_true, beq_iff_eq] at hc
      rcases hc with (rfl | rfl) | rfl <;> rfl
    rw [hstop, Nat.add_zero]
  · rw [statementEnd_append hcode, hasContent_iff.2 hcontent]
    rfl
  · exact statementEnd_bounds hinside

/-- Semicolons in a literal and between delimiters end no statement, and neither does a line break between
delimiters. -/
theorem statementEnd_wellNested_call :
    WellNested false (txt "f(';')[\n;]") ∧ (∃ c ∈ txt "f(';')[\n;]", isBlank c = false) ∧ isClosing '\x7d' = true ∧
      statementEnd (txt "x = f(';')[\n;];\n") 4 = 15 ∧ statementEnd (txt "x = f(';')[\n;]\x7d\n") 4 = 14 ∧
      statementEnd (txt "x = f(';')[\n;]\ny") 4 = 14 ∧ 4 ≤ (txt "x = f(';')[\n;];\n").length ∧
      statementEnd (txt "x = f(';')[\n;];\n") 4 ≤ 16 := by
  have hmark : InLiteral '\'' [';'] := .plain (by decide) (by decide) .nil
  have hlines : WellNested true ['\n', ';'] :=
    .plain rfl rfl rfl (fun hinner => nomatch hinner) (.plain rfl rfl rfl (fun hinner => nomatch hinner) (.nil true))
  have hcode : WellNested false (txt "f(';')[\n;]") :=
    .plain rfl rfl rfl (fun _ => by decide)
      (.group .paren (.literal rfl hmark (.nil true)) (.group .bracket hlines (.nil false)))
  have hcontent : ∃ c ∈ txt "f(';')[\n;]", isBlank c = false := ⟨'f', List.mem_cons_self, rfl⟩
  obtain ⟨hsemicolon, -, -⟩ := statementEnd_wellNested.1 _ hcode (txt "x = ") ['\n']
  obtain ⟨-, hclosing, -⟩ := statementEnd_wellNested.1 _ hcode (txt "x = ") ['\n']
  obtain ⟨-, -, hbreak⟩ := statementEnd_wellNested.1 _ hcode (txt "x = ") ['y']
  have hinside : 4 ≤ (txt "x = f(';')[\n;];\n").length := by decide
  exact ⟨hcode, hcontent, rfl, hsemicolon, hclosing '\x7d' rfl, hbreak hcontent, hinside,
    (statementEnd_wellNested.2 _ 4 hinside).2⟩

end Text

end AngularUplift
