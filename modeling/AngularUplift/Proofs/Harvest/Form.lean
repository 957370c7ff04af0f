import AngularUplift.Harvest.Basic
import AngularUplift.Proofs.Text.Delimiter
import AngularUplift.Proofs.Text.Occurrence
import AngularUplift.Proofs.Text.Statement

/-!
# The forms of harvested pieces

What the pieces look like that a harvest cuts out of a text, said without the readers that find them: the heads of
functions and assignments, and around them the parameters, the body, the right-hand side and the trailer.

## Main definitions

* `MemberHead.Written`: the indented left-hand side of a member.
* `MemberHead.FunctionHead`, `MemberHead.AssignmentHead`: the heads of functions and of other assignments.
* `IsTrailer`: what may stand behind a piece on its line.
* `FunctionCut`, `BlockCut`, `PropertyCut`: the pieces that the three kinds of pass cut out.

## Main statements

* `functionCut_of_readFunction`, `blockCut_of_readBlock`, `propertyCut_of_readProperty`: what the readers of the
  passes cut out has these forms.
-/

namespace AngularUplift

/-! ### Heads -/

namespace MemberHead

/-- A text that is the indented left-hand side of a member with the given name. -/
inductive Written : MemberHead → (name source : Text) → Prop
  /-- A member of a receiver. -/
  | receiver {receiver name indent : Text} (hindent : ∀ c ∈ indent, isGap c) (hname : name ≠ [])
      (hchars : ∀ c ∈ name, isName c) :
      Written (.receiver receiver) name (indent ++ (receiver ++ (['.'] ++ name)))
  /-- A declared variable. -/
  | declaration {name indent word space : Text} (hindent : ∀ c ∈ indent, isGap c)
      (hword : word ∈ declarators) (hspace : space ≠ []) (hblank : ∀ c ∈ space, isBlank c)
      (hname : name ≠ []) (hchars : ∀ c ∈ name, isName c) :
      Written .declaration name (indent ++ (word ++ (space ++ name)))

/-- A text that is the head `left = function label(` of a function. The word `function` ends where it is written
out: what follows it does not begin with a word character. -/
inductive FunctionHead (head : MemberHead) (name : Text) : (source : Text) → Prop
  /-- The parts of the head, with white space between them. -/
  | intro {left before after gap label space : Text} (hleft : head.Written name left)
      (hbefore : ∀ c ∈ before, isBlank c) (hafter : ∀ c ∈ after, isBlank c)
      (hgap : ∀ c ∈ gap, isBlank c) (hlabel : ∀ c ∈ label, isName c) (hspace : ∀ c ∈ space, isBlank c)
      (hword : ∀ c ∈ (gap ++ (label ++ (space ++ ['(']))).head?, ¬isWord c) :
      FunctionHead head name
        (left ++ (before ++ (['='] ++ (after ++ (txt "function" ++ (gap ++ (label ++ (space ++ ['(']))))))))

/-- A text that is the head `left =` of an assignment before the given text. The equals sign is no part of a
comparison. -/
inductive AssignmentHead (head : MemberHead) (name rest : Text) : (source : Text) → Prop
  /-- The parts of the head, with spaces and tabs between them. -/
  | intro {left before after : Text} (hleft : head.Written name left) (hbefore : ∀ c ∈ before, isGap c)
      (hafter : ∀ c ∈ after, isGap c) (hnext : (after ++ rest).head? ≠ some '=') :
      AssignmentHead head name rest (left ++ (before ++ (['='] ++ after)))

/-- The reader of left-hand sides reads what is written as one. -/
theorem written_of_read {head : MemberHead} {text name rest : Text}
    (h : head.read text = some (name, rest)) : ∃ left, text = left ++ rest ∧ head.Written name left := by
  cases head with
  | receiver receiver =>
    obtain ⟨indent, middle, rfl, hindent, hread⟩ := Reader.afterGap_eq_some h
    simp only [Reader.bind_eq_some_iff, Reader.exactly_eq_some_iff] at hread
    obtain ⟨-, afterReceiver, rfl, -, afterDot, rfl, hname⟩ := hread
    obtain ⟨rfl, hnonempty, hchars⟩ := Reader.run1_eq_some hname
    refine ⟨_, ?_, Written.receiver hindent hnonempty hchars⟩
    simp only [List.append_assoc]
  | declaration =>
    simp only [MemberHead.read, Reader.bind_eq_some_iff] at h
    obtain ⟨indent, afterIndent, rindent, _, afterWord, rword, space, afterSpace, rspace, rname⟩ := h
    obtain ⟨rfl, hindent⟩ := Reader.run_eq_some rindent
    obtain ⟨word, hmem, rfl⟩ := Reader.anyOf_eq_some rword
    obtain ⟨rfl, hspace, hblank⟩ := Reader.run1_eq_some rspace
    obtain ⟨rfl, hnonempty, hchars⟩ := Reader.run1_eq_some rname
    refine ⟨_, ?_, Written.declaration hindent hmem hspace hblank hnonempty hchars⟩
    simp only [List.append_assoc]

/-- The pattern of function heads reads what is written as one. -/
theorem functionHead_of_read {head : MemberHead} {text name rest : Text}
    (h : head.functionHead.read text = some (name, rest)) :
    ∃ source, text = source ++ rest ∧ head.FunctionHead name source := by
  simp only [functionHead, Reader.bind_eq_some_iff, Reader.exactly_eq_some_iff, Reader.pure_eq_some_iff] at h
  obtain ⟨found, afterLeft, rleft, before, afterBefore, rbefore, -, afterSign, rfl, after, afterAfter, rafter,
    -, afterFunction, rfl, _, afterEdge, redge, gap, afterGap, rgap, label, afterLabel, rlabel, space,
    afterSpace, rspace, -, final, rfl, rfl, rfl⟩ := h
  obtain ⟨left, rfl, hleft⟩ := written_of_read rleft
  obtain ⟨rfl, hbefore⟩ := Reader.run_eq_some rbefore
  obtain ⟨rfl, hafter⟩ := Reader.run_eq_some rafter
  obtain ⟨rfl, hedge⟩ := Reader.notNext_eq_some redge
  obtain ⟨rfl, hgap⟩ := Reader.run_eq_some rgap
  obtain ⟨rfl, hlabel⟩ := Reader.run_eq_some rlabel
  obtain ⟨rfl, hspace⟩ := Reader.run_eq_some rspace
  refine ⟨_, ?_, FunctionHead.intro hleft hbefore hafter hgap hlabel hspace ?_⟩
  · simp only [List.append_assoc]
  · -- The head ends with a parenthesis, so the character after the word is one of the head.
    intro c hc
    refine hedge c ?_
    have hrest : gap ++ (label ++ (space ++ (['('] ++ final))) =
        gap ++ (label ++ (space ++ ['('])) ++ final := by simp only [List.append_assoc]
    rw [hrest, List.head?_append, Option.mem_def.1 hc, Option.some_or]
    rfl

/-- The pattern of assignment heads reads what is written as one. -/
theorem assignmentHead_of_read {head : MemberHead} {text name rest : Text}
    (h : head.propertyHead.read text = some (name, rest)) :
    ∃ source, text = source ++ rest ∧ head.AssignmentHead name rest source := by
  simp only [propertyHead, Reader.bind_eq_some_iff, Reader.exactly_eq_some_iff,
    Reader.pure_eq_some_iff] at h
  obtain ⟨found, afterLeft, rleft, before, afterBefore, rbefore, -, afterSign, rfl, _, afterEdge, rnext, after,
    final, rafter, rfl, rfl⟩ := h
  obtain ⟨left, rfl, hleft⟩ := written_of_read rleft
  obtain ⟨rfl, hbefore⟩ := Reader.run_eq_some rbefore
  obtain ⟨rfl, hnext⟩ := Reader.notNext_eq_some rnext
  obtain ⟨rfl, hafter⟩ := Reader.run_eq_some rafter
  refine ⟨_, ?_, AssignmentHead.intro hleft hbefore hafter ?_⟩
  · simp only [List.append_assoc]
  · intro hhead
    exact hnext '=' hhead (by decide)

end MemberHead

/-! ### Trailers and ends of statements -/

/-- Spaces and tabs, a semicolon or none, and spaces and tabs. -/
def IsTrailer (source : Text) : Prop :=
  ∃ before mark after : Text, source = before ++ (mark ++ after) ∧ (∀ c ∈ before, isGap c) ∧
    (mark = [] ∨ mark = [';']) ∧ ∀ c ∈ after, isGap c

/-- The trailer from a position on ends in the text. -/
theorem isTrailer_trailerEnd {text : Text} {position : Nat} (h : position ≤ text.length) :
    position ≤ trailerEnd text position ∧ trailerEnd text position ≤ text.length ∧
      IsTrailer (text.slice position (trailerEnd text position)) := by
  have hgaps : ∀ rest : Text, rest = rest.takeWhile isGap ++ rest.dropWhile isGap :=
    fun rest => List.takeWhile_append_dropWhile.symm
  -- The rest of the text is the trailer and what the trailer ends before.
  have hsplit : ∃ trailer rest, text.drop position = trailer ++ rest ∧ IsTrailer trailer ∧
      trailerEnd text position = text.length - rest.length := by
    rw [trailerEnd]
    split
    · next rest hmark =>
      refine ⟨_, rest.dropWhile isGap, ?_,
        ⟨(text.drop position).takeWhile isGap, [';'], rest.takeWhile isGap, rfl, ?_, Or.inr rfl, ?_⟩, rfl⟩
      · rw [List.append_assoc, List.append_assoc, ← hgaps rest, List.singleton_append, ← hmark, ← hgaps]
      · exact fun c hc => List.mem_takeWhile_imp hc
      · exact fun c hc => List.mem_takeWhile_imp hc
    · refine ⟨_, (text.drop position).dropWhile isGap, ?_,
        ⟨(text.drop position).takeWhile isGap, [], [], rfl, ?_, Or.inl rfl, ?_⟩, rfl⟩
      · rw [List.append_nil, List.append_nil, ← hgaps]
      · exact fun c hc => List.mem_takeWhile_imp hc
      · exact fun c hc => absurd hc List.not_mem_nil
  obtain ⟨trailer, rest, hdrop, htrailer, hend⟩ := hsplit
  have hlength : trailer.length + rest.length = text.length - position := by
    rw [← List.length_append, ← hdrop, List.length_drop]
  have hstop : trailerEnd text position = position + trailer.length := by omega
  rw [hstop, Text.slice_eq_of_drop hdrop]
  exact ⟨Nat.le_add_right .., by omega, htrailer⟩

/-! ### Pieces -/

/-- The parts of a function: its head, the parameters, what stands between their parenthesis and the brace, the text
between the braces and the trailer. -/
structure FunctionParts where
  /-- The head, up to the parenthesis that opens the parameters. -/
  opening : Text
  /-- The parameters. -/
  params : Text
  /-- What stands between the parameters and the body. -/
  gap : Text
  /-- The text between the braces. -/
  raw : Text
  /-- What follows the function on its line and goes with it. -/
  trailer : Text

namespace FunctionParts

/-- The number of characters before the brace that opens the body. -/
def bodyOffset (parts : FunctionParts) : Nat :=
  parts.opening.length + parts.params.length + 1 + parts.gap.length

/-- The parts put together. -/
def source (parts : FunctionParts) : Text :=
  parts.opening ++ (parts.params ++ ([')'] ++ (parts.gap ++ (['{'] ++
    (parts.raw ++ (['}'] ++ parts.trailer))))))

end FunctionParts

/-- A piece of a text that is a function with the given parts, and that holds what is read off them. -/
structure FunctionCut (comments : List Text) (head : MemberHead) (text : Text) (cut : Cut Function)
    (parts : FunctionParts) : Prop where
  /-- The piece is made of the parts. -/
  source_eq : text.slice cut.start cut.stop = parts.source
  /-- It begins a line. -/
  lineStart : cut.start = 0 ∨ text[cut.start - 1]? = some '\n'
  /-- It begins with a head that gives its name. -/
  head : head.FunctionHead cut.value.name parts.opening
  /-- The parameters are balanced. -/
  params : Delimiter.paren.Balanced parts.params
  /-- The body begins at the first brace after the parameters. -/
  gap : '{' ∉ parts.gap
  /-- The text between the braces is balanced. -/
  raw : Delimiter.brace.Balanced parts.raw
  /-- The body ends with the close of its first brace. -/
  close : Delimiter.brace.close text (cut.start + parts.bodyOffset : Nat) =
    .ok (cut.start + parts.bodyOffset + 1 + parts.raw.length)
  /-- The piece ends with a trailer. -/
  trailer : IsTrailer parts.trailer
  /-- The name comes from the head, the parameters are the names between the commas, and the body is the text
  between the braces without line breaks around it and white space after it. -/
  value : cut.value =
    { name := cut.value.name
      parameters := (Factory.parameterNames parts.params).map Variable.named
      body := Text.trimRight (Text.trimBreaks parts.raw)
      comment := commentFor cut.value.name comments }

/-- A piece of a text that is kept as it stands, without the white space around it. -/
def BlockCut (text : Text) (cut : Cut Text) : Prop := cut.value = Text.trim (text.slice cut.start cut.stop)

/-- The parts of an assignment: its head, the right-hand side and the trailer. -/
structure AssignmentParts where
  /-- The head, up to the right-hand side. -/
  opening : Text
  /-- The right-hand side, with the semicolon that ends it. -/
  expression : Text
  /-- What follows the assignment on its line and goes with it. -/
  trailer : Text

/-- A piece of a text that is an assignment with the given parts, and that holds the assigned name and the
right-hand side. -/
structure PropertyCut (head : MemberHead) (text : Text) (cut : Cut (Text × Text))
    (parts : AssignmentParts) : Prop where
  /-- The piece is made of the parts. -/
  source_eq : text.slice cut.start cut.stop = parts.opening ++ (parts.expression ++ parts.trailer)
  /-- It begins a line. -/
  lineStart : cut.start = 0 ∨ text[cut.start - 1]? = some '\n'
  /-- It begins with a head that gives the assigned name. -/
  head : head.AssignmentHead cut.value.1 (text.drop (cut.start + parts.opening.length)) parts.opening
  /-- The right-hand side ends where the statement ends. -/
  statementEnd : text.statementEnd (cut.start + parts.opening.length) =
    cut.start + parts.opening.length + parts.expression.length
  /-- The piece ends with a trailer. -/
  trailer : IsTrailer parts.trailer
  /-- The right-hand side is kept without white space around it and semicolons after it. -/
  value : cut.value.2 = trimExpression parts.expression
  /-- The right-hand side is no function: those are left to the function passes. -/
  notFunction : cut.value.2.startsWith (txt "function") = false

/-- A head is never empty: it ends with a parenthesis. -/
theorem MemberHead.FunctionHead.length_pos {head : MemberHead} {name source : Text}
    (h : head.FunctionHead name source) : 0 < source.length := by
  cases h
  simp only [List.length_append, List.length_singleton]
  omega

/-- A head is never empty: it holds an equals sign. -/
theorem MemberHead.AssignmentHead.length_pos {head : MemberHead} {name rest source : Text}
    (h : head.AssignmentHead name rest source) : 0 < source.length := by
  cases h
  simp only [List.length_append, List.length_singleton]
  omega

/-- What a reader that succeeds on a function head has found. -/
theorem readFunction_eq_ok {comments : List Text} {text : Text} {found : Occurrence Text} {stop : Nat}
    {f : Function} (h : readFunction comments text found = .ok (stop, f)) :
    ∃ paramsClose brace close : Nat,
      Delimiter.paren.close text (found.stop - 1 : Nat) = .ok paramsClose ∧
      Delimiter.brace.closeOfNext text paramsClose = .ok (brace, close) ∧
      stop = trailerEnd text (close + 1) ∧
      f = { name := found.value
            parameters :=
              (Factory.parameterNames (text.slice (found.stop - 1 + 1) paramsClose)).map Variable.named
            body := Text.trimRight (Text.trimBreaks (text.slice (brace + 1) close))
            comment := commentFor found.value comments } := by
  rw [readFunction] at h
  cases hparams : Delimiter.paren.close text (found.stop - 1 : Nat) with
  | error fault => simp [hparams, bind, Except.bind, Except.mapError] at h
  | ok paramsClose =>
    cases hbrace : Delimiter.brace.closeOfNext text paramsClose with
    | error fault => simp [hparams, hbrace, bind, Except.bind, Except.mapError] at h
    | ok pair =>
      simp only [hparams, hbrace, bind, Except.bind, Except.mapError, pure, Except.pure,
        Except.ok.injEq, Prod.mk.injEq] at h
      exact ⟨paramsClose, pair.1, pair.2, rfl, hbrace, h.1.symm, h.2.symm⟩

/-- A stretch of text around a closing parenthesis, an opening and a closing brace falls into the parts that they
divide it into. -/
private theorem slice_eq_function {text : Text} {start opened paramsClose brace close stop : Nat}
    (hopened : start ≤ opened) (hparams : opened ≤ paramsClose) (hparen : text[paramsClose]? = some ')')
    (hgap : paramsClose < brace) (hbrace : text[brace]? = some '{') (hraw : brace < close)
    (hclose : text[close]? = some '}') (htrailer : close < stop) (hstop : stop ≤ text.length) :
    text.slice start stop =
      text.slice start opened ++ (text.slice opened paramsClose ++ ([')'] ++
        (text.slice (paramsClose + 1) brace ++ (['{'] ++ (text.slice (brace + 1) close ++
          (['}'] ++ text.slice (close + 1) stop)))))) := by
  rw [← Text.slice_eq_cons hclose htrailer hstop, ← Text.slice_eq_append hraw (by omega) hstop,
    ← Text.slice_eq_cons hbrace (by omega) hstop, ← Text.slice_eq_append hgap (by omega) hstop,
    ← Text.slice_eq_cons hparen (by omega) hstop, ← Text.slice_eq_append hparams (by omega) hstop,
    ← Text.slice_eq_append hopened (by omega) hstop]

/-- What a function pass cuts out is a function. -/
theorem functionCut_of_readFunction {comments : List Text} {head : MemberHead} {text : Text}
    {found : Occurrence Text} (hfound : found ∈ head.functionHead.occurrences text) {stop : Nat}
    {f : Function} (h : readFunction comments text found = .ok (stop, f)) :
    found.start < stop ∧ stop ≤ text.length ∧
      ∃ parts, FunctionCut comments head text ⟨found.start, stop, f⟩ parts := by
  obtain ⟨hstart, hline, rest, hread, hstop⟩ := Pattern.read_of_mem_occurrences hfound
  obtain ⟨opening, hdrop, hhead⟩ := MemberHead.functionHead_of_read hread
  obtain ⟨paramsClose, brace, close, hparams, hnext, rfl, rfl⟩ := readFunction_eq_ok h
  have hopening := hhead.length_pos
  rw [hdrop, List.length_append, Nat.add_sub_cancel] at hstop
  have hopen : found.stop - 1 + 1 = found.stop := by omega
  obtain ⟨-, hparamsLt, hparamsChar, hparamsBalanced⟩ := Delimiter.close_eq_ok hparams
  obtain ⟨hbraceLe, hgap, hbrace⟩ := Delimiter.closeOfNext_eq_ok hnext
  obtain ⟨hbraceChar, hbraceLt, hcloseChar, hrawBalanced⟩ := Delimiter.close_eq_ok hbrace
  rw [hopen] at hparamsBalanced
  -- The parenthesis that closes the parameters is no brace, so the body begins after it.
  have hbraceNe : paramsClose ≠ brace := by
    rintro rfl
    exact absurd (hparamsChar.symm.trans hbraceChar) (by decide)
  have hcloseLe : close + 1 ≤ text.length := (List.getElem?_eq_some_iff.1 hcloseChar).1
  obtain ⟨htrailerLe, htrailerEnd, htrailer⟩ := isTrailer_trailerEnd hcloseLe
  -- The lengths of the parts add up to the positions at which the delimiters were found.
  have hoffset : found.start + (opening.length + (text.slice found.stop paramsClose).length + 1 +
      (text.slice (paramsClose + 1) brace).length) = brace := by
    rw [Text.length_slice (by omega), Text.length_slice (by omega)]
    omega
  have hrawLength : brace + 1 + (text.slice (brace + 1) close).length = close := by
    rw [Text.length_slice (by omega)]
    omega
  refine ⟨by omega, htrailerEnd, ⟨opening, text.slice found.stop paramsClose,
    text.slice (paramsClose + 1) brace, text.slice (brace + 1) close,
    text.slice (close + 1) (trailerEnd text (close + 1))⟩, ?_⟩
  constructor
  · have hopeningSlice := Text.slice_eq_of_drop hdrop
    rw [← hstop] at hopeningSlice
    simp only [FunctionParts.source, ← hopeningSlice]
    exact slice_eq_function (by omega) (by omega) hparamsChar (by omega) hbraceChar hbraceLt hcloseChar
      htrailerLe htrailerEnd
  · exact (lineStart_iff hstart).1 hline
  · exact hhead
  · exact hparamsBalanced
  · -- The reader looked for the brace from the parenthesis on, which is one character more.
    intro hmem
    refine hgap ?_
    rw [Text.slice_eq_append (Nat.le_succ paramsClose) (by omega) (by omega)]
    exact List.mem_append_right _ hmem
  · exact hrawBalanced
  · simp only [FunctionParts.bodyOffset, hoffset, hrawLength]
    exact hbrace
  · exact htrailer
  · simp only [hopen]

/-- What a pass over calls cuts out is kept as it stands. -/
theorem blockCut_of_readBlock {isFunction : Bool} {text : Text} {head : Pattern Unit}
    {found : Occurrence Unit} (hfound : found ∈ head.occurrences text) {stop : Nat} {block : Text}
    (h : readBlock isFunction text found = .ok (stop, block)) :
    found.start < stop ∧ stop ≤ text.length ∧ BlockCut text ⟨found.start, stop, block⟩ := by
  obtain ⟨-, -, rest, -, hstop⟩ := Pattern.read_of_mem_occurrences hfound
  -- Whatever is closed last, its close stands after the beginning of the head.
  have hclose : ∃ close : Nat, found.start ≤ close ∧ close + 1 ≤ text.length ∧
      stop = trailerEnd text (close + 1) ∧ block = Text.trim (text.slice found.start stop) := by
    rw [readBlock] at h
    cases hparams : Delimiter.paren.close text (found.stop - 1 : Nat) with
    | error fault => simp [hparams, bind, Except.bind] at h
    | ok paramsClose =>
      obtain ⟨-, hparamsLt, hparamsChar, -⟩ := Delimiter.close_eq_ok hparams
      cases isFunction with
      | false =>
        simp only [hparams, bind, Except.bind, pure, Except.pure, Except.ok.injEq, Prod.mk.injEq,
          Bool.false_eq_true, ↓reduceIte] at h
        obtain ⟨rfl, rfl⟩ := h
        exact ⟨paramsClose, by omega, (List.getElem?_eq_some_iff.1 hparamsChar).1, rfl, rfl⟩
      | true =>
        cases hbrace : Delimiter.brace.closeOfNext text paramsClose with
        | error fault => simp [hparams, hbrace, bind, Except.bind] at h
        | ok pair =>
          obtain ⟨hbraceLe, -, hbraceClose⟩ := Delimiter.closeOfNext_eq_ok hbrace
          obtain ⟨-, hbraceLt, hcloseChar, -⟩ := Delimiter.close_eq_ok hbraceClose
          simp only [hparams, hbrace, bind, Except.bind, pure, Except.pure, Except.ok.injEq,
            Prod.mk.injEq, ↓reduceIte, Functor.map, Except.map] at h
          obtain ⟨rfl, rfl⟩ := h
          exact ⟨pair.2, by omega, (List.getElem?_eq_some_iff.1 hcloseChar).1, rfl, rfl⟩
  obtain ⟨close, hstart, hle, hend, hblock⟩ := hclose
  obtain ⟨htrailerLe, htrailerEnd, -⟩ := isTrailer_trailerEnd hle
  exact ⟨by omega, by omega, hblock⟩

/-- What a property pass cuts out is an assignment. -/
theorem propertyCut_of_readProperty {head : MemberHead} {text : Text} {found : Occurrence Text}
    (hfound : found ∈ head.propertyHead.occurrences text) {stop : Nat} {assignment : Text × Text}
    (h : readProperty text found = .ok (stop, assignment)) :
    found.start < stop ∧ stop ≤ text.length ∧
      ∃ parts, PropertyCut head text ⟨found.start, stop, assignment⟩ parts := by
  obtain ⟨hstart, hline, rest, hread, hstop⟩ := Pattern.read_of_mem_occurrences hfound
  -- The head ends where the search for the end of the statement begins.
  obtain ⟨opening, hdrop, hhead⟩ := MemberHead.assignmentHead_of_read hread
  have hopening := hhead.length_pos
  have hlength := congrArg List.length hdrop
  rw [List.length_drop, List.length_append] at hlength
  rw [hdrop, List.length_append, Nat.add_sub_cancel] at hstop
  have hrest : text.drop (found.start + opening.length) = rest := by
    rw [← List.drop_drop, hdrop, List.drop_left]
  have hstopLe : found.stop ≤ text.length := by omega
  obtain ⟨hstatementLe, hstatementEnd⟩ := Text.statementEnd_bounds hstopLe
  obtain ⟨htrailerLe, htrailerEnd, htrailer⟩ := isTrailer_trailerEnd hstatementEnd
  rw [readProperty] at h
  split at h
  · exact absurd h (by simp)
  · next hfunction =>
    simp only [Except.ok.injEq, Prod.mk.injEq] at h
    obtain ⟨rfl, rfl⟩ := h
    refine ⟨by omega, htrailerEnd, ⟨opening, text.slice found.stop (text.statementEnd found.stop),
      text.slice (text.statementEnd found.stop) (trailerEnd text (text.statementEnd found.stop))⟩, ?_⟩
    constructor
    · have hslice := Text.slice_eq_of_drop hdrop
      rw [← hstop] at hslice
      simp only
      rw [← hslice, ← Text.slice_eq_append (by omega) (by omega) htrailerEnd,
        ← Text.slice_eq_append (by omega) (by omega) htrailerEnd]
    · exact (lineStart_iff hstart).1 hline
    · simp only [hrest]
      exact hhead
    · simp only [← hstop]
      rw [Text.length_slice hstatementEnd]
      omega
    · exact htrailer
    · rfl
    · exact Bool.eq_false_iff.2 hfunction

end AngularUplift
