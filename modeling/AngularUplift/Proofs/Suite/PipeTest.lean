import AngularUplift.Proofs.Harvest.Standing
import AngularUplift.Proofs.Suite.Assertion
import AngularUplift.Proofs.Suite.Title
import AngularUplift.Proofs.Text.Spelling
import AngularUplift.Proofs.Text.Tidy

/-!
# Tests that make their pipes

The body of a pipe test declares a pipe for every filter that the legacy test looks up. A look-up can stand anywhere
in the body: white space in it may reach over several lines, and it may stand on a dump line, which becomes a comment
before the look-ups are collected. None of this makes a look-up disappear, and every declaration stays a line of its
own when the body is tidied up.

## Main definitions

* `FilterLookup`: a look-up of a filter by a quoted name.
* `pipeLine`: the line that declares a pipe.

## Main statements

* `FilterLookup.exists_commented`: the look-ups survive the commenting of dump lines.
* `FilterLookup.exists_occurrence`: the search for look-ups meets every name that is looked up.
* `pipeLine_mem_lines_pipeTestBody`: a body that looks up a filter declares its pipe.
-/

namespace AngularUplift

/-! ### Look-ups -/

/-- A look-up of a filter by a quoted name, with white space around the literal. -/
inductive FilterLookup (name : Text) : (source : Text) → Prop
  /-- The parts of the look-up. -/
  | intro {space gap : Text} {opening closing : Char} (hspace : ∀ c ∈ space, isBlank c)
      (hopening : isPlainQuote opening) (hclosing : isPlainQuote closing) (hgap : ∀ c ∈ gap, isBlank c) :
      FilterLookup name (txt "filter(" ++ (space ++ ([opening] ++ (name ++ ([closing] ++ (gap ++ [')']))))))

/-- A text that can be the name of a variable. -/
structure IsVariableName (name : Text) : Prop where
  /-- It is not empty. -/
  ne_nil : name ≠ []
  /-- It has only characters of a name. -/
  isName : ∀ c ∈ name, isName c

/-- A name has no line break. -/
theorem IsVariableName.break_notMem {name : Text} (h : IsVariableName name) : '\n' ∉ name :=
  notMem_of_class h.isName (by decide)

/-- A quotation mark is no part of a name. -/
theorem isName_of_isPlainQuote {quote : Char} (h : isPlainQuote quote = true) : isName quote = false := by
  simp only [isPlainQuote, Bool.or_eq_true, beq_iff_eq] at h
  obtain rfl | rfl := h
  all_goals decide

namespace FilterLookup

variable {name source rest text body : Text}

/-- A look-up is read, with a dollar sign before it or without. -/
theorem read_filterLookup (h : FilterLookup name source) (hname : IsVariableName name) {dollar : Text}
    (hdollar : dollar = [] ∨ dollar = ['$']) (rest : Text) :
    filterLookup.read (dollar ++ (source ++ rest)) = some (name, rest) := by
  obtain @⟨space, gap, opening, closing, hspace, hopening, hclosing, hgap⟩ := h
  have hmark : ∀ tail, Reader.optionally ['$'] (dollar ++ (txt "filter(" ++ tail)) =
      some ((), txt "filter(" ++ tail) := by
    intro tail
    obtain rfl | rfl := hdollar <;> rfl
  simp only [List.append_assoc]
  refine Reader.bind_eq_some_iff.2 ⟨(), _, hmark _, ?_⟩
  refine Reader.bind_eq_some_iff.2 ⟨(), _, Reader.exactly_eq_some_iff.2 rfl, ?_⟩
  have hblank := (isPlainQuote_spec hopening).2.1
  refine Reader.bind_eq_some_iff.2 ⟨space, _, Reader.run_append hspace (Reader.head_cons hblank), ?_⟩
  refine Reader.bind_eq_some_iff.2 ⟨opening, _, if_pos hopening, ?_⟩
  have hends := isName_of_isPlainQuote hclosing
  refine Reader.bind_eq_some_iff.2 ⟨name, _, Reader.run1_append hname.ne_nil hname.isName (Reader.head_cons hends), ?_⟩
  refine Reader.bind_eq_some_iff.2 ⟨closing, _, if_pos hclosing, ?_⟩
  refine Reader.bind_eq_some_iff.2 ⟨gap, _, Reader.run_append hgap (Reader.head_cons (by decide)), ?_⟩
  exact Reader.bind_eq_some_iff.2 ⟨(), rest, Reader.exactly_eq_some_iff.2 rfl, rfl⟩

/-- What is read as a look-up is one. -/
theorem of_read (h : filterLookup.read text = some (name, rest)) :
    ∃ dollar source, text = dollar ++ (source ++ rest) ∧ (dollar = [] ∨ dollar = ['$']) ∧ FilterLookup name source ∧
      IsVariableName name := by
  simp only [filterLookup, Reader.bind_eq_some_iff, Reader.exactly_eq_some_iff, Reader.pure_eq_some_iff] at h
  obtain ⟨_, afterDollar, rdollar, -, afterWord, rfl, space, afterSpace, rspace, opening, afterOpening, ropening, found,
    afterName, rname, closing, afterClosing, rclosing, gap, afterGap, rgap, -, final, rfl, rfl, rfl⟩ := h
  obtain ⟨rfl, hspace⟩ := Reader.run_eq_some rspace
  obtain ⟨rfl, hopening⟩ := Reader.oneOf_eq_some ropening
  obtain ⟨rfl, hne, hname⟩ := Reader.run1_eq_some rname
  obtain ⟨rfl, hclosing⟩ := Reader.oneOf_eq_some rclosing
  obtain ⟨rfl, hgap⟩ := Reader.run_eq_some rgap
  obtain ⟨dollar, rfl, hdollar⟩ : ∃ dollar, text = dollar ++ _ ∧ (dollar = [] ∨ dollar = ['$']) := by
    obtain hmark | ⟨hsame, -⟩ := Reader.optionally_eq_some rdollar
    · exact ⟨['$'], hmark, .inr rfl⟩
    · exact ⟨[], hsame.symm, .inl rfl⟩
  refine ⟨dollar, _, ?_, hdollar, .intro hspace hopening hclosing hgap, hne, hname⟩
  simp only [List.append_assoc]
  rfl

/-! #### Dump lines -/

/-- Reading a dump line leaves the end of the text. -/
theorem suffix_of_dumpLine {text rest : Text} {value : Unit} (h : dumpLine.read text = some (value, rest)) :
    rest <:+ text := by
  obtain ⟨indent, body, rfl, -⟩ := Expectation.read_dumpLine h
  exact List.suffix_append ..

/-- A line break among white space and what stands behind it stands in the one or in the other. -/
theorem append_cons_eq_append_break {space tail front back : Text} {c : Char} (hc : c ≠ '\n')
    (h : space ++ c :: tail = front ++ '\n' :: back) :
    (∃ more, space = front ++ '\n' :: more ∧ back = more ++ c :: tail) ∨
      ∃ more, front = space ++ c :: more ∧ tail = more ++ '\n' :: back := by
  rcases List.append_eq_append_iff.1 h with ⟨more, rfl, hmore⟩ | ⟨more, rfl, hmore⟩
  · cases more with
    | nil => exact absurd (List.cons.inj hmore).1 hc
    | cons d more =>
      obtain ⟨rfl, rfl⟩ := List.cons.inj hmore
      exact .inr ⟨more, rfl, rfl⟩
  · cases more with
    | nil => exact absurd (List.cons.inj hmore).1.symm hc
    | cons d more =>
      obtain ⟨rfl, rfl⟩ := List.cons.inj hmore
      exact .inl ⟨more, by simp, rfl⟩

/-- A look-up that is cut at a line break: without the white space before the line break it is still a look-up, and
behind the line break it goes on with a mark. -/
theorem split_break {front back : Text} (h : FilterLookup name (front ++ '\n' :: back)) (hname : IsVariableName name) :
    ∃ core space, front = core ++ space ∧ (∀ c ∈ space, isBlank c) ∧ core.IsTight ∧
      FilterLookup name (core ++ '\n' :: back) ∧
      ∃ between c tail, back = between ++ c :: tail ∧ (∀ d ∈ between, isBlank d) ∧ isBlank c = false ∧ c ≠ 'd' := by
  generalize hsource : front ++ '\n' :: back = source at h
  obtain @⟨space, gap, opening, closing, hspace, hopening, hclosing, hgap⟩ := h
  have hquote : ∀ {c : Char}, isPlainQuote c = true → c ≠ '\n' ∧ c ≠ 'd' := by
    intro c hc
    simp only [isPlainQuote, Bool.or_eq_true, beq_iff_eq] at hc
    obtain rfl | rfl := hc
    all_goals decide
  have hbreak : isBlank '\n' = true := rfl
  have hword : '\n' ∉ txt "filter(" := by decide
  obtain ⟨afterWord, rfl, hrest⟩ := Text.append_cons_eq_append hsource hword
  rcases append_cons_eq_append_break (hquote hopening).1 hrest with ⟨more, rfl, rfl⟩ | ⟨afterOpening, rfl, hopened⟩
  · -- The line break stands before the literal.
    obtain ⟨hbefore, hafter⟩ := List.forall_mem_append.1 hspace
    obtain ⟨-, hmore⟩ := List.forall_mem_cons.1 hafter
    have hlookup : FilterLookup name _ := .intro hafter hopening hclosing hgap
    exact ⟨txt "filter(", afterWord, rfl, hbefore, ⟨⟨'f', _, rfl, rfl⟩, ⟨txt "filter", '(', rfl, rfl⟩⟩, hlookup, more,
      opening, _, rfl, hmore, (isPlainQuote_spec hopening).2.1, (hquote hopening).2⟩
  · -- It stands behind the literal, which has none in it.
    have hliteral : '\n' ∉ name ++ [closing] := by simp [hname.break_notMem, (hquote hclosing).1.symm]
    have hbehind : afterOpening ++ '\n' :: back = name ++ [closing] ++ (gap ++ [')']) := by
      rw [← hopened]
      simp
    obtain ⟨afterLiteral, rfl, hclosed⟩ := Text.append_cons_eq_append hbehind hliteral
    rcases append_cons_eq_append_break (by decide) hclosed with ⟨more, rfl, rfl⟩ | ⟨more, -, hnone⟩
    · obtain ⟨hbefore, hafter⟩ := List.forall_mem_append.1 hgap
      obtain ⟨-, hmore⟩ := List.forall_mem_cons.1 hafter
      have hlookup : FilterLookup name _ := .intro hspace hopening hclosing hafter
      refine ⟨txt "filter(" ++ (space ++ opening :: (name ++ [closing])), afterLiteral, by simp, hbefore,
        ⟨⟨'f', _, rfl, rfl⟩, txt "filter(" ++ (space ++ opening :: name), closing, by simp, ?_⟩, ?_, more, ')', [],
        rfl, hmore, rfl, by decide⟩
      · exact (isPlainQuote_spec hclosing).2.1
      · simpa using hlookup
    · simp at hnone

/-- A look-up ends with its closing parenthesis. -/
theorem exists_close (h : FilterLookup name source) : ∃ front, source = front ++ [')'] := by
  obtain @⟨space, gap, opening, closing, -, -, -, -⟩ := h
  refine ⟨txt "filter(" ++ (space ++ ([opening] ++ (name ++ ([closing] ++ gap)))), ?_⟩
  simp only [List.append_assoc]

/-- A look-up has no white space at its ends. -/
theorem isTight (h : FilterLookup name source) : source.IsTight := by
  constructor
  · obtain ⟨-, -, -, -⟩ := h
    exact ⟨'f', _, rfl, rfl⟩
  · obtain ⟨front, hfront⟩ := h.exists_close
    exact ⟨front, ')', hfront, rfl⟩

/-- No dump line begins in a look-up. -/
theorem absent_dumpLine (h : FilterLookup name source) (hname : IsVariableName name) (before after : Text) :
    dumpLine.Absent after before source := by
  refine Pattern.absent_of_forall fun front back hsource _ => ?_
  -- Behind its gap a dump line goes on with its word.
  have hnone : ∀ between c tail, back = between ++ c :: tail → (∀ d ∈ between, isBlank d) → isBlank c = false →
      c ≠ 'd' → dumpLine.at? (front.reverse ++ before) (back ++ after) = none := by
    intro between c tail hback hbetween hblank hc
    refine Option.eq_none_iff_forall_not_mem.2 fun found hfound => hc ?_
    obtain ⟨rest, hread, -⟩ := Pattern.read_of_at? (Option.mem_def.1 hfound)
    obtain ⟨indent, body, htext, hindent, -, -⟩ := Expectation.read_dumpLine hread
    have hskip := congrArg (List.dropWhile isBlank) htext
    rw [hback, List.append_assoc, List.cons_append, List.dropWhile_append_of_pos hbetween,
      List.dropWhile_cons_of_neg (by simp [hblank]), List.append_assoc,
      List.dropWhile_append_of_pos fun d hd => isBlank_of_isGap (hindent d hd)] at hskip
    exact (List.cons.inj hskip).1
  rcases List.eq_nil_or_concat front with rfl | ⟨front, d, rfl⟩
  · obtain @⟨space, gap, opening, closing, -, -, -, -⟩ := h
    exact hnone [] 'f' _ hsource.symm (List.forall_mem_nil _) rfl (by decide)
  · by_cases hd : d = '\n'
    · rw [hd, List.concat_eq_append, List.append_assoc, List.singleton_append] at hsource
      rw [hsource] at h
      obtain ⟨_, _, -, -, -, -, between, c, tail, hback, hbetween, hblank, hc⟩ := h.split_break hname
      exact hnone between c tail hback hbetween hblank hc
    · -- A dump line begins a line.
      refine if_neg ?_
      simp [dumpLine, lineStart, hd]

/-- Commenting out the dump lines keeps the look-ups. -/
theorem exists_commented (h : FilterLookup name source) (hname : IsVariableName name) (hoccurs : source <:+: body) :
    ∃ kept, FilterLookup name kept ∧ kept <:+: commentOccurrences (txt "// ") dumpLine body := by
  obtain ⟨front, back, rfl⟩ := hoccurs
  rw [List.append_assoc, commentOccurrences, Pattern.replaceWith, Pattern.pieces]
  have hpieces : dumpLine.PiecesAt [] front (source ++ back) _ := Pattern.piecesAt (Nat.zero_le _) _
  generalize dumpLine.piecesFrom [] 0 (front ++ (source ++ back)) = pieces at hpieces ⊢
  cases hpieces with
  | apart first =>
    -- A look-up behind the end of a piece is passed over whole.
    rw [List.flatMap_append, Pattern.flatMap_exchange_append _ (h.absent_dumpLine hname _ _)]
    exact ⟨source, h, (List.prefix_append ..).isInfix.trans (List.suffix_append ..).isInfix⟩
  | @across first early late inside rest value hfront hlate hback hinside hat =>
    rw [hback, ← List.append_assoc] at hat
    obtain ⟨-, -, -, -, -, hline⟩ := Expectation.read_dumpLine (Pattern.read_of_at?_append suffix_of_dumpLine hat)
    -- The dump line takes the whole look-up, or as much of it as stands before a line break.
    have hcases : (∃ more, inside = source ++ more) ∨
        ∃ tail, source = inside ++ '\n' :: tail ∧ rest = '\n' :: tail ++ back := by
      rcases List.append_eq_append_iff.1 hback with ⟨more, hmore, -⟩ | ⟨more, hmore, hrest⟩
      · exact .inl ⟨more, hmore⟩
      · cases more with
        | nil => exact .inl ⟨[], by simpa using hmore.symm⟩
        | cons d tail =>
          obtain rfl : d = '\n' := hline d (by rw [hrest]; rfl)
          exact .inr ⟨tail, hmore, hrest⟩
    rw [List.flatMap_append, List.flatMap_cons, Pattern.exchange]
    rcases hcases with ⟨more, rfl⟩ | ⟨tail, rfl, rfl⟩
    · -- Trimming the comment takes nothing from a look-up in it.
      have hcomment : source <:+: txt "// " ++ Text.trim (late ++ (source ++ more)) := by
        rw [h.isTight.trim_append]
        exact ⟨txt "// " ++ Text.trimLeft late, Text.trimRight more, by simp only [List.append_assoc]⟩
      exact ⟨source, h, hcomment.trans ((List.prefix_append ..).isInfix.trans (List.suffix_append ..).isInfix)⟩
    · -- Trimming takes the white space before the line break, without which the look-up still is one.
      have habsent := h.absent_dumpLine hname (front.reverse ++ []) back
      rw [Pattern.absent_append] at habsent
      obtain ⟨core, space, rfl, hspace, htight, hlookup, -⟩ := h.split_break hname
      have hnothing : Text.trimRight space = [] := by
        rw [← List.nil_append space, Text.trimRight_append_right hspace]
        rfl
      have hjoined : ∀ before after : Text, core ++ '\n' :: tail <:+:
          before ++ (txt "// " ++ (Text.trimLeft late ++ (core ++ [])) ++ ('\n' :: tail ++ after)) :=
        fun before after => ⟨before ++ (txt "// " ++ Text.trimLeft late), after, by simp⟩
      rw [htight.trim_append, hnothing, Pattern.flatMap_exchange_append _ habsent.2]
      exact ⟨_, hlookup, hjoined _ _⟩

/-! #### The search for look-ups -/

/-- Reading a look-up leaves the end of the text. -/
theorem suffix_of_read {text rest value : Text} (h : filterLookup.read text = some (value, rest)) : rest <:+ text := by
  obtain ⟨dollar, source, rfl, -⟩ := of_read h
  rw [← List.append_assoc]
  exact List.suffix_append ..

/-- A look-up has one opening parenthesis, behind its word. -/
theorem exists_paren (h : FilterLookup name source) (hname : IsVariableName name) :
    ∃ tail, source = txt "filter" ++ '(' :: tail ∧ '(' ∉ tail := by
  obtain @⟨space, gap, opening, closing, hspace, hopening, hclosing, hgap⟩ := h
  refine ⟨_, rfl, ?_⟩
  have hopening := (isPlainQuote_spec hopening).2.2.2.1
  have hclosing := (isPlainQuote_spec hclosing).2.2.2.1
  have hblank : isBlank '(' = false := by decide
  have hparen : isName '(' = false := by decide
  simp [notMem_of_class hspace hblank, notMem_of_class hgap hblank, notMem_of_class hname.isName hparen, hopening.symm,
    hclosing.symm]

/-- A look-up that begins before another one and goes on into it only has the dollar sign before it. -/
theorem eq_dollar_of_across {late inside rest back dollar other value : Text} (h : FilterLookup name source)
    (hname : IsVariableName name) (hother : FilterLookup value other) (hvalue : IsVariableName value)
    (hdollar : dollar = [] ∨ dollar = ['$']) (hback : source ++ back = inside ++ rest) (hlate : late ≠ [])
    (hinside : inside ≠ []) (htaken : late ++ inside = dollar ++ other) : late = ['$'] := by
  obtain ⟨tail, rfl, -⟩ := h.exists_paren hname
  have hword : ')' ∉ txt "filter" := by decide
  have hclose : inside.getLast? = some ')' := by
    obtain ⟨front, rfl⟩ := hother.exists_close
    rw [← List.getLast?_append_of_ne_nil late hinside, htaken, ← List.append_assoc, List.getLast?_concat]
  -- It goes on at least to the parenthesis of the other one, since it ends with one that closes.
  obtain ⟨more, rfl⟩ : ∃ more, inside = txt "filter" ++ '(' :: more := by
    rw [List.append_assoc] at hback
    rcases List.append_eq_append_iff.1 hback with ⟨more, hmore, hrest⟩ | ⟨more, hmore, -⟩
    · cases more with
      | nil =>
        rw [hmore, List.append_nil] at hclose
        exact absurd (List.mem_of_getLast? hclose) hword
      | cons c more =>
        obtain ⟨rfl, -⟩ := List.cons.inj hrest
        exact ⟨more, hmore⟩
    · exact absurd (hmore ▸ List.mem_append_left more (List.mem_of_getLast? hclose)) hword
  obtain ⟨otherTail, rfl, hparen⟩ := hother.exists_paren hvalue
  have hfront : '(' ∉ dollar ++ txt "filter" := by obtain rfl | rfl := hdollar <;> decide
  -- So the two share this parenthesis, and with it the word.
  have hsplit : late ++ txt "filter" ++ '(' :: more = dollar ++ txt "filter" ++ '(' :: otherTail := by
    simpa only [List.append_assoc] using htaken
  have hlateFront : '(' ∉ late ++ txt "filter" := by
    have hcount : (late ++ txt "filter" ++ '(' :: more).count '(' = 1 := by
      rw [hsplit, List.count_append, List.count_cons_self, List.count_eq_zero.2 hfront, List.count_eq_zero.2 hparen]
    rw [List.count_append, List.count_cons_self] at hcount
    exact List.count_eq_zero.1 (by omega)
  have hsame := List.append_cancel_right (eq_of_append_cons_eq hsplit hlateFront hfront)
  rw [← hsame] at hdollar
  exact hdollar.resolve_left hlate

/-- The search for look-ups meets every name that is looked up. -/
theorem exists_occurrence (h : FilterLookup name source) (hname : IsVariableName name) (hoccurs : source <:+: text) :
    ∃ found ∈ filterLookup.occurrences text, found.value = name := by
  obtain ⟨front, back, rfl⟩ := hoccurs
  rw [List.append_assoc]
  have hat : filterLookup.at? front.reverse (source ++ back) = some (source.length, name) :=
    Pattern.at?_append rfl (h.read_filterLookup hname (.inl rfl) back)
  refine Pattern.exists_mem_occurrences suffix_of_read hat
    fun early late inside rest value _ hlate hback hinside hread => ?_
  obtain ⟨dollar, other, htaken, hdollar, hother, hvalue⟩ := of_read hread
  rw [← List.append_assoc] at htaken
  have hlate := h.eq_dollar_of_across hname hother hvalue hdollar hback hlate hinside (List.append_cancel_right htaken)
  -- The other look-up is this one with its dollar sign.
  have hsame := h.read_filterLookup hname (.inr hlate) back
  rw [hback, ← List.append_assoc, hread] at hsame
  exact (Prod.mk.inj (Option.some.inj hsame)).1

end FilterLookup

/-! ### Declarations -/

/-- The line that declares the pipe of a filter. -/
def pipeLine (name : Text) : Text := txt "let " ++ (name ++ (txt " = new " ++ (pipeClassName name ++ txt "();")))

/-- The declarations of several pipes are lines. -/
theorem flatMap_declaration (names : List Text) :
    (names.flatMap fun name => txt "let " ++ name ++ txt " = new " ++ pipeClassName name ++ txt "();\n") =
      Text.unlines (names.map pipeLine) := by
  rw [Text.unlines, List.flatMap_map]
  refine List.flatMap_congr fun name _ => ?_
  have hend : txt "();\n" = txt "();" ++ ['\n'] := rfl
  rw [hend, pipeLine]
  simp only [List.append_assoc]

/-- A declaration has no white space at its ends. -/
theorem isTight_pipeLine (name : Text) : (pipeLine name).IsTight := by
  refine ⟨⟨'l', _, rfl, rfl⟩, txt "let " ++ (name ++ (txt " = new " ++ (pipeClassName name ++ txt "()"))), ';', ?_, rfl⟩
  have hend : txt "();" = txt "()" ++ [';'] := rfl
  rw [pipeLine, hend]
  simp only [List.append_assoc]

/-- The declaration of a pipe is one line. -/
theorem break_notMem_pipeLine {name : Text} (h : '\n' ∉ name) : '\n' ∉ pipeLine name := by
  have hwords : '\n' ∉ txt "let " ∧ '\n' ∉ txt " = new " ∧ '\n' ∉ txt "Pipe" ∧ '\n' ∉ txt "();" := by decide
  simp only [pipeLine, pipeClassName, List.mem_append, not_or]
  exact ⟨hwords.1, h, hwords.2.1, ⟨Text.break_notMem_pascalCase h, hwords.2.2.1⟩, hwords.2.2.2⟩

/-- The body of a test declares the pipe of every filter that it looks up, on a line of its own. -/
theorem pipeLine_mem_lines_pipeTestBody {body source name : Text} (h : FilterLookup name source)
    (hname : IsVariableName name) (hoccurs : source <:+: body) : pipeLine name ∈ (pipeTestBody body).lines := by
  obtain ⟨kept, hkept, hoccurs⟩ := h.exists_commented hname hoccurs
  rw [pipeTestBody]
  generalize commentOccurrences (txt "// ") dumpLine body = commented at hoccurs
  -- Every name that was found is the name of a variable, so that its declaration is a line.
  have hnames : ∀ other ∈ ((filterLookup.occurrences commented).map (·.value)).eraseDups, '\n' ∉ other := by
    intro other hother
    obtain ⟨found, hfound, rfl⟩ := List.mem_map.1 (List.mem_eraseDups.1 hother)
    obtain ⟨-, -, rest, hread, -⟩ := Pattern.read_of_mem_occurrences hfound
    obtain ⟨-, -, -, -, -, hvariable⟩ := FilterLookup.of_read hread
    exact hvariable.break_notMem
  have hmem : name ∈ ((filterLookup.occurrences commented).map (·.value)).eraseDups := by
    obtain ⟨found, hfound, rfl⟩ := hkept.exists_occurrence hname hoccurs
    exact List.mem_eraseDups.2 (List.mem_map_of_mem hfound)
  generalize ((filterLookup.occurrences commented).map (·.value)).eraseDups = names at hnames hmem ⊢
  obtain ⟨earlier, later, rfl⟩ := List.append_of_mem hmem
  have hline : '\n' ∉ pipeLine name := break_notMem_pipeLine hname.break_notMem
  have hearlier : ∀ line ∈ earlier.map pipeLine, line.IsTight ∧ '\n' ∉ line := by
    intro line hline
    obtain ⟨other, hother, rfl⟩ := List.mem_map.1 hline
    exact ⟨isTight_pipeLine other, break_notMem_pipeLine (hnames other (List.mem_append_left _ hother))⟩
  rw [flatMap_declaration, List.map_append, List.map_cons, Text.unlines_append, Text.unlines_cons]
  simp only [List.append_assoc, List.cons_append]
  rw [← List.append_assoc]
  obtain ⟨tail, htidy⟩ :=
    Text.exists_removeEmptyLines _ (Text.absent_blankRun hearlier (isTight_pipeLine name) hline [] _)
  rw [htidy, List.append_assoc]
  refine (isTight_pipeLine name).mem_lines_trim (Text.mem_lines_append (Text.endsLine_unlines _) hline fun c hc => ?_)
  exact (Option.some.inj hc).symm

end AngularUplift
