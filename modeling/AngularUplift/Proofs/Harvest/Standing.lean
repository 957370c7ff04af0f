import AngularUplift.Proofs.Harvest.Accounting
import AngularUplift.Proofs.Text.Line

/-!
# Functions that stand whole in a text

A function pass finds every function that stands whole at the beginning of a line. Its head is read from there, since
no head that begins earlier goes on into it: after a line break inside a head nothing is left that could be a head
itself. Its parameters and its body are closed, so the pass cuts it out, unless an earlier cut has already taken its
beginning.

## Main definitions

* `MemberHead.Plain`: receivers without white space and parentheses.
* `WholeFunction`: a function from its indentation to the brace that closes it.

## Main statements

* `MemberHead.read_functionHead`: the pattern of function heads reads every head.
* `MemberHead.FunctionHead.length_le`: a head does not go on behind a line break into another head.
* `exists_cut_of_stands`: a pass takes the beginning of every function that stands whole.
* `FunctionCut.exists_whole`: what a pass cuts out begins with a function that stands whole.
-/

namespace AngularUplift

/-! ### Texts put together -/

/-- A text that ends with a line break goes beyond any text without one. -/
theorem exists_append_of_break {late source clean tail : Text} (h : late ++ source = clean ++ tail)
    (hend : late.getLast? = some '\n') (hclean : '\n' ∉ clean) :
    ∃ more, late = clean ++ more ∧ more.getLast? = some '\n' ∧ more ++ source = tail := by
  rcases List.append_eq_append_iff.1 h with ⟨more, rfl, -⟩ | ⟨more, rfl, rfl⟩
  · exact absurd (List.mem_append_left more (List.mem_of_getLast? hend)) hclean
  · refine ⟨more, rfl, ?_, rfl⟩
    rw [List.getLast?_append] at hend
    cases hmore : more.getLast? with
    | none =>
      rw [hmore, Option.none_or] at hend
      exact absurd (List.mem_of_getLast? hend) hclean
    | some c =>
      rw [hmore, Option.some_or] at hend
      exact hend

/-- The first occurrence of a character divides a text in one way. -/
theorem eq_of_append_cons_eq {c : Char} {first second rest tail : Text}
    (h : first ++ c :: rest = second ++ c :: tail) (hfirst : c ∉ first) (hsecond : c ∉ second) : first = second := by
  rcases List.append_eq_append_iff.1 h with ⟨more, rfl, hmore⟩ | ⟨more, rfl, hmore⟩
  · cases more with
    | nil => rw [List.append_nil]
    | cons d more =>
      obtain ⟨rfl, -⟩ := List.cons.inj hmore
      exact absurd (List.mem_append_right first List.mem_cons_self) hsecond
  · cases more with
    | nil => rw [List.append_nil]
    | cons d more =>
      obtain ⟨rfl, -⟩ := List.cons.inj hmore
      exact absurd (List.mem_append_right second List.mem_cons_self) hfirst

/-! ### Reading heads -/

namespace MemberHead

/-- A left-hand side whose receiver has no white space and no parenthesis in it. -/
def Plain : MemberHead → Prop
  | .receiver name => ∀ c ∈ name, isBlank c = false ∧ c ≠ '('
  | .declaration => True

/-- The words that declare a variable are read from what begins with them. -/
theorem anyOf_declarators {word : Text} (h : word ∈ declarators) (rest : Text) :
    Reader.anyOf declarators (word ++ rest) = some ((), rest) := by
  simp only [declarators, List.mem_cons, List.not_mem_nil, or_false] at h
  obtain rfl | rfl | rfl := h
  · rfl
  · rfl
  · rfl

/-- The words that declare a variable are names, and none is empty. -/
theorem isName_declarator {word : Text} (h : word ∈ declarators) : word ≠ [] ∧ ∀ c ∈ word, isName c := by
  simp only [declarators, List.mem_cons, List.not_mem_nil, or_false] at h
  obtain rfl | rfl | rfl := h <;> exact ⟨by decide, List.all_eq_true.1 (by decide)⟩

variable {head : MemberHead} {name source left : Text}

/-- The reader of left-hand sides reads them before anything that goes on no name. -/
theorem read_written (hplain : head.Plain) (h : head.Written name left) {rest : Text}
    (hrest : ∀ c ∈ rest.head?, isName c = false) : head.read (left ++ rest) = some (name, rest) := by
  cases h with
  | @receiver receiver name indent hindent hname hchars =>
    have hread : (do Reader.exactly receiver; Reader.exactly ['.']; Reader.name : Reader Text)
        (receiver ++ (['.'] ++ (name ++ rest))) = some (name, rest) := by
      refine Reader.bind_eq_some_iff.2 ⟨(), _, Reader.exactly_eq_some_iff.2 rfl, ?_⟩
      refine Reader.bind_eq_some_iff.2 ⟨(), _, Reader.exactly_eq_some_iff.2 rfl, ?_⟩
      exact Reader.run1_append hname hchars hrest
    have hfirst : ∀ c ∈ (receiver ++ (['.'] ++ (name ++ rest))).head?, isGap c = false := by
      intro c hc
      cases receiver with
      | nil =>
        obtain rfl : '.' = c := by simpa using hc
        decide
      | cons d receiver =>
        obtain rfl : d = c := by simpa using hc
        exact isGap_of_isBlank (hplain d List.mem_cons_self).1
    have hafter := Reader.afterGap_append hindent hfirst hread
    simp only [List.append_assoc]
    exact hafter
  | @declaration name indent word space hindent hword hspace hblank hname hchars =>
    obtain ⟨hne, hletters⟩ := isName_declarator hword
    simp only [List.append_assoc]
    refine Reader.bind_eq_some_iff.2 ⟨indent, _, Reader.run_append hindent ?_, ?_⟩
    · intro c hc
      obtain ⟨d, tail, rfl⟩ := List.exists_cons_of_ne_nil hne
      obtain rfl : d = c := by simpa using hc
      exact isGap_of_isBlank (isBlank_of_isName (hletters d List.mem_cons_self))
    refine Reader.bind_eq_some_iff.2 ⟨(), _, anyOf_declarators hword _, ?_⟩
    refine Reader.bind_eq_some_iff.2 ⟨space, _, Reader.run1_append hspace hblank ?_, ?_⟩
    · intro c hc
      obtain ⟨d, tail, rfl⟩ := List.exists_cons_of_ne_nil hname
      obtain rfl : d = c := by simpa using hc
      exact isBlank_of_isName (hchars d List.mem_cons_self)
    · exact Reader.run1_append hname hchars hrest

/-- White space, a label or none, and white space are passed over before a parenthesis. -/
theorem read_label {gap label space : Text} (hgap : ∀ c ∈ gap, isBlank c) (hlabel : ∀ c ∈ label, isName c)
    (hspace : ∀ c ∈ space, isBlank c) (rest : Text) :
    (do
      let _ ← Reader.blanks
      let _ ← Reader.run isName
      let _ ← Reader.blanks
      Reader.exactly ['('] : Reader Unit) (gap ++ (label ++ (space ++ (['('] ++ rest)))) = some ((), rest) := by
  have hparen : ∀ c ∈ (['('] ++ rest).head?, isBlank c = false ∧ isName c = false := by
    intro c hc
    obtain rfl : '(' = c := by simpa using hc
    decide
  have hblanks : Reader.blanks (space ++ (['('] ++ rest)) = some (space, ['('] ++ rest) :=
    Reader.run_append hspace fun c hc => (hparen c hc).1
  cases label with
  | nil =>
    -- Without a label all the white space is read at once.
    have hall : Reader.blanks (gap ++ space ++ (['('] ++ rest)) = some (gap ++ space, ['('] ++ rest) :=
      Reader.run_append (List.forall_mem_append.2 ⟨hgap, hspace⟩) fun c hc => (hparen c hc).1
    rw [List.append_assoc] at hall
    refine Reader.bind_eq_some_iff.2 ⟨_, _, hall, ?_⟩
    refine Reader.bind_eq_some_iff.2 ⟨[], _, Reader.run_append (List.forall_mem_nil _) fun c hc => (hparen c hc).2, ?_⟩
    refine Reader.bind_eq_some_iff.2 ⟨[], _, Reader.run_append (List.forall_mem_nil _) fun c hc => (hparen c hc).1, ?_⟩
    exact Reader.exactly_eq_some_iff.2 rfl
  | cons d label =>
    refine Reader.bind_eq_some_iff.2 ⟨gap, _, Reader.run_append hgap ?_, ?_⟩
    · intro c hc
      obtain rfl : d = c := by simpa using hc
      exact isBlank_of_isName (hlabel d List.mem_cons_self)
    refine Reader.bind_eq_some_iff.2 ⟨d :: label, _, Reader.run_append hlabel ?_, ?_⟩
    · intro c hc
      cases space with
      | nil => exact (hparen c hc).2
      | cons e space =>
        obtain rfl : e = c := by simpa using hc
        exact isName_of_isBlank (hspace e List.mem_cons_self)
    refine Reader.bind_eq_some_iff.2 ⟨space, _, hblanks, ?_⟩
    exact Reader.exactly_eq_some_iff.2 rfl

/-- A word ends before white space, a label or none, white space and a parenthesis, unless they go on with a word
character. -/
theorem endOfWord_label {gap label space : Text}
    (hword : ∀ c ∈ (gap ++ (label ++ (space ++ ['(']))).head?, ¬isWord c) (rest : Text) :
    Reader.endOfWord (gap ++ (label ++ (space ++ (['('] ++ rest)))) =
      some ((), gap ++ (label ++ (space ++ (['('] ++ rest)))) := by
  -- There is a parenthesis, so the character after the word is one of these.
  refine Reader.notNext_eq fun c hc => Bool.eq_false_iff.2 (hword c ?_)
  have hsplit : gap ++ (label ++ (space ++ (['('] ++ rest))) = gap ++ (label ++ (space ++ ['('])) ++ rest := by
    simp only [List.append_assoc]
  rwa [hsplit, List.head?_append_of_ne_nil _ (by simp)] at hc

/-- The pattern of function heads reads every head, whatever follows it. -/
theorem read_functionHead (hplain : head.Plain) (h : head.FunctionHead name source) (rest : Text) :
    head.functionHead.read (source ++ rest) = some (name, rest) := by
  obtain @⟨left, before, after, gap, label, space, hleft, hbefore, hafter, hgap, hlabel, hspace, hword⟩ := h
  simp only [List.append_assoc]
  refine Reader.bind_eq_some_iff.2 ⟨name, _, read_written hplain hleft ?_, ?_⟩
  · intro c hc
    cases before with
    | nil =>
      obtain rfl : '=' = c := by simpa using hc
      decide
    | cons d before =>
      obtain rfl : d = c := by simpa using hc
      exact isName_of_isBlank (hbefore d List.mem_cons_self)
  refine Reader.bind_eq_some_iff.2 ⟨before, _, Reader.run_append hbefore ?_, ?_⟩
  · intro c hc
    obtain rfl : '=' = c := by simpa using hc
    decide
  refine Reader.bind_eq_some_iff.2 ⟨(), _, Reader.exactly_eq_some_iff.2 rfl, ?_⟩
  refine Reader.bind_eq_some_iff.2 ⟨after, _, Reader.run_append hafter ?_, ?_⟩
  · intro c hc
    obtain rfl : 'f' = c := Option.some.inj hc
    decide
  refine Reader.bind_eq_some_iff.2 ⟨(), _, Reader.exactly_eq_some_iff.2 rfl, ?_⟩
  refine Reader.bind_eq_some_iff.2 ⟨(), _, endOfWord_label hword rest, ?_⟩
  obtain ⟨_, _, rgap, hread⟩ := Reader.bind_eq_some_iff.1 (read_label hgap hlabel hspace rest)
  obtain ⟨_, _, rlabel, hread⟩ := Reader.bind_eq_some_iff.1 hread
  obtain ⟨_, _, rspace, rparen⟩ := Reader.bind_eq_some_iff.1 hread
  refine Reader.bind_eq_some_iff.2 ⟨_, _, rgap, ?_⟩
  refine Reader.bind_eq_some_iff.2 ⟨_, _, rlabel, ?_⟩
  refine Reader.bind_eq_some_iff.2 ⟨_, _, rspace, ?_⟩
  exact Reader.bind_eq_some_iff.2 ⟨(), rest, rparen, rfl⟩

/-! ### Heads inside heads -/

/-- A head holds one parenthesis, its last character. -/
theorem FunctionHead.eq_concat (hplain : head.Plain) (h : head.FunctionHead name source) :
    ∃ front, source = front ++ ['('] ∧ '(' ∉ front := by
  obtain @⟨left, before, after, gap, label, space, hleft, hbefore, hafter, hgap, hlabel, hspace, -⟩ := h
  refine ⟨left ++ (before ++ (['='] ++ (after ++ (txt "function" ++ (gap ++ (label ++ space)))))),
    by simp only [List.append_assoc], ?_⟩
  have hleft : '(' ∉ left := by
    cases hleft with
    | receiver hindent _ hchars =>
      simp only [List.mem_append, not_or]
      exact ⟨notMem_of_class hindent (by decide), fun hmem => (hplain _ hmem).2 rfl, by decide,
        notMem_of_class hchars (by decide)⟩
    | declaration hindent hword _ hblank _ hchars =>
      simp only [List.mem_append, not_or]
      exact ⟨notMem_of_class hindent (by decide), notMem_of_class (isName_declarator hword).2 (by decide),
        notMem_of_class hblank (by decide), notMem_of_class hchars (by decide)⟩
  simp only [List.mem_append, not_or]
  exact ⟨hleft, notMem_of_class hbefore (by decide), by decide, notMem_of_class hafter (by decide), by decide,
    notMem_of_class hgap (by decide), notMem_of_class hlabel (by decide), notMem_of_class hspace (by decide)⟩

/-- What follows the left-hand side of a head: white space, an equals sign and the word `function`. -/
theorem FunctionHead.exists_tail (h : head.FunctionHead name source) :
    ∃ left before tail, head.Written name left ∧ source = left ++ (before ++ '=' :: tail) ∧
      (∀ c ∈ before, isBlank c) ∧ '=' ∉ tail ∧ '.' ∉ tail := by
  obtain @⟨left, before, after, gap, label, space, hleft, hbefore, hafter, hgap, hlabel, hspace, -⟩ := h
  refine ⟨left, before, after ++ (txt "function" ++ (gap ++ (label ++ (space ++ ['('])))), hleft, rfl, hbefore, ?_, ?_⟩
  · simp only [List.mem_append, not_or]
    exact ⟨notMem_of_class hafter (by decide), by decide, notMem_of_class hgap (by decide),
      notMem_of_class hlabel (by decide), notMem_of_class hspace (by decide), by decide⟩
  · simp only [List.mem_append, not_or]
    exact ⟨notMem_of_class hafter (by decide), by decide, notMem_of_class hgap (by decide),
      notMem_of_class hlabel (by decide), notMem_of_class hspace (by decide), by decide⟩

/-- White space around one name holds no declaration. -/
theorem Written.not_one_word {space word before innerBefore : Text} (h : Written .declaration name left)
    (hspace : ∀ c ∈ space, isBlank c) (hword : word ≠ []) (hchars : ∀ c ∈ word, isName c)
    (hbefore : ∀ c ∈ before, isBlank c) : left ++ innerBefore ≠ space ++ (word ++ before) := by
  intro heq
  cases h with
  | @declaration _ indent declarator gap hindent hdeclarator hgap hblank hname hletters =>
    obtain ⟨hne, hdeclaratorChars⟩ := isName_declarator hdeclarator
    have hnames : ∀ {text rest : Text}, text ≠ [] → (∀ c ∈ text, isName c) →
        ∀ c ∈ (text ++ rest).head?, isBlank c = false := by
      intro text rest htext hall c hc
      rw [List.head?_append_of_ne_nil _ htext] at hc
      exact isBlank_of_isName (hall c (List.mem_of_mem_head? hc))
    -- Both sides are read up to their first name, and then up to the end of it.
    have hblanks := congrArg (Reader.run isBlank) heq
    simp only [List.append_assoc] at hblanks
    rw [Reader.run_append (fun c hc => isBlank_of_isGap (hindent c hc)) (hnames hne hdeclaratorChars),
      Reader.run_append hspace (hnames hword hchars), Option.some.injEq, Prod.mk.injEq] at hblanks
    have hfirst := congrArg (Reader.run isName) hblanks.2
    have hafterDeclarator : ∀ c ∈ (gap ++ (name ++ innerBefore)).head?, isName c = false := by
      intro c hc
      rw [List.head?_append_of_ne_nil _ hgap] at hc
      exact isName_of_isBlank (hblank c (List.mem_of_mem_head? hc))
    rw [Reader.run_append hdeclaratorChars hafterDeclarator,
      Reader.run_append hchars fun c hc => isName_of_isBlank (hbefore c (List.mem_of_mem_head? hc)),
      Option.some.injEq, Prod.mk.injEq] at hfirst
    -- What is left on the one side is white space, but on the other it holds the declared name.
    obtain ⟨c, letters, rfl⟩ := List.exists_cons_of_ne_nil hname
    have hmem : c ∈ before := by
      rw [← hfirst.2]
      simp
    exact absurd (hbefore c hmem) (by simp [isBlank_of_isName (hletters c List.mem_cons_self)])

/-- The name of a member is not white space. -/
theorem Written.exists_nonblank (h : head.Written name left) : ∃ c ∈ left, isBlank c = false := by
  cases h with
  | receiver _ hname hchars =>
    obtain ⟨c, hc⟩ := List.exists_mem_of_ne_nil _ hname
    exact ⟨c, by simp [hc], isBlank_of_isName (hchars c hc)⟩
  | declaration _ _ _ _ hname hchars =>
    obtain ⟨c, hc⟩ := List.exists_mem_of_ne_nil _ hname
    exact ⟨c, by simp [hc], isBlank_of_isName (hchars c hc)⟩

/-- White space around one name holds no line break with a declaration after it. -/
theorem Written.not_after_break {late space word before innerBefore : Text} (h : Written .declaration name left)
    (hend : late.getLast? = some '\n') (hspace : ∀ c ∈ space, isBlank c) (hword : word ≠ [])
    (hchars : ∀ c ∈ word, isName c) (hbefore : ∀ c ∈ before, isBlank c) :
    late ++ (left ++ innerBefore) ≠ space ++ (word ++ before) := by
  intro heq
  -- The declaration would have to begin before the name or behind it.
  rcases List.append_eq_append_iff.1 heq with ⟨more, rfl, hdeclared⟩ | ⟨more, rfl, hdeclared⟩
  · exact h.not_one_word (fun c hc => hspace c (List.mem_append_right late hc)) hword hchars hbefore hdeclared
  · by_cases hmore : more = []
    · subst hmore
      exact h.not_one_word (List.forall_mem_nil _) hword hchars hbefore hdeclared.symm
    · rw [List.getLast?_append_of_ne_nil _ hmore] at hend
      obtain ⟨_, -, -, hbehind⟩ := exists_append_of_break hdeclared.symm hend (notMem_of_class hchars (by decide))
      obtain ⟨c, hc, hnot⟩ := h.exists_nonblank
      have hmem : c ∈ before := by
        rw [← hbehind]
        simp [hc]
      rw [hbefore c hmem] at hnot
      exact absurd hnot (by decide)

/-- No head ends with a line break and another head of the same kind. -/
theorem FunctionHead.not_within (hplain : head.Plain) {inner innerName late : Text}
    (h : head.FunctionHead name source) (hinner : head.FunctionHead innerName inner)
    (hend : late.getLast? = some '\n') : late ++ inner ≠ source := by
  intro hwhole
  obtain ⟨left, before, tail, hleft, rfl, hbefore, hequals, hdot⟩ := h.exists_tail
  obtain ⟨innerLeft, innerBefore, innerTail, hinnerLeft, rfl, -, -, -⟩ := hinner.exists_tail
  cases hleft with
  | @receiver receiver _ indent hindent _ hchars =>
    -- The line break comes after the dot of the outer head, and the inner head has a dot too.
    have hclean : '\n' ∉ indent ++ (receiver ++ (['.'] ++ name)) := by
      simp only [List.mem_append, not_or]
      exact ⟨notMem_of_class hindent (by decide), fun hmem => absurd (hplain _ hmem).1 (by decide), by decide,
        notMem_of_class hchars (by decide)⟩
    obtain ⟨more, -, -, hrest⟩ := exists_append_of_break hwhole hend hclean
    have hmem : '.' ∈ before ++ '=' :: tail := by
      rw [← hrest]
      cases hinnerLeft with
      | receiver => simp
    rw [List.mem_append, List.mem_cons] at hmem
    rcases hmem with hmem | hmem | hmem
    · exact notMem_of_class hbefore (by decide) hmem
    · exact absurd hmem (by decide)
    · exact hdot hmem
  | @declaration _ indent word space hindent hword _ hblank hname hchars =>
    have hclean : '\n' ∉ indent ++ word := by
      rw [List.mem_append, not_or]
      exact ⟨notMem_of_class hindent (by decide), notMem_of_class (isName_declarator hword).2 (by decide)⟩
    have hlate : late ++ (innerLeft ++ (innerBefore ++ '=' :: innerTail)) =
        indent ++ word ++ (space ++ (name ++ (before ++ '=' :: tail))) := by
      rw [hwhole]
      simp only [List.append_assoc]
    obtain ⟨more, -, hmore, hrest⟩ := exists_append_of_break hlate hend hclean
    -- The equals sign of the inner head is that of the outer one.
    have hsign : more ++ (innerLeft ++ innerBefore) = space ++ (name ++ before) := by
      have houtside : '=' ∉ space ++ (name ++ before) := by
        simp only [List.mem_append, not_or]
        exact ⟨notMem_of_class hblank (by decide), notMem_of_class hchars (by decide),
          notMem_of_class hbefore (by decide)⟩
      have hdivided : space ++ (name ++ before) ++ '=' :: tail =
          more ++ (innerLeft ++ innerBefore) ++ '=' :: innerTail := by
        simpa only [List.append_assoc] using hrest.symm
      exact ((List.append_cons_inj_of_notMem houtside hequals).1 hdivided).1.symm
    exact hinnerLeft.not_after_break hmore hblank hname hchars hbefore hsign

/-- A head that begins before a line break does not go on into a head behind it. -/
theorem FunctionHead.length_le (hplain : head.Plain) {outer outerName late rest tail : Text}
    (houter : head.FunctionHead outerName outer) (h : head.FunctionHead name source)
    (hend : late.getLast? = some '\n') (hsplit : late ++ (source ++ rest) = outer ++ tail) :
    outer.length ≤ late.length := by
  apply Nat.le_of_not_lt
  intro hlonger
  obtain ⟨inside, rfl, hinside⟩ : ∃ inside, outer = late ++ inside ∧ inside ++ tail = source ++ rest := by
    rcases List.append_eq_append_iff.1 hsplit with ⟨inside, rfl, hrest⟩ | ⟨more, rfl, -⟩
    · exact ⟨inside, rfl, hrest.symm⟩
    · rw [List.length_append] at hlonger
      omega
  -- It would end with the same parenthesis, and so with the whole of the other head.
  have hlast : inside = source := by
    obtain ⟨before, rfl, hbefore⟩ := h.eq_concat hplain
    obtain ⟨outerBefore, houterEq, houterParen⟩ := houter.eq_concat hplain
    rcases List.eq_nil_or_concat' inside with rfl | ⟨between, last, rfl⟩
    · simp at hlonger
    · rw [← List.append_assoc] at houterEq
      obtain ⟨rfl, hparen⟩ := List.append_inj' houterEq rfl
      obtain rfl := List.singleton_inj.1 hparen
      rw [List.mem_append, not_or] at houterParen
      rw [List.append_assoc, List.append_assoc] at hinside
      rw [eq_of_append_cons_eq hinside houterParen.2 hbefore]
  rw [hlast] at houter
  exact houter.not_within hplain h hend rfl

end MemberHead

/-! ### Whole functions -/

/-- A text that is a function from its indentation to the brace that closes it: a head, balanced parameters, and a
balanced body behind the first brace after them. -/
inductive WholeFunction (head : MemberHead) : (source : Text) → Prop
  /-- The parts of the function. -/
  | intro {name opening params gap raw : Text} (hhead : head.FunctionHead name opening)
      (hparams : Delimiter.paren.Balanced params) (hgap : '{' ∉ gap) (hraw : Delimiter.brace.Balanced raw) :
      WholeFunction head (opening ++ (params ++ ([')'] ++ (gap ++ (['{'] ++ (raw ++ ['}']))))))

variable {head : MemberHead} {front : Text}

/-- A function is not empty: it ends with a brace. -/
theorem WholeFunction.ne_nil {source : Text} (h : WholeFunction head source) : source ≠ [] := by
  cases h
  simp

/-- A head at the beginning of a line is found. -/
theorem mem_occurrences_functionHead (hplain : head.Plain) {name opening : Text}
    (hhead : head.FunctionHead name opening) (hline : ∀ c ∈ front.getLast?, c = '\n') (rest : Text) :
    ⟨front.length, front.length + opening.length, name⟩ ∈
      head.functionHead.occurrences (front ++ (opening ++ rest)) := by
  apply Pattern.mem_occurrences_of_at?
  · have hleft : head.functionHead.left front.reverse (opening ++ rest) = true := by
      show front.reverse.head?.all (· == '\n') = true
      rw [List.head?_reverse]
      cases hlast : front.getLast? with
      | none => rfl
      | some c => simpa using hline c hlast
    rw [Pattern.at?, if_pos hleft, MemberHead.read_functionHead hplain hhead]
    simp
  · intro early late hfront hne m other hother
    obtain ⟨tail, hread, rfl⟩ := Pattern.read_of_at? hother
    obtain ⟨outer, hsplit, houter⟩ := MemberHead.functionHead_of_read hread
    rw [hsplit, List.length_append, Nat.add_sub_cancel]
    rw [hfront, List.getLast?_append_of_ne_nil _ hne] at hline
    have hsome := List.getLast?_eq_some_getLast hne
    exact houter.length_le hplain hhead (by rw [hsome, hline _ hsome]) hsplit

/-- The function behind a head is read when its parameters and its body are closed. -/
theorem readFunction_whole (comments : List Text) (hplain : head.Plain) {name opening params gap raw : Text}
    (hhead : head.FunctionHead name opening) (hparams : Delimiter.paren.Balanced params) (hgap : '{' ∉ gap)
    (hraw : Delimiter.brace.Balanced raw) (front rest : Text) :
    ∃ stop f, readFunction comments
        (front ++ (opening ++ (params ++ ([')'] ++ (gap ++ (['{'] ++ (raw ++ (['}'] ++ rest))))))))
        ⟨front.length, front.length + opening.length, name⟩ = .ok (stop, f) := by
  obtain ⟨before, rfl, -⟩ := hhead.eq_concat hplain
  generalize htext : front ++ (before ++ ['('] ++ (params ++ ([')'] ++ (gap ++ (['{'] ++ (raw ++ (['}'] ++ rest))))))) =
    text
  have hopen : front.length + (before ++ ['(']).length - 1 = (front ++ before).length := by
    simp only [List.length_append, List.length_singleton]
    omega
  have hparamsClose : Delimiter.paren.close text ((front ++ before).length : Nat) =
      .ok ((front ++ before).length + 1 + params.length) := by
    have hclose := Delimiter.close_append hparams (front ++ before) (gap ++ ['{'] ++ raw ++ ['}'] ++ rest)
    rw [← htext]
    simpa [Delimiter.opening, Delimiter.closing] using hclose
  -- The first brace is looked for from the closing parenthesis on.
  have hbodyClose : Delimiter.brace.closeOfNext text ((front ++ before).length + 1 + params.length) =
      .ok ((front ++ before).length + 1 + params.length + (gap.length + 1),
        (front ++ before).length + 1 + params.length + (gap.length + 1) + 1 + raw.length) := by
    have hfirst : Delimiter.brace.opening ∉ ')' :: gap := by simpa [Delimiter.opening] using hgap
    have hclose := Delimiter.closeOfNext_append hfirst hraw (front ++ before ++ '(' :: params) rest
    rw [← htext]
    simpa [Delimiter.opening, Delimiter.closing, Nat.add_assoc, Nat.add_comm 1] using hclose
  simp only [readFunction, hopen, hparamsClose, hbodyClose, bind, Except.bind, Except.mapError, pure, Except.pure]
  exact ⟨_, _, rfl⟩

/-- Every occurrence that can be read is cut out, or begins inside an earlier cut. -/
theorem exists_cut_of_mem {α β ε : Type} {read : Occurrence α → Except ε (Nat × β)} {least : Nat}
    {occurrences : List (Occurrence α)}
    (hsorted : occurrences.Pairwise fun first second => first.start ≤ second.start) {found : Occurrence α}
    (hfound : found ∈ occurrences) (hleast : least ≤ found.start) {stop : Nat} {value : β}
    (hread : read found = .ok (stop, value)) (hstop : found.start < stop) :
    ∃ cut ∈ cutsOf (sweep read least occurrences), cut.start ≤ found.start ∧ found.start < cut.stop := by
  induction occurrences generalizing least with
  | nil => exact absurd hfound List.not_mem_nil
  | cons first rest ih =>
    obtain ⟨hfirst, hrest⟩ := List.pairwise_cons.1 hsorted
    rw [sweep]
    rcases List.mem_cons.1 hfound with rfl | hlater
    · rw [if_neg (Nat.not_lt.2 hleast), hread]
      exact ⟨⟨found.start, stop, value⟩, List.mem_cons_self, Nat.le_refl _, hstop⟩
    · split
      · exact ih hrest hlater hleast
      · split
        · exact ih hrest hlater hleast
        · next cutStop cutValue _ =>
          -- The pass goes on behind the cut, which has the occurrence in it or ends before it.
          by_cases hinside : found.start < cutStop
          · exact ⟨⟨first.start, cutStop, cutValue⟩, List.mem_cons_self, hfirst found hlater, hinside⟩
          · obtain ⟨cut, hcut, hcovers⟩ := ih hrest hlater (Nat.le_of_not_lt hinside)
            exact ⟨cut, List.mem_cons_of_mem _ hcut, hcovers⟩

/-- A pass takes the beginning of every function that stands whole at the beginning of a line. -/
theorem exists_cut_of_stands (comments : List Text) (hplain : head.Plain) {source : Text}
    (hsource : WholeFunction head source) (hline : ∀ c ∈ front.getLast?, c = '\n') (rest : Text) :
    let text := front ++ (source ++ rest)
    ∃ cut ∈ cutsOf (sweep (readFunction comments text) 0 (head.functionHead.occurrences text)),
      cut.start ≤ front.length ∧ front.length < cut.stop := by
  intro text
  obtain @⟨name, opening, params, gap, raw, hhead, hparams, hgap, hraw⟩ := hsource
  have htext : text = front ++ (opening ++ (params ++ ([')'] ++ (gap ++ (['{'] ++ (raw ++ (['}'] ++ rest))))))) := by
    simp only [text, List.append_assoc]
  obtain ⟨stop, f, hread⟩ := readFunction_whole comments hplain hhead hparams hgap hraw front rest
  have hfound := mem_occurrences_functionHead hplain hhead hline
    (params ++ ([')'] ++ (gap ++ (['{'] ++ (raw ++ (['}'] ++ rest))))))
  rw [← htext] at hread hfound
  obtain ⟨hstop, -⟩ := functionCut_of_readFunction hfound hread
  exact exists_cut_of_mem (Pattern.pairwise_occurrences ..) hfound (Nat.zero_le _) hread hstop

/-- What a pass cuts out begins with a function that stands whole at the beginning of a line. -/
theorem FunctionCut.exists_whole {comments : List Text} {text : Text} {cut : Cut Function} {parts : FunctionParts}
    (h : FunctionCut comments head text cut parts) (hstart : cut.start < cut.stop) :
    ∃ front source rest, text = front ++ (source ++ rest) ∧ (∀ c ∈ front.getLast?, c = '\n') ∧
      WholeFunction head source := by
  refine ⟨text.take cut.start, _, parts.trailer ++ text.drop cut.stop, ?_, ?_, .intro h.head h.params h.gap h.raw⟩
  · have htake : text.take cut.start = (text.take cut.stop).take cut.start := by
      rw [List.take_take, Nat.min_eq_left (Nat.le_of_lt hstart)]
    have hsplit : text = text.take cut.start ++ (text.slice cut.start cut.stop ++ text.drop cut.stop) := by
      rw [htake, Text.slice, ← List.append_assoc, List.take_append_drop, List.take_append_drop]
    rw [h.source_eq] at hsplit
    simpa only [FunctionParts.source, List.append_assoc] using hsplit
  · intro c hc
    rw [List.getLast?_take] at hc
    rcases h.lineStart with hzero | hbreak
    · simp [hzero] at hc
    · rw [hbreak, Option.some_or] at hc
      split at hc
      · exact absurd hc (by simp)
      · exact (Option.some.inj hc).symm

/-- No cut of a function pass ends with a line break. -/
theorem FunctionCut.getElem_stop {comments : List Text} {text : Text} {cut : Cut Function} {parts : FunctionParts}
    (h : FunctionCut comments head text cut parts) (hstart : cut.start < cut.stop) (hstop : cut.stop ≤ text.length) :
    text[cut.stop - 1]? ≠ some '\n' := by
  intro hbreak
  have hslice : text.slice cut.start cut.stop = text.slice cut.start (cut.stop - 1) ++ ['\n'] := by
    have hlast := Text.slice_succ hbreak
    rw [Nat.sub_add_cancel (by omega)] at hlast
    rw [Text.slice_eq_append (by omega) (Nat.sub_le cut.stop 1) hstop, hlast]
  -- The last character is the closing brace or one of the trailer.
  have hend : parts.source.getLast? = ('}' :: parts.trailer).getLast? := by
    have hsource : parts.source = (parts.opening ++ (parts.params ++ ([')'] ++ (parts.gap ++ (['{'] ++ parts.raw))))) ++
        '}' :: parts.trailer := by simp [FunctionParts.source]
    rw [hsource, List.getLast?_append_of_ne_nil _ (List.cons_ne_nil '}' parts.trailer)]
  rw [← h.source_eq, hslice, List.getLast?_concat] at hend
  obtain ⟨before, mark, after, htrailer, hbefore, hmark, hafter⟩ := h.trailer
  have hmem : '\n' ∈ '}' :: parts.trailer := List.mem_of_getLast? hend.symm
  rw [htrailer] at hmem
  simp only [List.mem_cons, List.mem_append] at hmem
  rcases hmem with hmem | hmem | hmem | hmem
  · exact absurd hmem (by decide)
  · exact notMem_of_class hbefore (by decide) hmem
  · rcases hmark with rfl | rfl
    · exact absurd hmem List.not_mem_nil
    · exact absurd hmem (by decide)
  · exact notMem_of_class hafter (by decide) hmem

end AngularUplift
