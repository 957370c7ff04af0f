import AngularUplift.Proofs.Suite.Source
import AngularUplift.Proofs.Text.Line
import AngularUplift.Proofs.Text.Occurrence
import AngularUplift.Suite.Reader
import Mathlib.Data.Bool.AllAny

/-!
# Where blocks begin

The head of a block is found only at the beginning of a statement, and only where its keyword stands as a word of
its own. So no head of a category begins in plain code, in a remark, or in a block of another category around plain
code.

## Main statements

* `TestCategory.at?_head_keyword`: the head of a block that is written at the beginning of a statement.
* `TestCategory.head_of_at?`: what stands where the head of a block is found.
* `TestCategory.absent_print`: no head of another category begins in a part of a suite that is not a suite.
-/

namespace AngularUplift

/-- A character after which a statement may begin. -/
def endsStatement (c : Char) : Bool := c == '\n' || c == ';' || c == '{' || c == '}'

/-- A statement begins at the beginning of a text or after such a character. -/
theorem statementStart_eq (before after : Text) : statementStart before after = before.head?.all endsStatement := by
  cases before with
  | nil => rfl
  | cons c before => simp [statementStart, lineStart, endsStatement, Bool.or_assoc]

namespace TestCategory

/-- The first letter of a keyword. -/
def initial : TestCategory → Char
  | .describe => 'd'
  | .beforeEach => 'b'
  | .xit => 'x'
  | .it => 'i'

/-- A keyword has the first letter of its category, and its other letters end no statement. -/
theorem keyword_eq_cons (category : TestCategory) :
    ∃ rest, category.keyword = category.initial :: rest ∧ ∀ c ∈ rest, endsStatement c = false := by
  -- The letters are decided one by one: there are too many characters to try them all.
  cases category
  · exact ⟨txt "escribe", rfl, List.all_iff_forall_prop.1 rfl⟩
  · exact ⟨txt "eforeEach", rfl, List.all_iff_forall_prop.1 rfl⟩
  · exact ⟨txt "it", rfl, List.all_iff_forall_prop.1 rfl⟩
  · exact ⟨txt "t", rfl, List.all_iff_forall_prop.1 rfl⟩

/-- The first letter of a keyword tells its category. -/
theorem initial_inj {category other : TestCategory} (h : category.initial = other.initial) : category = other := by
  revert h
  cases category <;> cases other <;> decide

/-- The first letter of a keyword is neither white space nor punctuation that ends a statement. -/
theorem isGap_initial (category : TestCategory) :
    isGap category.initial = false ∧ endsStatement category.initial = false := by
  cases category <;> decide

/-- The head of a block that is written at the beginning of a statement. -/
theorem at?_head_keyword (category : TestCategory) {before : Text} (h : before.head?.all endsStatement = true)
    (rest : Text) :
    category.head.at? before (category.keyword ++ '(' :: rest) = some (category.keyword.length + 1, 0) := by
  have hleft : category.head.left before (category.keyword ++ '(' :: rest) = true := by
    rw [← h]
    exact statementStart_eq before _
  have hread : category.head.read (category.keyword ++ '(' :: rest) = some (0, rest) := by
    refine Reader.bind_eq_some_iff.2 ⟨[], category.keyword ++ '(' :: rest, ?_, ?_⟩
    · cases category <;> rfl
    refine Reader.bind_eq_some_iff.2 ⟨(), '(' :: rest, Reader.exactly_eq_some_iff.2 rfl, ?_⟩
    refine Reader.bind_eq_some_iff.2 ⟨[], '(' :: rest, rfl, ?_⟩
    refine Reader.bind_eq_some_iff.2 ⟨(), rest, Reader.exactly_eq_some_iff.2 rfl, ?_⟩
    exact Reader.pure_eq_some_iff.2 ⟨rfl, rfl⟩
  rw [Pattern.at?, if_pos hleft, hread]
  simp
  omega

/-- What is read as the head of a block: spaces, whose number is the value, the keyword, white space and a
parenthesis. -/
theorem read_head_eq_some {category : TestCategory} {text rest : Text} {indent : Nat}
    (h : category.head.read text = some (indent, rest)) :
    ∃ spaces space, text = spaces ++ (category.keyword ++ (space ++ '(' :: rest)) ∧ spaces.length = indent ∧
      (∀ c ∈ spaces, isGap c) ∧ ∀ c ∈ space, isBlank c := by
  simp only [head, Reader.bind_eq_some_iff, Reader.exactly_eq_some_iff, Reader.pure_eq_some_iff] at h
  obtain ⟨spaces, _, hspaces, -, _, rfl, space, _, hspace, -, _, rfl, hindent, rfl⟩ := h
  obtain ⟨rfl, hgap⟩ := Reader.run_eq_some hspaces
  obtain ⟨rfl, hblank⟩ := Reader.run_eq_some hspace
  exact ⟨spaces, space, rfl, hindent, hgap, hblank⟩

/-- What stands where the head of a block is found: spaces, its keyword, white space and a parenthesis, at the
beginning of a statement. -/
theorem head_of_at? {category : TestCategory} {before after : Text} {found : Nat × Nat}
    (h : category.head.at? before after = some found) :
    before.head?.all endsStatement = true ∧
      ∃ indent space rest, after = indent ++ (category.keyword ++ (space ++ '(' :: rest)) ∧
        (∀ c ∈ indent, isGap c) ∧ ∀ c ∈ space, isBlank c := by
  rw [Pattern.at?, Option.ite_none_right_eq_some] at h
  obtain ⟨hleft, hmap⟩ := h
  obtain ⟨⟨value, rest⟩, hread, -⟩ := Option.map_eq_some_iff.1 hmap
  obtain ⟨indent, space, rfl, -, hgap, hblank⟩ := read_head_eq_some hread
  exact ⟨(statementStart_eq before _).symm.trans hleft, indent, space, rest, rfl, hgap, hblank⟩

/-- No head begins at the end of a text. -/
theorem at?_head_nil (category : TestCategory) (before : Text) : category.head.at? before [] = none := by
  refine Option.eq_none_iff_forall_not_mem.2 fun found hfound => ?_
  obtain ⟨-, indent, space, rest, heq, -, -⟩ := head_of_at? hfound
  simp at heq

/-! ### Texts in which no head begins -/

variable {category : TestCategory} {before after : Text}

/-- Punctuation: neither white space before a keyword nor the beginning of one. -/
def isMark (c : Char) : Bool := c == '\n' || c == '/' || c == '{' || c == '}' || c == ')' || c == ';'

/-- No head begins with punctuation. -/
theorem at?_head_mark {mark : Char} (h : isMark mark = true) (before rest : Text) :
    category.head.at? before (mark :: rest) = none := by
  refine Option.eq_none_iff_forall_not_mem.2 fun found hfound => ?_
  obtain ⟨-, indent, space, final, heq, hindent, -⟩ := head_of_at? hfound
  obtain ⟨letters, hkeyword, -⟩ := category.keyword_eq_cons
  cases indent with
  | nil =>
    -- Without spaces before it the keyword itself would begin with the mark.
    rw [hkeyword] at heq
    obtain rfl := (List.cons.inj heq).1
    revert h
    cases category <;> decide
  | cons c indent =>
    have hgap : isGap mark = true := by
      rw [(List.cons.inj heq).1]
      exact hindent c List.mem_cons_self
    simp only [isMark, isGap, Bool.or_eq_true, beq_iff_eq] at h hgap
    rcases hgap with rfl | rfl <;> simp at h

/-- No head begins in punctuation. -/
theorem absent_marks {text : Text} (h : text.all isMark = true) : category.head.Absent after before text := by
  induction text generalizing before with
  | nil => exact trivial
  | cons c text ih =>
    rw [List.all_cons, Bool.and_eq_true] at h
    exact ⟨at?_head_mark h.1 before _, ih h.2⟩

/-- No head begins inside a statement. -/
theorem absent_inside {previous : Char} (hprevious : endsStatement previous = false) {text : Text}
    (h : ∀ c ∈ text, endsStatement c = false) : category.head.Absent after (previous :: before) text := by
  induction text generalizing before previous with
  | nil => exact trivial
  | cons c text ih =>
    obtain ⟨hc, hrest⟩ := List.forall_mem_cons.1 h
    refine ⟨Option.eq_none_iff_forall_not_mem.2 fun found hfound => ?_, ih hc hrest⟩
    -- The character before a head ends a statement.
    have hstart := (head_of_at? hfound).1
    simp [hprevious] at hstart

/-- No head begins in plain code that ends with its line. -/
theorem absent_code (code : PlainCode) : category.head.Absent ('\n' :: after) before code.text := by
  refine Pattern.absent_of_forall fun front back hsplit _ => ?_
  refine Option.eq_none_iff_forall_not_mem.2 fun found hfound => ?_
  obtain ⟨hstart, indent, space, rest, heq, hindent, hspace⟩ := head_of_at? hfound
  -- The keyword would stand in the code, because neither it nor the spaces before it hold a line break.
  have hbreak : '\n' ∉ indent ++ category.keyword := by
    refine fun hmem => (List.mem_append.1 hmem).elim (break_notMem_of_isGap hindent) ?_
    cases category <;> decide
  rw [← List.append_assoc] at heq
  obtain ⟨tail, rfl, htail⟩ := Text.append_cons_eq_append heq hbreak
  refine code.not_hasWord category ⟨front ++ indent, tail, by simp [hsplit], fun c hc => ?_, fun c hc => ?_⟩
  · rw [List.getLast?_append, Option.mem_def, Option.or_eq_some_iff] at hc
    rcases hc with hc | ⟨-, hc⟩
    · exact isName_of_isBlank (isBlank_of_isGap (hindent c (List.mem_of_getLast? hc)))
    · rw [List.head?_append, List.head?_reverse, hc, Option.some_or, Option.all_some] at hstart
      simp only [endsStatement, Bool.or_eq_true, beq_iff_eq] at hstart
      rcases hstart with ((rfl | rfl) | rfl) | rfl <;> rfl
  · have hhead : (space ++ '(' :: rest).head? = some c := by
      rw [htail, List.head?_append, Option.mem_def.1 hc, Option.some_or]
    cases space with
    | nil =>
      obtain rfl := Option.some.inj hhead
      rfl
    | cons d space =>
      obtain rfl := Option.some.inj hhead
      exact isName_of_isBlank (hspace _ List.mem_cons_self)

/-- No head begins in a remark. -/
theorem absent_remark (remark : Option Remark) : category.head.Absent after before (Remark.line remark) := by
  cases remark with
  | none => exact trivial
  | some remark =>
    have hinside : ∀ c ∈ txt "/ " ++ remark.text, endsStatement c = false := by
      intro c hc
      rcases List.mem_append.1 hc with hmark | htext
      · have hall : ∀ d ∈ txt "/ ", endsStatement d = false := List.all_iff_forall_prop.1 rfl
        exact hall c hmark
      · obtain ⟨-, -, h₁, h₂, h₃, -, h₄⟩ := remark.plain c htext
        simp [endsStatement, h₁, h₂, h₃, h₄]
    refine Pattern.absent_append.2 ⟨⟨at?_head_mark rfl before _, ?_⟩, absent_marks rfl⟩
    exact absent_inside rfl hinside

/-- No head of one category begins with the keyword of another one. -/
theorem at?_head_other {other : TestCategory} (h : other ≠ category) (before rest : Text) :
    category.head.at? before (other.keyword ++ rest) = none := by
  refine Option.eq_none_iff_forall_not_mem.2 fun found hfound => ?_
  obtain ⟨-, indent, space, final, heq, hindent, -⟩ := head_of_at? hfound
  obtain ⟨letters, hkeyword, -⟩ := category.keyword_eq_cons
  obtain ⟨others, hother, -⟩ := other.keyword_eq_cons
  rw [hother, hkeyword, List.cons_append, List.cons_append] at heq
  cases indent with
  | nil => exact h (initial_inj (List.cons.inj heq).1)
  | cons c indent =>
    have hfirst := hindent c List.mem_cons_self
    rw [← (List.cons.inj heq).1, other.isGap_initial.1] at hfirst
    exact Bool.false_ne_true hfirst

/-- No head of one category begins in a block of another category around plain code. -/
theorem absent_blockText {other : TestCategory} (h : other ≠ category) (remark : Option Remark) {opening : Text}
    (hopening : ∀ c ∈ opening, endsStatement c = false) (code : PlainCode) :
    category.head.Absent after before (blockText remark other opening code.text) := by
  obtain ⟨others, hkeyword, hothers⟩ := other.keyword_eq_cons
  -- The block: the keyword's first letter, the rest of the line up to the brace, and the lines after it.
  have hshape : other.keyword ++ '(' :: (opening ++ callback code.text ++ [')', ';']) =
      other.initial :: ((others ++ '(' :: (opening ++ callbackHead)) ++
        (['{', '\n'] ++ (code.text ++ ['\n', '}', ')', ';']))) := by
    rw [hkeyword]
    simp only [callback, List.append_assoc, List.cons_append, List.nil_append]
  have hline : ∀ c ∈ others ++ '(' :: (opening ++ callbackHead), endsStatement c = false := by
    have hcallback : ∀ c ∈ callbackHead, endsStatement c = false := List.all_iff_forall_prop.1 rfl
    intro c hc
    rcases List.mem_append.1 hc with hin | hin
    · exact hothers c hin
    · rcases List.mem_cons.1 hin with rfl | hin
      · rfl
      · exact (List.mem_append.1 hin).elim (hopening c) (hcallback c)
  refine Pattern.absent_append.2 ⟨absent_remark remark, ?_⟩
  have hhead := at?_head_other h ((Remark.line remark).reverse ++ before)
    ('(' :: (opening ++ callback code.text ++ [')', ';']) ++ after)
  rw [← List.append_assoc, hshape] at hhead
  rw [hshape]
  refine ⟨hhead, Pattern.absent_append.2 ⟨absent_inside other.isGap_initial.2 hline, ?_⟩⟩
  refine Pattern.absent_append.2 ⟨absent_marks rfl, Pattern.absent_append.2 ⟨?_, absent_marks rfl⟩⟩
  exact absent_code code

/-- Nothing in the argument of a title ends a statement. -/
theorem endsStatement_argument (title : PlainTitle) : ∀ c ∈ title.argument, endsStatement c = false := by
  have hcomma : ∀ c ∈ ['\'', ',', ' '], endsStatement c = false := List.all_iff_forall_prop.1 rfl
  intro c hc
  rcases List.mem_cons.1 hc with rfl | hin
  · rfl
  · rcases List.mem_append.1 hin with htext | hend
    · obtain ⟨-, -, h₁, h₂, h₃, h₄⟩ := title.plain c htext
      simp [endsStatement, h₁, h₂, h₃, h₄]
    · exact hcomma c hend

/-- No head of one category begins in a part of a suite that is neither a nested suite nor of that category. -/
theorem absent_print {item : SuiteItem} (hsuite : item.category? ≠ some .describe)
    (h : item.category? ≠ some category) : category.head.Absent ('\n' :: after) before item.print := by
  cases item with
  | code plain => exact absent_code plain
  | hook remark body =>
    refine absent_blockText (fun heq => h (congrArg some heq)) remark ?_ body
    exact fun c hc => absurd hc List.not_mem_nil
  | test remark skipped title body =>
    exact absent_blockText (fun heq => h (congrArg some heq)) remark (endsStatement_argument title) body
  | suite remark title items => exact absurd rfl hsuite

end TestCategory

end AngularUplift
