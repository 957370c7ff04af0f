import AngularUplift.Proofs.Text.Delimiter
import AngularUplift.Suite.Basic
import AngularUplift.Text.Class

/-!
# Suites as source text

A suite is written down line by line: its own code, and blocks that each begin on a line of their own, with a
comment line above them or none. This module says which texts may stand where and how a suite is written.

## Main definitions

* `PlainCode`, `PlainTitle`, `Remark`: the texts that a suite is made of.
* `SuiteItem`, `SuiteItem.print`: a suite and its parts, and how they are written.

## Main statements

* `SuiteItem.balanced_print`: whatever is written is balanced.
-/

namespace AngularUplift

/-! ### Texts of a suite -/

/-- A text holds a word that is not part of a longer name. -/
def Text.HasWord (text word : Text) : Prop :=
  ∃ before after, text = before ++ word ++ after ∧
    (∀ c ∈ before.getLast?, isName c = false) ∧ ∀ c ∈ after.head?, isName c = false

/-- Code that begins no block: the body of a test, or the own code of a suite. -/
structure PlainCode where
  /-- The code. -/
  text : Text
  /-- Its parentheses are balanced. -/
  parens : Delimiter.paren.Balanced text
  /-- Its braces are balanced. -/
  braces : Delimiter.brace.Balanced text
  /-- It holds no comment. -/
  slash_notMem : '/' ∉ text
  /-- It holds no keyword of a block. -/
  not_hasWord : ∀ category : TestCategory, ¬text.HasWord category.keyword

/-- A title that stands between single quotation marks as it is. -/
structure PlainTitle where
  /-- The title. -/
  text : Text
  /-- Its parentheses are balanced. -/
  parens : Delimiter.paren.Balanced text
  /-- It neither ends its literal nor begins a statement. -/
  plain : ∀ c ∈ text, c ≠ '\'' ∧ c ≠ '\\' ∧ c ≠ ';' ∧ c ≠ '{' ∧ c ≠ '}' ∧ c ≠ '\n'

/-- What a comment line says. -/
structure Remark where
  /-- The text after the comment mark. -/
  text : Text
  /-- It stays on its line and holds neither a delimiter, a semicolon nor a slash. -/
  plain : ∀ c ∈ text, c ≠ '(' ∧ c ≠ ')' ∧ c ≠ '{' ∧ c ≠ '}' ∧ c ≠ ';' ∧ c ≠ '/' ∧ c ≠ '\n'

/-- No code at all. -/
def PlainCode.empty : PlainCode where
  text := []
  parens := .of_notMem List.not_mem_nil List.not_mem_nil
  braces := .of_notMem List.not_mem_nil List.not_mem_nil
  slash_notMem := List.not_mem_nil
  not_hasWord category := by
    rintro ⟨before, after, heq, -⟩
    -- The word would have to be empty, and no keyword is.
    have hempty : category.keyword = [] := by
      have hall := List.append_eq_nil_iff.1 heq.symm
      exact (List.append_eq_nil_iff.1 hall.1).2
    revert hempty
    cases category <;> decide

/-- The line of a remark above a block. -/
def Remark.line : Option Remark → Text
  | none => []
  | some remark => txt "// " ++ remark.text ++ ['\n']

/-- The comment that a remark amounts to. -/
def Remark.comment : Option Remark → Text
  | none => []
  | some remark => Text.trim (txt "// " ++ remark.text)

/-- A title as the first argument of a call. -/
def PlainTitle.argument (title : PlainTitle) : Text := '\'' :: (title.text ++ ['\'', ',', ' '])

/-- What stands before the body of a callback. -/
def callbackHead : Text := txt "function () "

/-- A callback with a text on the lines of its body. -/
def callback (inner : Text) : Text := callbackHead ++ '{' :: ('\n' :: inner ++ ['\n'] ++ ['}'])

/-- A block: a remark, a keyword, the arguments before the callback, and the text on the lines of its body. -/
def blockText (remark : Option Remark) (category : TestCategory) (opening inner : Text) : Text :=
  Remark.line remark ++ (category.keyword ++ '(' :: (opening ++ callback inner ++ [')', ';']))

/-! ### Balance of a block -/

/-- A remark holds no parentheses and no braces. -/
theorem Remark.balanced_line {d : Delimiter} (hd : d ≠ .bracket) (remark : Option Remark) :
    d.Balanced (Remark.line remark) := by
  cases remark with
  | none => exact .of_notMem List.not_mem_nil List.not_mem_nil
  | some remark =>
    have hplain : ∀ c ∈ remark.text, c ≠ d.opening ∧ c ≠ d.closing := by
      intro c hc
      obtain ⟨h₁, h₂, h₃, h₄, -⟩ := remark.plain c hc
      cases d with
      | brace => exact ⟨h₃, h₄⟩
      | paren => exact ⟨h₁, h₂⟩
      | bracket => exact absurd rfl hd
    refine .append (.append ?_ ?_) ?_
    · cases d <;> exact .of_notMem (by decide) (by decide)
    · exact .of_notMem (fun hmem => (hplain _ hmem).1 rfl) fun hmem => (hplain _ hmem).2 rfl
    · cases d <;> exact .of_notMem (by decide) (by decide)

/-- A title holds no braces, and its parentheses are balanced. -/
theorem PlainTitle.balanced_argument {d : Delimiter} (hd : d ≠ .bracket) (title : PlainTitle) :
    d.Balanced title.argument := by
  have htext : d.Balanced title.text := by
    cases d with
    | brace =>
      exact .of_notMem (fun hmem => (title.plain _ hmem).2.2.2.1 rfl) fun hmem => (title.plain _ hmem).2.2.2.2.1 rfl
    | paren => exact title.parens
    | bracket => exact absurd rfl hd
  have hmark : d.Balanced ['\''] := by cases d <;> exact .of_notMem (by decide) (by decide)
  have hcomma : d.Balanced ['\'', ',', ' '] := by cases d <;> exact .of_notMem (by decide) (by decide)
  exact hmark.append (htext.append hcomma)

/-- Plain code is balanced in parentheses and in braces. -/
theorem PlainCode.balanced {d : Delimiter} (hd : d ≠ .bracket) (code : PlainCode) : d.Balanced code.text := by
  cases d with
  | brace => exact code.braces
  | paren => exact code.parens
  | bracket => exact absurd rfl hd

/-- A callback around balanced text is balanced. -/
theorem balanced_callback {d : Delimiter} (hd : d ≠ .bracket) {inner : Text} (h : d.Balanced inner) :
    d.Balanced (callback inner) := by
  have hbreak : d.Balanced ['\n'] := by cases d <;> exact .of_notMem (by decide) (by decide)
  have hlines : d.Balanced ('\n' :: inner ++ ['\n']) := (hbreak.append h).append hbreak
  cases d with
  | brace =>
    have hword : Delimiter.brace.Balanced callbackHead := .of_notMem (by decide) (by decide)
    exact hword.append hlines.enclose
  | paren =>
    -- The callback has an empty pair of parentheses of its own.
    have hnil : Delimiter.paren.Balanced [] := .of_notMem List.not_mem_nil List.not_mem_nil
    have hword : Delimiter.paren.Balanced (txt "function ") := .of_notMem (by decide) (by decide)
    have hspace : Delimiter.paren.Balanced [' '] := .of_notMem (by decide) (by decide)
    have hopen : Delimiter.paren.Balanced ['{'] := .of_notMem (by decide) (by decide)
    have hclose : Delimiter.paren.Balanced ['}'] := .of_notMem (by decide) (by decide)
    exact ((hword.append hnil.enclose).append hspace).append (hopen.append (hlines.append hclose))
  | bracket => exact absurd rfl hd

/-- A block around balanced text is balanced. -/
theorem balanced_blockText {d : Delimiter} (hd : d ≠ .bracket) (remark : Option Remark) (category : TestCategory)
    {opening inner : Text} (hopening : d.Balanced opening) (hinner : d.Balanced inner) :
    d.Balanced (blockText remark category opening inner) := by
  have hkeyword : d.Balanced category.keyword := by
    cases d <;> cases category <;> exact .of_notMem (by decide) (by decide)
  have harguments : d.Balanced (opening ++ callback inner) := hopening.append (balanced_callback hd hinner)
  refine (Remark.balanced_line hd remark).append (hkeyword.append ?_)
  cases d with
  | brace =>
    have hparen : Delimiter.brace.Balanced ['('] := .of_notMem (by decide) (by decide)
    have hend : Delimiter.brace.Balanced [')', ';'] := .of_notMem (by decide) (by decide)
    exact hparen.append (harguments.append hend)
  | paren =>
    -- The parentheses of the call enclose its arguments.
    have hend : Delimiter.paren.Balanced [';'] := .of_notMem (by decide) (by decide)
    have hcall := harguments.enclose.append hend
    rwa [List.append_assoc] at hcall
  | bracket => exact absurd rfl hd

/-! ### Suites -/

/-- A part of a suite. -/
inductive SuiteItem where
  /-- Own code. -/
  | code (plain : PlainCode)
  /-- A hook that runs before each test. -/
  | hook (remark : Option Remark) (body : PlainCode)
  /-- A test, which may be skipped. -/
  | test (remark : Option Remark) (skipped : Bool) (title : PlainTitle) (body : PlainCode)
  /-- A nested suite. -/
  | suite (remark : Option Remark) (title : PlainTitle) (items : List SuiteItem)

/-- The category of a test. -/
def testCategory (skipped : Bool) : TestCategory := if skipped then .xit else .it

namespace SuiteItem

/-- The category of a block; own code has none. -/
def category? : SuiteItem → Option TestCategory
  | code _ => none
  | hook .. => some .beforeEach
  | test _ skipped .. => some (testCategory skipped)
  | suite .. => some .describe

/-- What a part of a suite leaves in the suite's own body. -/
def own : SuiteItem → Text
  | code plain => plain.text
  | _ => []

mutual

/-- A part of a suite as it is written. -/
def print : SuiteItem → Text
  | code plain => plain.text
  | hook remark body => blockText remark .beforeEach [] body.text
  | test remark skipped title body => blockText remark (testCategory skipped) title.argument body.text
  | suite remark title items => blockText remark .describe title.argument (Text.join ['\n'] (prints items))

/-- The parts of a suite as they are written. -/
def prints : List SuiteItem → List Text
  | [] => []
  | item :: items => item.print :: prints items

end

/-- The parts of a suite are written one by one. -/
theorem prints_eq_map (items : List SuiteItem) : prints items = items.map print := by
  induction items with
  | nil => rfl
  | cons item items ih => rw [prints, ih, List.map_cons]

/-- Balanced lines are balanced together. -/
theorem balanced_join {d : Delimiter} {texts : List Text} (h : ∀ text ∈ texts, d.Balanced text) :
    d.Balanced (Text.join ['\n'] texts) := by
  have hbreak : d.Balanced ['\n'] := by cases d <;> exact .of_notMem (by decide) (by decide)
  induction texts with
  | nil => exact .of_notMem List.not_mem_nil List.not_mem_nil
  | cons text texts ih =>
    obtain ⟨htext, hrest⟩ := List.forall_mem_cons.1 h
    cases texts with
    | nil => exact htext
    | cons next rest => exact (htext.append hbreak).append (ih hrest)

mutual

/-- Whatever is written is balanced in parentheses and in braces. -/
theorem balanced_print {d : Delimiter} (hd : d ≠ .bracket) : (item : SuiteItem) → d.Balanced item.print
  | code plain => by
    rw [print]
    exact plain.balanced hd
  | hook remark body => by
    rw [print]
    exact balanced_blockText hd remark _ (.of_notMem List.not_mem_nil List.not_mem_nil) (body.balanced hd)
  | test remark skipped title body => by
    rw [print]
    exact balanced_blockText hd remark _ (title.balanced_argument hd) (body.balanced hd)
  | suite remark title items => by
    rw [print]
    exact balanced_blockText hd remark _ (title.balanced_argument hd) (balanced_join (balanced_prints hd items))

/-- Whatever is written in the parts of a suite is balanced in parentheses and in braces. -/
theorem balanced_prints {d : Delimiter} (hd : d ≠ .bracket) :
    (items : List SuiteItem) → ∀ text ∈ prints items, d.Balanced text
  | [] => by simp [prints]
  | item :: items => by
    rw [prints, List.forall_mem_cons]
    exact ⟨balanced_print hd item, balanced_prints hd items⟩

end

/-- The text on the lines of a suite's body is balanced in parentheses and in braces. -/
theorem balanced_body {d : Delimiter} (hd : d ≠ .bracket) (items : List SuiteItem) :
    d.Balanced (Text.join ['\n'] (prints items)) :=
  balanced_join (balanced_prints hd items)

end SuiteItem

end AngularUplift
