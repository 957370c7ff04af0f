import AngularUplift.Buffer
import AngularUplift.Log
import AngularUplift.Suite.Basic
import AngularUplift.Text.Arguments
import AngularUplift.Text.Delimiter
import AngularUplift.Text.Pattern

/-!
# Reading test suites

The body of a suite is searched category by category: nested suites, hooks, skipped tests, tests. Every block
that is found is consumed, with the comment above it, before the search goes on, so that what is left in the end
is the suite's own body. The head of a block that is not balanced is consumed too, so that every round makes
progress.

## Main definitions

* `Block`, `Block.read`: one block of a suite.
* `Suite.children`: the nodes of a suite's body and what is left of it.
* `Suite.analyze`: the first suite of a text.
-/

namespace AngularUplift

/-- The beginning of a statement: the beginning of a line, or after a semicolon or a brace. -/
def statementStart (before after : Text) : Bool :=
  lineStart before after || before.head?.any fun c => c == ';' || c == '{' || c == '}'

/-- The keyword of a category and its opening parenthesis; the value is the number of spaces and tabs before the
keyword. -/
def TestCategory.head (category : TestCategory) : Pattern Nat where
  left := statementStart
  read := do
    let indent ← Reader.gap
    Reader.exactly category.keyword
    let _ ← Reader.blanks
    Reader.exactly ['(']
    return indent.length

/-- The comment directly above a position, and where it starts; without a comment, the position itself. -/
def precedingComment (text : Text) (index : Nat) : Text × Nat :=
  let before := Text.trimRight (text.take index)
  let lineComment : Text × Nat :=
    let lineStart := ((Text.lastIndexOf? ['\n'] before).map (· + 1)).getD 0
    let line := before.drop lineStart
    let content := Text.trimLeft line
    if content.startsWith (txt "//") then (content, lineStart + (line.length - content.length))
    else ([], index)
  if before.endsWith (txt "*/") then
    match Text.lastIndexOf? (txt "/*") before with
    | some start => (before.drop start, start)
    | none => lineComment
  else lineComment

/-- The number of characters before the brace that opens a callback's body: the first brace outside string
literals and parentheses. `previous` is the character before the text. -/
def callbackBrace? (depth : Int) (quote : Option Char) (previous : Char) : Text → Option Nat
  | [] => none
  | c :: cs =>
    match quote with
    | some q =>
      (callbackBrace? depth (if c = q ∧ previous ≠ '\\' then none else some q) c cs).map (· + 1)
    | none =>
      if isQuote c then (callbackBrace? depth (some c) c cs).map (· + 1)
      else if c = '(' then (callbackBrace? (depth + 1) none c cs).map (· + 1)
      else if c = ')' then (callbackBrace? (depth - 1) none c cs).map (· + 1)
      else if c = '{' ∧ depth = 0 then some 0
      else (callbackBrace? depth none c cs).map (· + 1)

/-- A block of a suite. -/
structure Block where
  /-- The comment above it. -/
  comment : Text
  /-- Where its cut begins. -/
  start : Nat
  /-- Where its cut ends. -/
  stop : Nat
  /-- Where its keyword stands. -/
  keywordStart : Nat
  /-- What stands between its parentheses. -/
  arguments : Text
  /-- Its title. -/
  title : Text
  /-- Where the body of its callback begins. -/
  bodyStart : Nat
  /-- The body of its callback. -/
  body : Text
deriving DecidableEq, Repr

/-- The position after spaces and a semicolon or none. -/
def blockTrailerEnd (text : Text) (position : Nat) : Nat :=
  let afterGap := (text.drop position).dropWhile isGap
  match afterGap with
  | ';' :: rest => text.length - rest.length
  | rest => text.length - rest.length

/-- The block whose head occurs in a text. A hook has no title and no callback of its own. -/
def Block.read (category : TestCategory) (text : Text) (found : Occurrence Nat) : Except Fault Block := do
  let keywordStart := found.start + found.value
  let (comment, start) := precedingComment text keywordStart
  let openIndex := found.stop - 1
  let closeIndex ← Delimiter.paren.close text openIndex
  let stop := blockTrailerEnd text (closeIndex + 1)
  let arguments := text.slice (openIndex + 1) closeIndex
  let title := Text.unquote ((Text.splitArguments arguments).headD [])
  let block : Block :=
    { comment, start, stop, keywordStart, arguments, title, bodyStart := closeIndex, body := [] }
  if category = .beforeEach then return block
  else
    match callbackBrace? 0 none '(' arguments with
    | none => return block
    | some n => do
      let brace := openIndex + 1 + n
      let bodyEnd ← Delimiter.brace.close text brace
      return { block with bodyStart := brace + 1, body := text.slice (brace + 1) bodyEnd }

namespace Suite

/-- The area of the program that suites report under. -/
def area : Text := txt "analyzers.specs"

/-- A node that is no suite. -/
def leaf (category : TestCategory) (block : Block) (offset : Int) : TestNode :=
  match category with
  | .beforeEach => .beforeEach (Text.trim block.arguments) block.comment offset
  | .xit => .xit block.title (Text.trim block.body) block.comment offset
  | _ => .it block.title (Text.trim block.body) block.comment offset

mutual

/-- The nodes of one category in a suite's body, the buffer after they are consumed, and what the search tells.
Every round takes one step of the fuel. -/
def rounds : (fuel : Nat) → TestCategory → SourceBuffer → (base : Int) →
    List TestNode × SourceBuffer × List LogRecord
  | 0, _, buffer, _ => ([], buffer, [])
  | fuel + 1, category, buffer, base =>
    let view := buffer.view
    match category.head.find? view.text with
    | none => ([], buffer, [])
    | some found =>
      match Block.read category view.text found with
      | .error fault =>
        let buffer := buffer.consumeView view (found.start + found.value : Nat) found.stop
        let (nodes, buffer, records) := rounds fuel category buffer base
        (nodes, buffer, .debug area (txt "Leaving unbalanced " ++ category.label ++
          txt " block in place: " ++ fault.message) :: records)
      | .ok block =>
        let offset := base + view.toSource block.keywordStart
        let (node, nodeRecords) :=
          match category with
          | .describe =>
            let (children, residual, records) :=
              children fuel block.body (base + view.toSource block.bodyStart)
            (.describe block.title (Text.trim residual) block.comment offset children, records)
          | category => (leaf category block offset, [])
        let buffer := buffer.consumeView view block.start block.stop
        let (nodes, buffer, records) := rounds fuel category buffer base
        (node :: nodes, buffer, nodeRecords ++ records)

/-- The nodes of a suite's body in the order of the categories, what is left of the body, and what the search
tells. `base` is the position of the body in the file. -/
def children : (fuel : Nat) → Text → (base : Int) → List TestNode × Text × List LogRecord
  | 0, body, _ => ([], body, [])
  | fuel + 1, body, base =>
    let (suites, buffer, suiteRecords) := rounds fuel .describe (.ofText body) base
    let (hooks, buffer, hookRecords) := rounds fuel .beforeEach buffer base
    let (skipped, buffer, skippedRecords) := rounds fuel .xit buffer base
    let (tests, buffer, testRecords) := rounds fuel .it buffer base
    (suites ++ hooks ++ skipped ++ tests, buffer.residual,
      suiteRecords ++ hookRecords ++ skippedRecords ++ testRecords)

end

/-- Whether a text holds a suite. -/
def isPresent (text : Text) : Bool := TestCategory.describe.head.occursIn text

/-- The first suite of a text, if there is one. Every round consumes a character, so the fuel never runs out. -/
def analyze (text : Text) : Logged (Option TestNode) :=
  match TestCategory.describe.head.find? text with
  | none => return none
  | some found => do
    let block ← Logged.ofExcept (Block.read .describe text found)
    let (nodes, residual, records) := children (block.body.length + 2) block.body block.bodyStart
    Logged.tell records
    return some (.describe block.title (Text.trim residual) block.comment block.keywordStart nodes)

end Suite

end AngularUplift
