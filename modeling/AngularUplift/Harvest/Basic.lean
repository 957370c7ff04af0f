import AngularUplift.Buffer
import AngularUplift.Harvest.Head
import AngularUplift.Log
import AngularUplift.Member
import AngularUplift.Registration.Factory
import AngularUplift.Text.Comment
import AngularUplift.Text.Statement
import AngularUplift.Text.Tidy

/-!
# Harvesting members

A body is emptied in passes. Each pass looks at what the earlier ones have left, cuts pieces out of it that do
not overlap, and consumes them: first the functions, one left-hand side after the other, then event calls and
named functions, then the other assignments. What no pass could place is the residual.

## Main definitions

* `Cut`: a piece cut out of a view, with what it holds.
* `sweep`: the cuts of one pass over a view, from the occurrences of a pattern.
* `SourceBuffer.consumeCuts`: the buffer after a pass.
* `Harvester.harvest`: the whole run; `Harvest` is its outcome.
* `unmigratedBlock`: the comment that keeps what could not be placed.
-/

namespace AngularUplift

/-- A piece cut out of a view. -/
structure Cut (α : Type) where
  /-- The position of its first character in the view. -/
  start : Nat
  /-- The position just past its last character in the view. -/
  stop : Nat
  /-- What it holds. -/
  value : α
deriving Repr

/-- The verdicts of one pass on the occurrences of a pattern: a cut, or the reason why the occurrence is left
where it is. Occurrences inside the last cut are passed over. -/
def sweep {α β ε : Type} (read : Occurrence α → Except ε (Nat × β)) (least : Nat) :
    List (Occurrence α) → List (Except ε (Cut β))
  | [] => []
  | found :: rest =>
    if found.start < least then sweep read least rest
    else
      match read found with
      | .error reason => .error reason :: sweep read least rest
      | .ok (stop, value) => .ok ⟨found.start, stop, value⟩ :: sweep read stop rest

/-- The cuts among the verdicts of a pass. -/
def cutsOf {β ε : Type} (verdicts : List (Except ε (Cut β))) : List (Cut β) :=
  verdicts.filterMap fun
    | .ok cut => some cut
    | .error _ => none

/-- The buffer after the cuts of a pass over a view of it are consumed. -/
def SourceBuffer.consumeCuts {β : Type} (buffer : SourceBuffer) (view : SourceView)
    (cuts : List (Cut β)) : SourceBuffer :=
  cuts.foldl (fun b cut => b.consumeView view cut.start cut.stop) buffer

/-- The position after spaces, a semicolon or none, and spaces. -/
def trailerEnd (text : Text) (position : Nat) : Nat :=
  let afterGap := (text.drop position).dropWhile isGap
  let afterMark :=
    match afterGap with
    | ';' :: rest => rest.dropWhile isGap
    | rest => rest
  text.length - afterMark.length

/-! ### Passes -/

/-- The function whose head occurs in a view, and where its cut ends; the reason for leaving it names it. -/
def readFunction (comments : List Text) (text : Text) (found : Occurrence Text) :
    Except (Text × Fault) (Nat × Function) :=
  let read : Except Fault (Nat × Function) := do
    let paramsOpen := found.stop - 1
    let paramsClose ← Delimiter.paren.close text paramsOpen
    let (brace, close) ← Delimiter.brace.closeOfNext text paramsClose
    return (trailerEnd text (close + 1),
      { name := found.value
        parameters := (Factory.parameterNames (text.slice (paramsOpen + 1) paramsClose)).map Variable.named
        body := Text.trimRight (Text.trimBreaks (text.slice (brace + 1) close))
        comment := commentFor found.value comments })
  read.mapError fun fault => (found.value, fault)

/-- The call whose head occurs in a view, verbatim and trimmed, and where its cut ends. A function declaration
ends with its body, a call with its parenthesis. -/
def readBlock (isFunction : Bool) (text : Text) (found : Occurrence Unit) :
    Except Fault (Nat × Text) := do
  let paramsClose ← Delimiter.paren.close text (found.stop - 1 : Nat)
  let close ← if isFunction then (·.2) <$> Delimiter.brace.closeOfNext text paramsClose else pure paramsClose
  let stop := trailerEnd text (close + 1)
  return (stop, Text.trim (text.slice found.start stop))

/-- The right-hand side of the assignment whose head occurs in a view with the assigned name, and where its cut
ends. Functions are left to the function passes. -/
def readProperty (text : Text) (found : Occurrence Text) : Except Unit (Nat × Text × Text) :=
  let stop := text.statementEnd found.stop
  let source := trimExpression (text.slice found.stop stop)
  if source.startsWith (txt "function") then .error ()
  else .ok (trailerEnd text stop, found.value, source)

/-! ### Outcome -/

/-- What was harvested from a body. -/
structure Harvest where
  /-- The functions, in the order of the passes. -/
  functions : List Function := []
  /-- The other members. -/
  properties : List Variable := []
  /-- Event calls and named functions, verbatim. -/
  preserved : List Text := []
  /-- What is left of the body. -/
  residual : Text := []
deriving Repr

/-- A line of nothing but spaces, tabs and semicolons, with its line break. -/
def leftoverLine : Pattern Unit where
  left := lineStart
  read := do
    let _ ← Reader.run fun c => isGap c || c == ';'
    Reader.endOfLine
    Reader.optionally ['\n']

/-- A comment that keeps leftover code, or nothing when no code is left over. A comment mark in the code cannot
close the comment early. -/
def unmigratedBlock (residual : Text) (preserved : List Text) : Text :=
  let leftover := Text.removeEmptyLines (leftoverLine.erase residual)
  let parts := ((leftover :: preserved).map Text.trim).filter (!·.isEmpty)
  if parts.isEmpty then []
  else
    txt "/*\nTODO: Unmigrated code\n" ++
      (Text.join ['\n'] parts).replaceAll (txt "*/") (txt "* /") ++ txt "\n*/"

/-- The comment that keeps what could not be placed. -/
def Harvest.todo (h : Harvest) : Text := unmigratedBlock h.residual h.preserved

/-! ### The run -/

/-- Which left-hand sides give members. -/
structure Harvester where
  /-- The receivers, in the order of their passes. -/
  receivers : List Text := [txt "ctrl", txt "this"]
  /-- Whether declared variables are members too. -/
  declarations : Bool := true
deriving DecidableEq, Repr

namespace Harvester

/-- The left-hand sides, in the order of their passes. -/
def heads (h : Harvester) : List MemberHead :=
  h.receivers.map .receiver ++ if h.declarations then [.declaration] else []

/-- The text that is harvested: the body without comments and without `.bind(this)`. -/
def prepare (body : Text) : SourceBuffer := .ofText (Text.removeBindThis body.stripComments)

/-- The area of the program that harvesting reports under. -/
def area : Text := txt "analyzers.harvest"

/-- What a function pass tells about one verdict. -/
def functionRecord : Except (Text × Fault) (Cut Function) → LogRecord
  | .error (name, fault) =>
    .debug area (txt "Skipping malformed function " ++ name ++ txt ": " ++ fault.message)
  | .ok cut => .debug area (txt "Harvested function " ++ cut.value.name)

/-- The function passes: the functions, the buffer after them and what they tell. -/
def functionPasses (comments : List Text) :
    List MemberHead → SourceBuffer → List Function × SourceBuffer × List LogRecord
  | [], buffer => ([], buffer, [])
  | head :: rest, buffer =>
    let view := buffer.view
    let verdicts := sweep (readFunction comments view.text) 0 (head.functionHead.occurrences view.text)
    let cuts := cutsOf verdicts
    let (functions, buffer, records) := functionPasses comments rest (buffer.consumeCuts view cuts)
    (cuts.map (·.value) ++ functions, buffer, verdicts.map functionRecord ++ records)

/-- What a pass over calls tells about a verdict. -/
def blockRecord? : Except Fault (Cut Text) → Option LogRecord
  | .error fault => some (.debug area (txt "Leaving malformed block in place: " ++ fault.message))
  | .ok _ => none

/-- A pass over calls: their texts, the buffer after it and what it tells. -/
def blockPass (isFunction : Bool) (head : Pattern Unit) (buffer : SourceBuffer) :
    List Text × SourceBuffer × List LogRecord :=
  let view := buffer.view
  let verdicts := sweep (readBlock isFunction view.text) 0 (head.occurrences view.text)
  let cuts := cutsOf verdicts
  (cuts.map (·.value), buffer.consumeCuts view cuts, verdicts.filterMap blockRecord?)

/-- The passes over the other assignments: the assigned names with their right-hand sides, and the buffer after
them. -/
def propertyPasses : List MemberHead → SourceBuffer → List (Text × Text) × SourceBuffer
  | [], buffer => ([], buffer)
  | head :: rest, buffer =>
    let view := buffer.view
    let cuts := cutsOf (sweep (readProperty view.text) 0 (head.propertyHead.occurrences view.text))
    let (assignments, buffer) := propertyPasses rest (buffer.consumeCuts view cuts)
    (cuts.map (·.value) ++ assignments, buffer)

/-- The variables of a sequence of assignments. Only the first assignment to a name counts, and a variable that
stands for the receiver itself is none. -/
def recordProperties (seen : List Text) : List (Text × Text) → List Variable
  | [] => []
  | (name, source) :: rest =>
    if source = txt "this" ∨ name ∈ seen then recordProperties seen rest
    else Variable.assigned name source :: recordProperties (name :: seen) rest

/-- The names that are not known yet, each once. -/
def newNames (known : List Text) : List Text → List Text
  | [] => []
  | name :: rest =>
    if name ∈ known then newNames known rest else name :: newNames (name :: known) rest

/-- The properties, followed by the members that are first assigned inside a function. -/
def declareAssigned (h : Harvester) (functions : List Function) (properties : List Variable) :
    List Variable :=
  let known := properties.map (·.name) ++ functions.map (·.name)
  let assigned := functions.flatMap fun f =>
    ((memberAssignment h.receivers).occurrences f.body).map (·.value)
  properties ++ (newNames known assigned).map Variable.named

/-- The members of a body, and what harvesting them tells. -/
def harvest (h : Harvester) (body : Text) : Harvest × List LogRecord :=
  let (functions, buffer, functionRecords) := functionPasses body.blockComments h.heads (prepare body)
  let (events, buffer, eventRecords) := blockPass false (eventHead h.receivers) buffer
  let (named, buffer, namedRecords) := blockPass true namedFunctionHead buffer
  let (assignments, buffer) := propertyPasses h.heads buffer
  let properties := recordProperties [] assignments
  ({ functions
     properties := h.declareAssigned functions properties
     preserved := events ++ named
     residual := buffer.residual },
    functionRecords ++ eventRecords ++ namedRecords ++
      properties.map fun p => .debug area (txt "Harvested property " ++ p.name))

end Harvester

end AngularUplift
