import AngularUplift.Fault
import AngularUplift.Text.Pattern
import AngularUplift.Text.Replacement
import AngularUplift.Text.Tidy

/-!
# Receivers

Legacy code reaches the members of a controller through receivers such as `ctrl` or `$scope`. A renaming gives
every receiver of a list the same new name. Receivers are whole names and no members, so `foo.scope` and
`isolateScope` stay as they are.

## Main definitions

* `Renaming`: the old names and what replaces them; `Renaming.make` refuses a list without names and a new name
  that is also an old one.
* `Renaming.apply`: the text with the receivers renamed.
* `arrowFunctions`, `updateBody`: callbacks as arrow functions, and a body made fit for a class.
-/

namespace AngularUplift

/-- Old names of a receiver and what takes their place. -/
structure Renaming where
  /-- The old names. -/
  aliases : List Text
  /-- What takes their place. -/
  target : Replacement
deriving DecidableEq, Repr

namespace Renaming

/-- The renaming of the given names, unless there are none, the new name is one of them, or it denotes no
replacement. -/
def make (aliases : List Text) (target : Text) : Except Fault Renaming :=
  if aliases.isEmpty then .error .noAlias
  else if aliases.elem target then .error (.targetIsAlias target)
  else
    match Replacement.parse target with
    | .ok replacement => .ok { aliases, target := replacement }
    | .error fault => .error (.replacement fault)

/-- The renaming of the given names to a fixed name. -/
def into (target : Text) (aliases : List Text) : Renaming := { aliases, target := .fixed target }

/-- The names, longer ones first. -/
def byLength (aliases : List Text) : List Text :=
  aliases.mergeSort fun a b => b.length ≤ a.length

/-- One of the names, whole and not a member. -/
def occurrence (r : Renaming) : Pattern Unit where
  left := freeName
  read := Reader.firstOf <| (byLength r.aliases).map fun name => do
    Reader.exactly name
    Reader.notNext isName

/-- The text with the names exchanged. -/
def apply (r : Renaming) (text : Text) : Text :=
  r.occurrence.replaceWith (fun name _ => Replacement.expand r.target name) text

/-- `ctrl` becomes `this`. -/
def controllerToThis : Renaming := .into (txt "this") [txt "ctrl"]

/-- `$scope` and `scope` become `ctrl`. -/
def scopeToController : Renaming := .into (txt "ctrl") [txt "$scope", txt "scope"]

/-- The receivers of a link callback become `this`. -/
def linkToThis : Renaming := .into (txt "this") [txt "$scope", txt "scope", txt "ctrl"]

/-- The receivers of a unit test become the fixture's `component`. -/
def testToComponent : Renaming :=
  .into (txt "component") [txt "$scope", txt "directive", txt "ctrl", txt "scope"]

end Renaming

/-- An anonymous function with parameters that hold no parenthesis, up to its opening brace. -/
def anonymousFunction : Pattern Text where
  left := wordEdge
  read := do
    Reader.exactly (txt "function")
    let _ ← Reader.blanks
    Reader.exactly ['(']
    let parameters ← Reader.run fun c => c != '(' && c != ')'
    Reader.exactly [')']
    let _ ← Reader.blanks
    Reader.exactly ['{']
    return parameters

/-- The text with anonymous functions written as arrow functions. -/
def arrowFunctions (text : Text) : Text :=
  anonymousFunction.replaceWith (fun _ parameters => ['('] ++ Text.trim parameters ++ txt ") => \x7b") text

/-- A body with callbacks as arrow functions, without `.bind(this)`, and with its receivers renamed. -/
def updateBody (receivers : Option Renaming) (body : Text) : Text :=
  let body := Text.removeBindThis (arrowFunctions body)
  match receivers with
  | none => body
  | some r => r.apply body

end AngularUplift
