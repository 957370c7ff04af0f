import AngularUplift.Buffer
import AngularUplift.Log
import AngularUplift.Receiver
import AngularUplift.Text.Arguments
import AngularUplift.Text.Delimiter
import AngularUplift.Text.Identifier

/-!
# Scope watchers

A scope watcher runs a callback whenever the value of an expression has changed. Watchers are taken out of a body
and become one hook, which compares each watched expression with a shadow variable.

## Main definitions

* `Watcher`, `Watcher.ofArguments`: a watcher, read from the arguments of its call.
* `extractWatchers`: the watchers of a body and what is left of it.
* `doCheckCode`: the shadow variables and the hook.
-/

namespace AngularUplift

/-- A watched expression and what runs when its value has changed. -/
structure Watcher where
  /-- The watched expression. -/
  target : Text
  /-- What runs: the body of a callback, or the callback itself when it is given by reference. -/
  body : Text := []
  /-- The callback's name for the new value. -/
  newValueParameter : Text := []
  /-- The callback's name for the old value. -/
  oldValueParameter : Text := []
  /-- Whether the callback is given by reference. -/
  isReference : Bool := false
deriving DecidableEq, Repr

namespace Watcher

/-- A callback written in place, up to its opening brace; the value is its parameter list. -/
def callbackHead : Reader Text := do
  Reader.functionHead
  let parameters ← Reader.run (· != ')')
  Reader.exactly [')']
  let _ ← Reader.blanks
  Reader.exactly ['{']
  return parameters

/-- The watched expression. A quoted one is a member of the controller; a function is called. -/
def targetOf (argument : Text) : Text :=
  match argument with
  | [] => txt "()"
  | first :: _ =>
    if isPlainQuote first then
      let expression := Text.unquote argument
      if expression.startsWith (txt "ctrl.") then expression else txt "ctrl." ++ expression
    else if argument.startsWith (txt "function") then ['('] ++ argument ++ txt ")()"
    else argument ++ txt "()"

/-- The watcher with a target and a callback. -/
def ofCallback (target callback : Text) : Except Fault Watcher :=
  match callbackHead callback with
  | none => .ok { target, body := callback, isReference := true }
  | some (parameters, rest) => do
    let names := ((parameters.fields ',').map Text.trim).filter (!·.isEmpty)
    let bodyStart := callback.length - rest.length
    let stop ← Delimiter.brace.close callback ((bodyStart : Int) - 1)
    return {
      target
      body := Text.trim (callback.slice bodyStart stop)
      newValueParameter := names.headD []
      oldValueParameter := (names.drop 1).headD [] }

/-- The watcher that a call sets up; without a target and a callback there is none. -/
def ofArguments (arguments : List Text) : Except Fault (Option Watcher) :=
  match arguments with
  | target :: callback :: _ =>
    if target.isEmpty then .ok none else some <$> ofCallback (targetOf target) (Text.trim callback)
  | _ => .ok none

/-- A call that sets up a watcher, at the beginning of a line, up to its parenthesis. -/
def call : Pattern Unit where
  left := lineStart
  read := do
    let _ ← Reader.gap
    Reader.anyOf [txt "$scope", txt "scope"]
    Reader.exactly (txt ".$watch")
    let _ ← Reader.blanks
    Reader.exactly ['(']

/-- What follows a call on its line: a semicolon or none, white space and the line break. -/
def trailer : Reader Unit := do
  let _ ← Reader.gap
  Reader.optionally [';']
  let _ ← Reader.gap
  Reader.optionally ['\n']

/-- The position after the trailer that begins at a position. -/
def trailerEnd (text : Text) (position : Nat) : Nat :=
  match trailer (text.drop position) with
  | some (_, rest) => text.length - rest.length
  | none => position

/-- The area of log records on watchers. -/
def area : Text := txt "movers.watchers"

/-- The watcher of one call and the position after the call. -/
def read (text : Text) (found : Occurrence Unit) : Except Fault (Option (Watcher × Nat)) := do
  let stop ← Delimiter.paren.close text ((found.stop : Int) - 1)
  let watcher ← ofArguments (Text.splitArguments (text.slice found.stop stop))
  return watcher.map (·, trailerEnd text (stop + 1))

/-- The watchers of the given calls, with the buffer after they were taken out of it. -/
def extractFrom (buffer : SourceBuffer) : List (Occurrence Unit) →
    List Watcher × SourceBuffer × List LogRecord
  | [] => ([], buffer, [])
  | found :: rest =>
    if buffer.isConsumed found.start then extractFrom buffer rest
    else
      match read buffer.text found with
      | .error fault =>
        let (watchers, buffer, records) := extractFrom buffer rest
        (watchers, buffer,
          .debug area (txt "Leaving unbalanced $watch in place: " ++ fault.message) :: records)
      | .ok none => extractFrom buffer rest
      | .ok (some (watcher, stop)) =>
        let (watchers, buffer, records) := extractFrom (buffer.consume found.start stop) rest
        (watcher :: watchers, buffer, records)

end Watcher

/-- The watchers of a body, in order, and what is left of the body. A call that is not balanced stays. -/
def extractWatchers (body : Text) : List Watcher × Text × List LogRecord :=
  let (watchers, buffer, records) :=
    Watcher.extractFrom (SourceBuffer.ofText body) (Watcher.call.occurrences body)
  (watchers, buffer.residual, records)

namespace Watcher

/-- What a watcher's shadow variable is named after. -/
def label (index : Nat) (w : Watcher) : Text :=
  match Text.after? (txt "ctrl.") w.target with
  | some member => member
  | none => if w.newValueParameter.isEmpty then Text.ofNat index else w.newValueParameter

/-- A name followed by as many copies of `suffix` as it takes to be unused. Every copy makes a new name, so
one round more than there are used names is enough. -/
def unusedName (used : List Text) (suffix : Text) : (rounds : Nat) → Text → Text
  | 0, name => name
  | rounds + 1, name => if used.elem name then unusedName used suffix rounds (name ++ suffix) else name

/-- The name of a watcher's shadow variable, different from the names already used. -/
def shadowName (index : Nat) (used : List Text) (w : Watcher) : Text :=
  let plain := (w.label index).filter fun c => isName c || c == '.' || c == '-'
  let name := Text.pascalCase plain
  let suffix := Text.ofNat index
  unusedName used suffix (used.length + 1) (if name.isEmpty then suffix else name)

/-- The names of the shadow variables of watchers whose first has the given index. -/
def shadowNames (index : Nat) (used : List Text) : List Watcher → List Text
  | [] => []
  | w :: rest =>
    let name := w.shadowName index used
    name :: shadowNames (index + 1) (name :: used) rest

/-- The code with a name exchanged; an empty name occurs nowhere. -/
def substitute (name replacement code : Text) : Text :=
  if name.isEmpty then code else (Renaming.into replacement [name]).apply code

/-- What runs when the value has changed, in terms of the target and the variable for the old value. -/
def action (previous : Text) (w : Watcher) : Text :=
  if w.isReference then w.body ++ ['('] ++ previous ++ txt ", " ++ w.target ++ txt ");"
  else
    substitute w.oldValueParameter previous (substitute w.newValueParameter w.target w.body)

/-- The comparison with the shadow variable. The shadow is updated before the action runs. -/
def check (w : Watcher) (name : Text) : Text :=
  let shadow := txt "old" ++ name
  let previous := txt "previous" ++ name
  let action := w.action previous
  Text.join ['\n'] <|
    [txt "if (" ++ shadow ++ txt " !== " ++ w.target ++ txt ") \x7b"] ++
    (if w.isReference || !w.oldValueParameter.isEmpty then
      [txt "var " ++ previous ++ txt " = " ++ shadow ++ [';']] else []) ++
    [shadow ++ txt " = " ++ w.target ++ [';']] ++
    (if action.isEmpty then [] else [action]) ++
    [['}']]

end Watcher

/-- The shadow variables of watchers and the hook that compares each target with its shadow. -/
def doCheckCode (watchers : List Watcher) : Text :=
  if watchers.isEmpty then []
  else
    let names := Watcher.shadowNames 0 [] watchers
    Text.join ['\n'] <|
      names.map (fun name => txt "var old" ++ name ++ txt " = undefined;") ++
      [txt "ctrl.$doCheck = function () \x7b",
        Text.join ['\n'] (List.zipWith Watcher.check watchers names),
        txt "\x7d;"]

end AngularUplift
