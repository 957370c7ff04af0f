import AngularUplift.Member
import AngularUplift.Registration.Call

/-!
# Constants

A file may register several constants. Values that are given through local variables of the file are inlined
first: the lines that declare locals are dropped, and the locals' values stand wherever their names stood.

## Main definitions

* `Local`, `localLine`: a local variable, and the line that declares it.
* `resolveLocals`, `inlineLocals`: the locals with earlier ones inlined, and the text with all of them inlined.
* `Constant.analyze`: the constants of a text.
-/

namespace AngularUplift

/-- A local variable: its name and its value. -/
abbrev Local := Text × Text

/-- The value on a line and the end of the line: the value runs to a semicolon or the line break, and only
spaces and tabs may follow the semicolon. A line without a value has one only if a space or a tab stands in its
place. -/
def localValue : Reader Text := fun text =>
  let afterGap := text.dropWhile isGap
  let value := afterGap.takeWhile fun c => c != ';' && c != '\n'
  let rest := afterGap.drop value.length
  let afterMark :=
    match rest with
    | ';' :: rest => rest.dropWhile isGap
    | rest => rest
  if value.isEmpty && afterGap.length == text.length then none
  else
    match afterMark with
    | [] => some (value, [])
    | '\n' :: rest => some (value, rest)
    | _ => none

/-- A line `var name = value;`; the value is the name with the trimmed value. -/
def localLine : Pattern Local where
  left := lineStart
  read := do
    let _ ← Reader.gap
    Reader.exactly (txt "var")
    let _ ← Reader.gap1
    let name ← Reader.name
    let _ ← Reader.gap
    Reader.exactly ['=']
    let value ← localValue
    return (name, Text.trim value)

/-- The characters next to which a name is not the name of a local. -/
def isBoundContext (c : Char) : Bool := isName c || isPlainQuote c

/-- A free occurrence of a local's name: whole, no member, and not next to a quotation mark. -/
def freeLocal (name : Text) : Pattern Unit where
  left := notAfter fun c => isBoundContext c || c == '.'
  read := do
    Reader.exactly name
    Reader.notNext isBoundContext

/-- The text with the free occurrences of a local exchanged for its value. -/
def substituteLocal (text : Text) (entry : Local) : Text := (freeLocal entry.1).replace entry.2 text

/-- Locals in the order of their declaration, each with the values of earlier ones in its own. -/
def resolveLocals (resolved : List Local) : List Local → List Local
  | [] => resolved
  | (name, value) :: rest =>
    resolveLocals (resolved ++ [(name, resolved.foldl substituteLocal value)]) rest

/-- The text without the lines that declare locals and with the locals' values in place of their names, and the
locals. -/
def inlineLocals (text : Text) : Text × List Local :=
  let resolved := resolveLocals [] ((localLine.occurrences text).map (·.value))
  (resolved.foldl substituteLocal (localLine.erase text), resolved)

namespace Constant

/-- The pattern of a constant registration. -/
def signature : Pattern Unit := Registration.signature (txt "constant")

/-- Whether a text registers a constant. -/
def isRegistered (text : Text) : Bool := signature.occursIn text

/-- The constant of a call that occurs in a text, unless its name is empty. -/
def ofOccurrence (text : Text) (found : Occurrence Unit) : Except Fault (Option Variable) := do
  let start := Registration.parenAfter text found.start
  let stop ← Delimiter.paren.close text start
  let arguments := Text.splitArguments (text.slice (start + 1) stop)
  let name := Text.unquote (arguments.headD [])
  if name.isEmpty then return none
  else some <$> Variable.ofLiteral name ((arguments.drop 1).headD [])

/-- The constants that a text registers, in order. -/
def analyze (text : Text) : Except Fault (List Variable) := do
  let (text, _) := inlineLocals text
  let found ← (signature.occurrences text).mapM (ofOccurrence text)
  return found.filterMap id

end Constant

end AngularUplift
