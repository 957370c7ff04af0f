import AngularUplift.Text.Pattern

/-!
# Heads of member assignments

The forms by which a controller body gives its members: assignments through a receiver such as `ctrl.name =`
and declarations such as `var name =`, at the beginning of a line.

## Main definitions

* `MemberHead`: an assignment through a receiver, or a declaration.
* `MemberHead.functionHead`, `MemberHead.propertyHead`: the head of a function and of any other assignment.
* `eventHead`, `namedFunctionHead`, `memberAssignment`, `selfAlias`: the other forms a body is searched for.
-/

namespace AngularUplift

/-- The left-hand side of a member. -/
inductive MemberHead where
  /-- A member of a receiver. -/
  | receiver (name : Text)
  /-- A declared variable. -/
  | declaration
deriving DecidableEq, Repr

/-- The words that declare a variable. -/
def declarators : List Text := [txt "var", txt "let", txt "const"]

namespace MemberHead

/-- The indented left-hand side; the value is the member's name. -/
def read : MemberHead → Reader Text
  | .receiver name => Reader.afterGap do
    Reader.exactly name
    Reader.exactly ['.']
    Reader.name
  | .declaration => do
    let _ ← Reader.gap
    Reader.anyOf declarators
    let _ ← Reader.blanks1
    Reader.name

/-- A function assigned to a member, up to the parenthesis of its parameters. -/
def functionHead (head : MemberHead) : Pattern Text where
  left := lineStart
  read := do
    let name ← head.read
    let _ ← Reader.blanks
    Reader.exactly ['=']
    let _ ← Reader.blanks
    Reader.exactly (txt "function")
    Reader.endOfWord
    let _ ← Reader.blanks
    let _ ← Reader.run isName
    let _ ← Reader.blanks
    Reader.exactly ['(']
    return name

/-- An assignment to a member, up to its right-hand side. -/
def propertyHead (head : MemberHead) : Pattern Text where
  left := lineStart
  read := do
    let name ← head.read
    let _ ← Reader.gap
    Reader.exactly ['=']
    Reader.notNext (· == '=')
    let _ ← Reader.gap
    return name

end MemberHead

/-- A `$watch` or `$on` call through a receiver, up to its parenthesis. -/
def eventCall (receiver : Text) : Reader Unit := do
  Reader.exactly (receiver ++ txt ".$")
  Reader.firstOf [
    do
      Reader.exactly (txt "watch")
      let _ ← Reader.run isWord,
    Reader.exactly (txt "on")]
  let _ ← Reader.blanks
  Reader.exactly ['(']

/-- A `$watch` or `$on` call through one of the receivers, up to its parenthesis. -/
def eventHead (receivers : List Text) : Pattern Unit where
  left := lineStart
  read := Reader.afterGap (Reader.firstOf ((receivers ++ [txt "$scope", txt "scope"]).map eventCall))

/-- A function declared under a name of its own, up to the parenthesis of its parameters. -/
def namedFunctionHead : Pattern Unit where
  left := lineStart
  read := do
    let _ ← Reader.gap
    Reader.exactly (txt "function")
    let _ ← Reader.blanks1
    let _ ← Reader.name
    let _ ← Reader.blanks
    Reader.exactly ['(']

/-- An assignment to a member of a receiver; the value is the member's name. -/
def assignmentTo (receiver : Text) : Reader Text := do
  Reader.exactly (receiver ++ ['.'])
  let name ← Reader.name
  let _ ← Reader.blanks
  Reader.exactly ['=']
  Reader.notNext (· == '=')
  return name

/-- An assignment to a member of one of the receivers, anywhere; the value is the member's name. Without
receivers, any member of nothing counts. -/
def memberAssignment (receivers : List Text) : Pattern Text where
  left := freeName
  read := Reader.firstOf ((if receivers.isEmpty then [[]] else receivers).map assignmentTo)

/-- A variable that is declared as `this`; the value is its name. -/
def selfAlias : Pattern Text where
  left := wordEdge
  read := do
    Reader.anyOf declarators
    let _ ← Reader.blanks1
    let name ← Reader.name
    let _ ← Reader.blanks
    Reader.exactly ['=']
    let _ ← Reader.blanks
    Reader.exactly (txt "this")
    let _ ← Reader.blanks
    Reader.exactly [';']
    return name

/-- The name that a body gives to its own receiver, if any. -/
def receiverAlias (body : Text) : Option Text := (selfAlias.find? body).map (·.value)

/-- The mark by which a comment names the member it documents. -/
def documentationMark (name : Text) : Pattern Unit where
  left := anywhere
  read := do
    Reader.exactly (txt "@name")
    let _ ← Reader.blanks1
    Reader.exactly name
    Reader.notNext isName

/-- The first comment that documents a member, or nothing. -/
def commentFor (name : Text) (comments : List Text) : Text :=
  (comments.find? (documentationMark name).occursIn).getD []

end AngularUplift
