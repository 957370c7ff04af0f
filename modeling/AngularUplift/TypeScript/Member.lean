import AngularUplift.Member
import AngularUplift.Receiver
import AngularUplift.TypeScript.Layout

/-!
# Members of generated classes

The pieces of code that generated classes are put together from: declarations, parameter lists, deferred
assignments and methods.

## Main definitions

* `inputDeclaration`, `propertyDeclaration`: declarations with their literal values.
* `deferredAssignments`: the assignments of members whose values are no literals.
* `method`: a harvested function as a method.
* `importLine`, `braced`, `opens`: small pieces of syntax.
-/

namespace AngularUplift

/-- Code between a pair of braces and spaces. -/
def braced (code : Text) : Text := ['{', ' '] ++ code ++ [' ', '}']

/-- Code that opens a block. -/
def opens (code : Text) : Text := code ++ [' ', '{']

/-- The import of names from a module. -/
def importLine (names : List Text) (path : Text) : Text :=
  txt "import " ++ braced (Text.join (txt ", ") names) ++ txt " from '" ++ path ++ txt "';"

/-- The initial value of a variable with a literal value. -/
def initializer (v : Variable) : Text :=
  match v.value with
  | none => []
  | some value => txt " = " ++ value.render

/-- The declaration of an input. -/
def inputDeclaration (v : Variable) : Text :=
  txt "@Input() public " ++ v.name ++ txt ": " ++ v.typeName ++ initializer v ++ [';']

/-- The declaration of a property. -/
def propertyDeclaration (v : Variable) : Text :=
  txt "private " ++ v.name ++ txt ": " ++ v.typeName ++ initializer v ++ [';']

/-- The constructor parameters for injected tokens, one a line. -/
def injectionParameters (injections : List Variable) : Text :=
  Text.join (txt ",\n") (injections.map fun v => txt "private " ++ v.name ++ txt ": " ++ v.typeName)

/-- The parameters of a method. -/
def parameterList (parameters : List Variable) : Text :=
  Text.join (txt ", ") (parameters.map fun v => v.name ++ txt ": " ++ v.typeName ++ initializer v)

/-- The assignment of a member that was set to something other than a literal. -/
def deferredAssignment? (receivers : Option Renaming) (v : Variable) : Option Text :=
  if v.value.isSome || v.expression.isEmpty then none
  else some (txt "this." ++ v.name ++ txt " = " ++ updateBody receivers v.expression ++ [';'])

/-- The assignments of the members that were set to something other than a literal. They run when the class is
set up, since a declaration cannot carry them. -/
def deferredAssignments (receivers : Option Renaming) (vs : List Variable) : List Text :=
  vs.filterMap (deferredAssignment? receivers)

/-- A function as a public method, after the comment that documents it. -/
def method (receivers : Option Renaming) (returnType : Text) (f : Function) : Text :=
  let result := if returnType.isEmpty then [] else txt ": " ++ returnType
  (if f.comment.isEmpty then [] else f.comment ++ ['\n']) ++
    opens (txt "public " ++ f.name ++ ['('] ++ parameterList f.parameters ++ [')'] ++ result) ++ ['\n'] ++
    updateBody receivers f.body ++ txt "\n\x7d"

/-- Each piece of code followed by a blank line. -/
def spaced (codes : List Text) : List Text := codes.flatMap fun code => [code, []]

end AngularUplift
