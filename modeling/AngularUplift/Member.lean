import AngularUplift.Fault
import AngularUplift.Literal.Printer
import AngularUplift.Literal.Reader

/-!
# Members

The variables and functions that are taken out of legacy code and declared again in generated classes.

## Main definitions

* `Variable`: a name with a type, and a literal value or the expression it was set to.
* `Function`: a name with parameters and a body that is kept as text.
* `classify`, `classifySource`: what kind of literal a right-hand side is, and its value.
* `Variable.ofLiteral`: the variable set to a right-hand side.
-/

namespace AngularUplift

/-- A named slot with an inferred type. -/
structure Variable where
  /-- Its name. -/
  name : Text
  /-- Its TypeScript type. -/
  typeName : Text := txt "any"
  /-- Its value, when it was set to a literal. -/
  value : Option Literal := none
  /-- The right-hand side it was set to. -/
  expression : Text := []
deriving Repr, Inhabited

/-- A function taken out of legacy code. -/
structure Function where
  /-- Its name. -/
  name : Text
  /-- Its parameters. -/
  parameters : List Variable := []
  /-- Its body, as it was written. -/
  body : Text := []
  /-- The comment that documents it. -/
  comment : Text := []
deriving Repr, Inhabited

/-- A right-hand side without white space and without the semicolons at its end. -/
def trimExpression (source : Text) : Text :=
  Text.trim (Text.dropRightWhile (· == ';') (Text.trim source))

/-- A right-hand side of any code points, without white space and without the semicolons at its end. -/
def trimSource (source : List CodePoint) : List CodePoint :=
  CodePoint.trim (CodePoint.dropRightWhile (· == ';') (CodePoint.trim source))

/-- The kind of literal that a right-hand side of any code points is, and its value. Whatever is not a literal is
dynamic, and so is null, which says nothing about the type. -/
def classifySource (source : List CodePoint) : LiteralKind × Option Literal :=
  match Literal.parseSource? (trimSource source) with
  | none => (.dynamic, none)
  | some .null => (.dynamic, none)
  | some value => (value.kind, some value)

/-- The kind of literal that a right-hand side is, and its value. -/
def classify (source : Text) : LiteralKind × Option Literal := classifySource (CodePoint.ofText source)

/-- The variable, unless its name is empty. -/
def Variable.checked (v : Variable) : Except Fault Variable :=
  if v.name.isEmpty then .error .emptyVariableName else .ok v

/-- A variable of unknown type that is set to nothing. -/
def Variable.named (name : Text) : Variable := { name }

/-- The variables with the given names, none of which may be empty. -/
def Variable.ofNames (names : List Text) : Except Fault (List Variable) :=
  names.mapM fun name => (Variable.named name).checked

/-- The variable set to a right-hand side, whatever its name. -/
def Variable.assigned (name source : Text) : Variable :=
  let (kind, value) := classify source
  { name, typeName := kind.typeName, value, expression := trimExpression source }

/-- The variable set to a right-hand side, with the white space around its name taken off. -/
def Variable.ofLiteral (name source : Text) : Except Fault Variable :=
  (Variable.assigned (Text.trim name) source).checked

end AngularUplift
