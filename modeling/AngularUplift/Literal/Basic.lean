import AngularUplift.Text.CodePoint
import AngularUplift.Decimal.Binary64

/-!
# Literals

The values that can be written down as literals in source code, and that requests are made of: null, booleans,
integers of any size, floating-point numbers, strings, lists and records. The fields of a record keep the order
in which their keys first came.

## Main definitions

* `Literal`: a value; `Literal.text`: the string of a text.
* `Literal.setField`: a field of a record, with the last value for a key and its first place.
* `LiteralKind`: the coarse kind of a value, and the type it gets in TypeScript.
-/

namespace AngularUplift

/-- A value that can be written down as a literal. -/
inductive Literal where
  /-- The absence of a value. -/
  | null
  /-- A truth value. -/
  | bool (value : Bool)
  /-- An integer of any size. -/
  | int (value : Int)
  /-- A floating-point number. -/
  | float (value : Binary64)
  /-- A string, which may hold halves of surrogate pairs. -/
  | string (value : List CodePoint)
  /-- A list. -/
  | list (items : List Literal)
  /-- A record: keys with values, each key once. -/
  | record (fields : List (List CodePoint × Literal))
deriving Repr, Inhabited

namespace Literal

/-- The string of a text. -/
def text (t : Text) : Literal := .string (CodePoint.ofText t)

/-- The fields with `key` set to `value`: a known key keeps its place, a new one comes last. -/
def setField (key : List CodePoint) (value : Literal) :
    List (List CodePoint × Literal) → List (List CodePoint × Literal)
  | [] => [(key, value)]
  | (k, v) :: rest => if k = key then (key, value) :: rest else (k, v) :: setField key value rest

/-- The value of a field. -/
def field? (key : Text) : Literal → Option Literal
  | .record fields => fields.lookup (CodePoint.ofText key)
  | _ => none

end Literal

/-- What a literal is, coarsely. -/
inductive LiteralKind where
  /-- A text. -/
  | string
  /-- An integer or a floating-point number. -/
  | number
  /-- A truth value. -/
  | boolean
  /-- A list. -/
  | array
  /-- A record. -/
  | record
  /-- Not a literal: its value is known only when the program runs. -/
  | dynamic
deriving DecidableEq, Repr

namespace LiteralKind

/-- The word for a kind. -/
def label : LiteralKind → Text
  | .string => txt "string"
  | .number => txt "number"
  | .boolean => txt "boolean"
  | .array => txt "array"
  | .record => txt "record"
  | .dynamic => txt "dynamic"

/-- The TypeScript type of a value of the kind. -/
def typeName : LiteralKind → Text
  | .string => txt "string"
  | .number => txt "number"
  | .boolean => txt "boolean"
  | .array => txt "any[]"
  | .record => txt "\x7b [key: string]: any \x7d"
  | .dynamic => txt "any"

end LiteralKind

/-- The kind of a value. Null says nothing about what a variable will hold. -/
def Literal.kind : Literal → LiteralKind
  | .null => .dynamic
  | .bool _ => .boolean
  | .int _ => .number
  | .float _ => .number
  | .string _ => .string
  | .list _ => .array
  | .record _ => .record

end AngularUplift
