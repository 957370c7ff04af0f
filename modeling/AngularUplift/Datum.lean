import AngularUplift.Decimal.Shortest
import AngularUplift.Fault
import AngularUplift.Literal.Basic
import AngularUplift.Text.Numeral

/-!
# Data of settings

The values that settings are made of. Besides what a literal can be there are octets, days and moments, numbers that
are no numbers, and mappings whose keys are any scalars.

## Main definitions

* `Datum`: a value; `Datum.ofLiteral`: a literal as a value.
* `Datum.set`, `Datum.get?`: the value of a key in a mapping.
* `Datum.display`: the text that stands for a value where a text was expected, unless an integer in it is too long.
* `Datum.isVacant`: whether a value says nothing.
-/

namespace AngularUplift

/-- A value of settings. -/
inductive Datum where
  /-- The absence of a value. -/
  | null
  /-- A truth value. -/
  | bool (value : Bool)
  /-- An integer of any size. -/
  | int (value : Int)
  /-- A floating-point number. -/
  | float (value : Binary64)
  /-- The result of a computation without a result. -/
  | notNumber
  /-- A text. -/
  | text (value : Text)
  /-- Octets. -/
  | binary (octets : List UInt8)
  /-- A day. -/
  | day (value : Day)
  /-- A moment. -/
  | moment (value : Moment)
  /-- A list. -/
  | list (items : List Datum)
  /-- A mapping: keys, which are scalars, with values. -/
  | mapping (entries : List (Datum × Datum))
deriving Repr, Inhabited

namespace Datum

/-! ### Keys -/

/-- A number as a quotient with a power of two: `some (n, k)` stands for `n / 2 ^ k`. Truth values count as zero
and one. -/
def quotient? : Datum → Option (Int × Nat)
  | .bool value => some (if value then 1 else 0, 0)
  | .int value => some (value, 0)
  | .float (.finite negative significand exponent) =>
    let signed : Int := if negative then -(significand : Int) else significand
    some (signed * Int.pow 2 exponent.toNat, (-exponent).toNat)
  | _ => none

/-- Whether two scalars are the same key. Numbers are compared by their values, and what is no number differs
from everything. Lists and mappings are no keys. -/
def isSameKey (a b : Datum) : Bool :=
  match a.quotient?, b.quotient? with
  | some (m, j), some (n, k) => m * Int.pow 2 k == n * Int.pow 2 j
  | some _, none | none, some _ => false
  | none, none =>
    match a, b with
    | .null, .null => true
    | .float x, .float y => x == y
    | .text s, .text t => s == t
    | .binary x, .binary y => x == y
    | .day d, .day e => d == e
    | .moment m, .moment n => m == n
    | _, _ => false

/-- The entries with a key set to a value: a known key keeps its place and its form, a new one comes last. -/
def set (key value : Datum) : List (Datum × Datum) → List (Datum × Datum)
  | [] => [(key, value)]
  | (k, v) :: rest => if k.isSameKey key then (k, value) :: rest else (k, v) :: set key value rest

/-- The value of a text key in a mapping. -/
def get? (key : Text) : Datum → Option Datum
  | .mapping entries => (entries.find? fun (k, _) => k.isSameKey (.text key)).map (·.2)
  | _ => none

/-- The name of the type of a value. -/
def typeName : Datum → Text
  | .null => txt "NoneType"
  | .bool _ => txt "bool"
  | .int _ => txt "int"
  | .float _ | .notNumber => txt "float"
  | .text _ => txt "str"
  | .binary _ => txt "bytes"
  | .day _ => txt "datetime.date"
  | .moment _ => txt "datetime.datetime"
  | .list _ => txt "list"
  | .mapping _ => txt "dict"

/-! ### Display -/

/-- Numbers for display: positional from 10⁻⁴ up to 10¹⁶, otherwise with a signed exponent of at least two
digits, and a short word for infinity. -/
def numerals : NumeralLayout := ⟨-4, 16, 2, txt "inf"⟩

/-- An integer with its sign and its decimal digits, unless there are too many digits. -/
def displayInteger (n : Int) : Except ValueFault Text :=
  if mostDigits < (Text.ofNat n.natAbs).length then .error .integerTooLong else .ok (Text.ofInt n)

mutual

/-- A value inside a list or a mapping, where texts are in quotes. -/
def displayInner : Datum → Except ValueFault Text
  | .null => .ok (txt "None")
  | .bool true => .ok (txt "True")
  | .bool false => .ok (txt "False")
  | .int n => displayInteger n
  | .float x => .ok (numerals.render x)
  | .notNumber => .ok (txt "nan")
  | .text t => .ok (Text.quoted t)
  | .binary octets => .ok (Text.quotedOctets octets)
  | .day d => .ok d.displayInner
  | .moment m => .ok m.displayInner
  | .list items => do return ['['] ++ Text.join (txt ", ") (← displayItems items) ++ [']']
  | .mapping entries => do return ['{'] ++ Text.join (txt ", ") (← displayEntries entries) ++ ['}']

/-- The items of a list. -/
def displayItems : List Datum → Except ValueFault (List Text)
  | [] => .ok []
  | item :: rest => do return (← displayInner item) :: (← displayItems rest)

/-- The entries of a mapping. -/
def displayEntries : List (Datum × Datum) → Except ValueFault (List Text)
  | [] => .ok []
  | (key, value) :: rest => do
    return ((← displayInner key) ++ txt ": " ++ (← displayInner value)) :: (← displayEntries rest)

end

/-- A value as a text; a text stands for itself. -/
def display : Datum → Except ValueFault Text
  | .text t => .ok t
  | .day d => .ok d.display
  | .moment m => .ok m.display
  | value => displayInner value

/-! ### Reading -/

/-- Whether a value says nothing: null, off, zero, no octets, or an empty text, list or mapping. -/
def isVacant : Datum → Bool
  | .null => true
  | .bool value => !value
  | .int n => n == 0
  | .float (.finite _ significand _) => significand == 0
  | .text t => t.isEmpty
  | .binary octets => octets.isEmpty
  | .list items => items.isEmpty
  | .mapping entries => entries.isEmpty
  | _ => false

mutual

/-- A literal as a value of settings. -/
def ofLiteral : Literal → Datum
  | .null => .null
  | .bool value => .bool value
  | .int n => .int n
  | .float x => .float x
  | .string value => .text (CodePoint.toText value)
  | .list items => .list (ofItems items)
  | .record fields => .mapping (ofFields fields)

/-- The items of a list as values of settings. -/
def ofItems : List Literal → List Datum
  | [] => []
  | item :: rest => ofLiteral item :: ofItems rest

/-- The fields of a record as entries of a mapping. -/
def ofFields : List (List CodePoint × Literal) → List (Datum × Datum)
  | [] => []
  | (key, value) :: rest => (.text (CodePoint.toText key), ofLiteral value) :: ofFields rest

end

end Datum

end AngularUplift
