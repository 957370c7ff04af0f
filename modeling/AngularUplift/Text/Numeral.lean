import AngularUplift.Text.Class
import AngularUplift.Text.Unicode.DecimalZero

/-!
# Numerals in a text

A text can stand for an integer: digits of any script, with white space around them, a sign before them and
single underscores between them. Very long decimal numerals are refused.

## Main definitions

* `decimalDigit?`, `digit?`: the value of a digit, in the decimal system and in any base.
* `Text.digits?`, `Text.integer?`: the digits of a numeral, and the number that a text stands for.
* `Text.decimal?`: the number that a text stands for in the decimal system.
-/

namespace AngularUplift

/-- The value of a decimal digit of any script. -/
def decimalDigit? (c : Char) : Option Nat :=
  if c.toNat < 0x80 then (if isDecimal c then some (c.toNat - '0'.toNat) else none)
  else
    (Unicode.decimalZeros.find? fun start => start ≤ c.toNat && c.toNat < start + 10).map (c.toNat - ·)

/-- The value of a digit; the Latin letters come after the decimal digits. -/
def digit? (c : Char) : Option Nat :=
  if 'a' ≤ c && c ≤ 'z' then some (c.toNat - 'a'.toNat + 10)
  else if 'A' ≤ c && c ≤ 'Z' then some (c.toNat - 'A'.toNat + 10)
  else decimalDigit? c

/-- Decimal numerals with more digits than this are not read. -/
def mostDigits : Nat := 4300

namespace Text

/-- The values of the digits of a numeral, in a base and with single underscores between them. -/
def digits? (base : Nat) (text : Text) : Option (List Nat) :=
  let groups := text.fields '_'
  if groups.any List.isEmpty then none
  else groups.flatten.mapM fun c => (digit? c).filter (· < base)

/-- The number that digits stand for. -/
def ofDigits (base : Nat) (digits : List Nat) : Nat := digits.foldl (fun n d => n * base + d) 0

/-- Whether a character is white space that may stand around a numeral: the separators of files, groups, records
and units may not. -/
def isNumeralSpace (c : Char) : Bool := isBlank c && !(0x1C ≤ c.toNat && c.toNat ≤ 0x1F)

/-- A text without white space at its ends and without a sign, and whether the sign is a minus. -/
def unsigned (text : Text) : Bool × Text :=
  match dropRightWhile isNumeralSpace (text.dropWhile isNumeralSpace) with
  | '-' :: rest => (true, rest)
  | '+' :: rest => (false, rest)
  | rest => (false, rest)

/-- The integer that a text stands for in a base. -/
def integer? (base : Nat) (text : Text) : Option Int :=
  let (negative, numeral) := unsigned text
  (digits? base numeral).map fun digits =>
    if negative then -(ofDigits base digits : Int) else ofDigits base digits

/-- The integer that a text stands for in the decimal system, unless it has too many digits. -/
def decimal? (text : Text) : Option Int := do
  let digits ← digits? 10 (unsigned text).2
  if mostDigits < digits.length then none else integer? 10 text

end Text

end AngularUplift
