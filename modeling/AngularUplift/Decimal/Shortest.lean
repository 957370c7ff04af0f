import AngularUplift.Text.Basic
import AngularUplift.Decimal.Binary64

/-!
# The shortest numeral of a number

A floating-point number is written with the fewest decimal digits that read back as the same number, and of
those numerals with the one nearest to it. How the digits are laid out, positionally or with an exponent, is a
matter of the format, given by a `NumeralLayout`.

## Main definitions

* `Shortest.digits`: the fewest digits, and the power of ten of the first one.
* `NumeralLayout`, `NumeralLayout.render`: the format's decisions, and the numeral they give.
-/

namespace AngularUplift

namespace Shortest

/-- Exact bounds of a number: the quotients of `low`, `value` and `high` by `den` are the least numeral that
reads back as the number, the number, and the greatest such numeral. The bounds themselves read back when
`closed` holds. -/
structure Bounds where
  /-- Numerator of the lower bound. -/
  low : Nat
  /-- Numerator of the number. -/
  value : Nat
  /-- Numerator of the upper bound. -/
  high : Nat
  /-- The common denominator. -/
  den : Nat
  /-- Whether the bounds read back as the number. -/
  closed : Bool

/-- The bounds of a positive number. Below a power of two the neighbours are twice as dense. -/
def bounds (significand : Nat) (exponent : Int) : Bounds :=
  let below := if significand = Nat.pow 2 52 ∧ Binary64.leastExponent < exponent then 1 else 2
  let scale := exponent - 2
  let factor := Nat.pow 2 scale.toNat
  { low := (4 * significand - below) * factor
    value := 4 * significand * factor
    high := (4 * significand + 2) * factor
    den := Nat.pow 2 (-scale).toNat
    closed := significand % 2 = 0 }

/-- The least `k` with `num / den < 10 ^ k`, for a positive quotient. -/
def magnitude (num den : Nat) : Int :=
  if den ≤ num then (Nat.toDigits 10 (num / den)).length
  else
    let length : Int := (Nat.toDigits 10 (den / num)).length
    if num * Nat.pow 10 (length - 1).toNat = den then 2 - length else 1 - length

/-- Whether `digits * 10 ^ power` lies within the bounds. -/
def Bounds.admits (b : Bounds) (digits : Nat) (power : Int) : Bool :=
  let up := Nat.pow 10 power.toNat * b.den * digits
  let down := Nat.pow 10 (-power).toNat
  if b.closed then decide (b.low * down ≤ up ∧ up ≤ b.high * down)
  else decide (b.low * down < up ∧ up < b.high * down)

/-- The digits of the numeral with `count` digits that reads back as the number, if there is one: of the two
neighbours of the number on that grid the nearer, and the even one when they are equally near. -/
def candidate? (b : Bounds) (power : Int) : Option Nat :=
  let num := b.value * Nat.pow 10 (-power).toNat
  let den := b.den * Nat.pow 10 power.toNat
  let low := num / den
  let nearer := roundDiv num den
  let other := if nearer = low then low + 1 else low
  if b.admits nearer power then some nearer
  else if b.admits other power then some other
  else none

/-- The shortest digits, from `count` digits on, trying at most `fuel` lengths. -/
def search (b : Bounds) (top : Int) (count : Nat) : (fuel : Nat) → Nat × Int
  | 0 => (b.value / b.den, 0)
  | fuel + 1 =>
    match candidate? b (top - count) with
    | some digits => (digits, top - count)
    | none => search b top (count + 1) fuel

/-- The digits of a positive number, the first one not zero, and the power of ten that the first one counts.
Seventeen digits always suffice. -/
def digits (significand : Nat) (exponent : Int) : Text × Int :=
  let b := bounds significand exponent
  let (found, power) := search b (magnitude b.value b.den) 1 17
  let all := Nat.toDigits 10 found
  let leading := power + all.length - 1
  ((all.reverse.dropWhile (· == '0')).reverse, leading)

end Shortest

/-- How a format lays out the digits of a number. -/
structure NumeralLayout where
  /-- The least power of ten whose numbers are written positionally. -/
  leastPositional : Int
  /-- The least power of ten above those whose numbers are written positionally. -/
  leastScientific : Int
  /-- The least number of digits of an exponent. -/
  exponentDigits : Nat
  /-- The word for infinity. -/
  infinity : Text
deriving DecidableEq, Repr

namespace NumeralLayout

/-- Digits in positional notation, with at least one digit on each side of the point. -/
def positional (digits : Text) (leading : Int) : Text :=
  if leading < 0 then txt "0." ++ List.replicate (-leading - 1).toNat '0' ++ digits
  else
    let whole := leading.toNat + 1
    let padded := digits ++ List.replicate (whole - digits.length) '0'
    let fraction := padded.drop whole
    padded.take whole ++ ['.'] ++ (if fraction.isEmpty then ['0'] else fraction)

/-- Digits with an exponent: one digit before the point, and no point after a single digit. -/
def scientific (layout : NumeralLayout) (digits : Text) (leading : Int) : Text :=
  let exponent := Text.ofNat leading.natAbs
  let padded := List.replicate (layout.exponentDigits - exponent.length) '0' ++ exponent
  let fraction := digits.drop 1
  digits.take 1 ++ (if fraction.isEmpty then [] else '.' :: fraction) ++
    ['e', if leading < 0 then '-' else '+'] ++ padded

/-- The numeral of a number. -/
def render (layout : NumeralLayout) : Binary64 → Text
  | .infinite negative => (if negative then ['-'] else []) ++ layout.infinity
  | .finite negative significand exponent =>
    let sign := if negative then ['-'] else []
    if significand = 0 then sign ++ txt "0.0"
    else
      let (digits, leading) := Shortest.digits significand exponent
      if layout.leastPositional ≤ leading ∧ leading < layout.leastScientific then
        sign ++ positional digits leading
      else sign ++ layout.scientific digits leading

end NumeralLayout

end AngularUplift
