/-!
# Binary floating point

The numbers that a program can hold in 64 bits, as exact values: a sign, a significand and a power of two,
or one of the two infinities. A decimal numeral stands for the nearest such number; of two equally near ones,
for the one with the even significand.

## Main definitions

* `Binary64`: a number or an infinity.
* `Binary64.ofDecimal`: the number nearest to a decimal numeral.
* `roundDiv`: the integer nearest to a quotient.
-/

namespace AngularUplift

/-- A number of at most 53 significant bits, or an infinity. -/
inductive Binary64 where
  /-- The number `significand * 2 ^ exponent` with a sign; zero keeps its sign. -/
  | finite (negative : Bool) (significand : Nat) (exponent : Int)
  /-- An infinity. -/
  | infinite (negative : Bool)
deriving DecidableEq, Repr

/-- The integer nearest to a quotient; half-way between two integers, the even one. -/
def roundDiv (num den : Nat) : Nat :=
  let quotient := num / den
  let twice := 2 * (num % den)
  if den < twice ∨ (twice = den ∧ quotient % 2 = 1) then quotient + 1 else quotient

namespace Binary64

/-- The exponent of the numbers closest to zero. -/
def leastExponent : Int := -1074

/-- The exponent of the numbers farthest from zero. -/
def greatestExponent : Int := 971

/-- Zero with a sign. -/
def zero (negative : Bool) : Binary64 := .finite negative 0 leastExponent

/-- The greatest `k` with `2 ^ k ≤ num / den`, for a positive quotient. -/
def floorLog2 (num den : Nat) : Int :=
  let k : Int := (Nat.log2 num : Int) - Nat.log2 den
  let reaches := if 0 ≤ k then den * Nat.pow 2 k.toNat ≤ num else den ≤ num * Nat.pow 2 (-k).toNat
  if reaches then k else k - 1

/-- The number nearest to a positive quotient. -/
def ofQuotient (negative : Bool) (num den : Nat) : Binary64 :=
  let exponent := max (floorLog2 num den - 52) leastExponent
  let significand :=
    if 0 ≤ exponent then roundDiv num (den * Nat.pow 2 exponent.toNat)
    else roundDiv (num * Nat.pow 2 (-exponent).toNat) den
  -- Rounding up may carry into a new leading bit.
  let (significand, exponent) :=
    if significand = Nat.pow 2 53 then (Nat.pow 2 52, exponent + 1) else (significand, exponent)
  if greatestExponent < exponent then .infinite negative else .finite negative significand exponent

/-- The number nearest to `digits * 10 ^ scale`. Numerals far outside the range of exponents are settled by
their order of magnitude alone. -/
def ofDecimal (negative : Bool) (digits : Nat) (scale : Int) : Binary64 :=
  let magnitude := ((Nat.toDigits 10 digits).length : Int) + scale
  if digits = 0 ∨ magnitude < -330 then zero negative
  else if 310 < magnitude then .infinite negative
  else if 0 ≤ scale then ofQuotient negative (digits * Nat.pow 10 scale.toNat) 1
  else ofQuotient negative digits (Nat.pow 10 (-scale).toNat)

end Binary64

end AngularUplift
