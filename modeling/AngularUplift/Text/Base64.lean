import AngularUplift.Text.Basic

/-!
# Octets as text

Octets are written with 64 digits of six bits each, four digits for three octets; pads fill the last four. What is
neither a digit nor a pad does not matter, and nothing after the last pad is read.

## Main definitions

* `Base64.digit?`: the value of a digit.
* `Base64.read?`: the octets that a text stands for.
-/

namespace AngularUplift.Base64

/-- The value of a digit. -/
def digit? (c : Char) : Option Nat :=
  if 'A' ≤ c && c ≤ 'Z' then some (c.toNat - 'A'.toNat)
  else if 'a' ≤ c && c ≤ 'z' then some (c.toNat - 'a'.toNat + 26)
  else if '0' ≤ c && c ≤ '9' then some (c.toNat - '0'.toNat + 52)
  else if c = '+' then some 62
  else if c = '/' then some 63
  else none

/-- The octets of four digits, or of the two or three digits before a pad. -/
def octets : List Nat → List UInt8
  | [a, b] => [.ofNat (a * 4 + b / 16)]
  | [a, b, c] => [.ofNat (a * 4 + b / 16), .ofNat (b * 16 + c / 4)]
  | [a, b, c, d] => [.ofNat (a * 4 + b / 16), .ofNat (b * 16 + c / 4), .ofNat (c * 64 + d)]
  | _ => []

/-- The octets of a text, from a point with up to three digits of the next four already read and with this many pads
after them. -/
def readFrom? (digits : List Nat) (pads : Nat) : Text → Option (List UInt8)
  | [] => if digits.isEmpty then some [] else none
  | c :: rest =>
    if c = '=' then
      if digits.length < 2 then readFrom? digits pads rest
      else if digits.length + pads + 1 < 4 then readFrom? digits (pads + 1) rest
      else some (octets digits)
    else
      match digit? c with
      | none => readFrom? digits pads rest
      | some value =>
        if digits.length < 3 then readFrom? (digits ++ [value]) 0 rest
        else (octets (digits ++ [value]) ++ ·) <$> readFrom? [] 0 rest

/-- The octets that a text stands for. -/
def read? (text : Text) : Option (List UInt8) := readFrom? [] 0 text

end AngularUplift.Base64
