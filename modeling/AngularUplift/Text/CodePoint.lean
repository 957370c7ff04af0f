import AngularUplift.Text.Class

/-!
# Code points

Escapes in a string can name half of a surrogate pair without its other half. Such a half is a code point but no
character, and it is kept as it is until a text of characters is needed.

## Main definitions

* `CodePoint`: a character or half of a surrogate pair.
* `CodePoint.is`: whether a code point is a character of a class. A half is in no class.
* `CodePoint.pair`: a sequence of code points in which halves that belong together are one character.
* `CodePoint.ofText`, `CodePoint.toText`: from and to a text; a half becomes a replacement character.
* `CodePoint.chars`, `CodePoint.afterChars`: the characters before the first half, and what comes after them.
* `CodePoint.trim`: code points without white space at their ends.
-/

namespace AngularUplift

/-- A character, or half of a surrogate pair. -/
inductive CodePoint where
  /-- A character. -/
  | char (c : Char)
  /-- Half of a surrogate pair, counted from U+D800 on. -/
  | half (unit : Fin 0x800)
deriving DecidableEq, Repr

namespace CodePoint

/-- The code point of a number. -/
def ofNat (code : Nat) : CodePoint :=
  if 0xD800 ≤ code ∧ code ≤ 0xDFFF then .half (Fin.ofNat 0x800 (code - 0xD800)) else .char (Char.ofNat code)

/-- The number of a code point. -/
def toNat : CodePoint → Nat
  | .char c => c.toNat
  | .half unit => 0xD800 + unit

/-- Whether a code point is a character of a class. -/
def is (p : Char → Bool) : CodePoint → Bool
  | .char c => p c
  | .half _ => false

/-- The character that a first half and a second half make, in this order. -/
def joined? : CodePoint → CodePoint → Option Char
  | .half high, .half low =>
    if high.val < 0x400 ∧ 0x400 ≤ low.val then
      some (Char.ofNat (0x10000 + high * 0x400 + (low - 0x400)))
    else none
  | _, _ => none

/-- The code points with every two halves that belong together as one character. -/
def pair : List CodePoint → List CodePoint
  | [] => []
  | [point] => [point]
  | first :: second :: rest =>
    match joined? first second with
    | some c => .char c :: pair rest
    | none => first :: pair (second :: rest)

/-- The code points of a text. -/
def ofText (text : Text) : List CodePoint := text.map .char

/-- The character that stands for a code point in a text. -/
def toChar : CodePoint → Char
  | .char c => c
  | .half _ => Char.ofNat 0xFFFD

/-- The text of code points. -/
def toText (points : List CodePoint) : Text := points.map toChar

/-- A text is the text of its code points. -/
@[simp] theorem toText_ofText (text : Text) : toText (ofText text) = text := by
  simp [toText, ofText, Function.comp_def, toChar]

/-- The characters before the first half. -/
def chars : List CodePoint → Text
  | .char c :: rest => c :: chars rest
  | _ => []

/-- What comes after the characters before the first half. -/
def afterChars : List CodePoint → List CodePoint
  | .char _ :: rest => afterChars rest
  | rest => rest

/-- The code points without the characters of a class at their end. -/
def dropRightWhile (p : Char → Bool) (points : List CodePoint) : List CodePoint :=
  (points.reverse.dropWhile (is p)).reverse

/-- The code points without white space at their ends. -/
def trim (points : List CodePoint) : List CodePoint := dropRightWhile isBlank (points.dropWhile (is isBlank))

end CodePoint

end AngularUplift
