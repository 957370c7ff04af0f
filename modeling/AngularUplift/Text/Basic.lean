/-!
# Source text

A text is a sequence of characters, and every offset into it counts characters. This module
holds the operations that know nothing about any language: cutting at positions, looking for
a fixed piece, joining and replacing.

## Main definitions

* `Text`: a sequence of characters.
* `Text.slice`: the characters between two positions.
* `Text.atMost`: the order of texts by their code points.
* `Text.indexOf?`, `Text.lastIndexOf?`: where a fixed piece stands.
* `Text.fields`, `Text.join`: cutting at a character, and putting pieces together.
* `Text.replaceAll`, `Text.replaceFirst`: exchanging a fixed piece for another.
-/

namespace AngularUplift

/-- A sequence of characters. -/
abbrev Text := List Char

/-- The text of a string. -/
abbrev txt (s : String) : Text := s.toList

namespace Text

/-- The characters from `start` up to, not including, `stop`. -/
def slice (text : Text) (start stop : Nat) : Text := (text.take stop).drop start

/-- Whether the text begins with `piece`. -/
def startsWith (text piece : Text) : Bool := piece.isPrefixOf text

/-- Whether the text ends with `piece`. -/
def endsWith (text piece : Text) : Bool := piece.isSuffixOf text

/-- Whether a text is another one or comes before it, in the order of code points. -/
def atMost : (text other : Text) → Bool
  | [], _ => true
  | _ :: _, [] => false
  | c :: text, d :: other => c < d || (c == d && atMost text other)

/-- What follows `piece` in a text that begins with it. -/
def after? : (piece text : Text) → Option Text
  | [], text => some text
  | _ :: _, [] => none
  | p :: ps, c :: cs => if p = c then after? ps cs else none

/-- The position of the first occurrence of `piece`. -/
def indexOf? (piece : Text) : Text → Option Nat
  | [] => if piece.isEmpty then some 0 else none
  | c :: cs =>
    if startsWith (c :: cs) piece then some 0 else (indexOf? piece cs).map (· + 1)

/-- The position of the first occurrence of `piece` that starts at `position` or later. -/
def indexFrom? (text piece : Text) (position : Nat) : Option Nat :=
  if text.length < position then none
  else (indexOf? piece (text.drop position)).map (· + position)

/-- The position of the last occurrence of `piece`. -/
def lastIndexOf? (piece : Text) : Text → Option Nat
  | [] => if piece.isEmpty then some 0 else none
  | c :: cs =>
    match lastIndexOf? piece cs with
    | some i => some (i + 1)
    | none => if startsWith (c :: cs) piece then some 0 else none

/-- Whether `piece` occurs in the text. -/
def contains (text piece : Text) : Bool := (indexOf? piece text).isSome

/-- The pieces of a text between the occurrences of a character. There is always one more piece
than there are occurrences. -/
def fields (separator : Char) : Text → List Text
  | [] => [[]]
  | c :: cs =>
    if c = separator then [] :: fields separator cs
    else
      match fields separator cs with
      | [] => [[c]]
      | first :: rest => (c :: first) :: rest

/-- The lines of a text, without their line breaks. -/
def lines (text : Text) : List Text := fields '\n' text

/-- The text with every kind of line break written as a line feed. -/
def normaliseBreaks : Text → Text
  | [] => []
  | '\r' :: '\n' :: rest => '\n' :: normaliseBreaks rest
  | '\r' :: rest => '\n' :: normaliseBreaks rest
  | c :: rest => c :: normaliseBreaks rest

/-- The pieces with `separator` between each two of them. -/
def join (separator : Text) : List Text → Text
  | [] => []
  | [piece] => piece
  | piece :: next :: rest => piece ++ separator ++ join separator (next :: rest)

/-- Every line followed by a line break. -/
def unlines (lines : List Text) : Text := lines.flatMap (· ++ ['\n'])

/-- The text with the occurrences of `piece`, taken from the left and not overlapping, exchanged
for `replacement`; `skip` characters of an occurrence already exchanged are passed over. -/
def replaceFrom (piece replacement : Text) (skip : Nat) : Text → Text
  | [] => []
  | c :: cs =>
    match skip with
    | skip + 1 => replaceFrom piece replacement skip cs
    | 0 =>
      if startsWith (c :: cs) piece then
        replacement ++ replaceFrom piece replacement (piece.length - 1) cs
      else c :: replaceFrom piece replacement 0 cs

/-- The text with every occurrence of the non-empty `piece` exchanged for `replacement`. -/
def replaceAll (text piece replacement : Text) : Text := replaceFrom piece replacement 0 text

/-- The text with the first occurrence of `piece` exchanged for `replacement`. -/
def replaceFirst (text piece replacement : Text) : Text :=
  match indexOf? piece text with
  | none => text
  | some i => text.take i ++ replacement ++ text.drop (i + piece.length)

/-- The decimal digits of a number. -/
def ofNat (n : Nat) : Text := Nat.toDigits 10 n

/-- The decimal digits of an integer, after a minus sign when it is negative. -/
def ofInt (n : Int) : Text := if n < 0 then '-' :: ofNat n.natAbs else ofNat n.natAbs

end Text

end AngularUplift
