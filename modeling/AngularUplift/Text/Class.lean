import AngularUplift.Text.Basic
import AngularUplift.Text.Unicode.Letter
import AngularUplift.Text.Unicode.Numeral

/-!
# Character classes

The classes of characters by which source text is cut: white space, letters, word characters and
the characters of a name. All of them cover the whole of Unicode; below U+0080 they are given
directly, so that a statement about punctuation never opens a table.

## Main definitions

* `isBlank`: white space, including the separators U+001C to U+001F and the no-break spaces.
* `isLetter`, `isWord`: letters, and letters, numerals and the underscore.
* `isName`: the characters of an identifier, which are word characters and `$`.
* `Text.trim` and its two halves: a text without white space at its ends.
-/

namespace AngularUplift

/-- Whether a code point lies in one of the inclusive ranges. -/
def inRanges (ranges : List (Nat × Nat)) (code : Nat) : Bool :=
  ranges.any fun (first, last) => first ≤ code && code ≤ last

/-- White space. -/
def isBlank (c : Char) : Bool :=
  let code := c.toNat
  if code < 0x80 then (9 ≤ code && code ≤ 13) || (28 ≤ code && code ≤ 32)
  else
    code == 0x85 || code == 0xA0 || code == 0x1680 || (0x2000 ≤ code && code ≤ 0x200A) ||
      code == 0x2028 || code == 0x2029 || code == 0x202F || code == 0x205F || code == 0x3000

/-- A space or a tab: white space that stays on its line. -/
def isGap (c : Char) : Bool := c == ' ' || c == '\t'

/-- An ASCII letter. -/
def isLatin (c : Char) : Bool := ('a' ≤ c && c ≤ 'z') || ('A' ≤ c && c ≤ 'Z')

/-- An ASCII digit. -/
def isDecimal (c : Char) : Bool := '0' ≤ c && c ≤ '9'

/-- A letter of any script. -/
def isLetter (c : Char) : Bool :=
  if c.toNat < 0x80 then isLatin c else inRanges Unicode.letterRanges c.toNat

/-- A letter or a character with a numeric value, of any script. -/
def isLetterOrNumeral (c : Char) : Bool :=
  if c.toNat < 0x80 then isLatin c || isDecimal c
  else inRanges Unicode.letterRanges c.toNat || inRanges Unicode.numeralRanges c.toNat

/-- A word character: a letter, a numeral or the underscore. -/
def isWord (c : Char) : Bool := c == '_' || isLetterOrNumeral c

/-- A character of an identifier: a word character or `$`. -/
def isName (c : Char) : Bool := c == '$' || isWord c

/-- A character that can begin an identifier written in ASCII. -/
def isNameStart (c : Char) : Bool := isLatin c || c == '_' || c == '$'

/-- One of the three quotation marks that open a string literal. -/
def isQuote (c : Char) : Bool := c == '\'' || c == '"' || c == '`'

/-- A single or double quotation mark. -/
def isPlainQuote (c : Char) : Bool := c == '\'' || c == '"'

namespace Text

/-- The text without the white space it begins with. -/
def trimLeft (text : Text) : Text := text.dropWhile isBlank

/-- The text without the characters of class `p` it ends with. -/
def dropRightWhile (p : Char → Bool) (text : Text) : Text := (text.reverse.dropWhile p).reverse

/-- The text without the white space it ends with. -/
def trimRight (text : Text) : Text := dropRightWhile isBlank text

/-- The text without white space at its ends. -/
def trim (text : Text) : Text := trimRight (trimLeft text)

/-- The text without line breaks at its ends. -/
def trimBreaks (text : Text) : Text := dropRightWhile (· == '\n') (text.dropWhile (· == '\n'))

/-- A text without its surrounding quotation marks, when both of its ends, after trimming, are the
same mark. -/
def unquote (text : Text) : Text :=
  let inner := trim text
  match inner with
  | first :: rest =>
    if isQuote first && !rest.isEmpty && rest.getLast? == some first then rest.dropLast else inner
  | [] => inner

end Text

end AngularUplift
