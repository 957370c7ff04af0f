import AngularUplift.Literal.Basic
import AngularUplift.Decimal.Shortest

/-!
# Writing literals

Literals are written as JSON in ASCII. In generated code a text that is the whole literal stands in single
quotes instead, in which only the quote, the backslash and the line feed are escaped.

## Main definitions

* `Literal.json`, `Literal.jsonIndented`: a value on one line, and with one item a line.
* `Literal.source`, `Literal.render`: a value as source code, as code points and as a text.
-/

namespace AngularUplift.Literal

/-- The hexadecimal digit of a number below sixteen. -/
def hexDigit (n : Nat) : Char := Nat.digitChar (n % 16)

/-- An escape with four hexadecimal digits. -/
def unitEscape (unit : Nat) : Text :=
  ['\\', 'u', hexDigit (unit / 4096), hexDigit (unit / 256), hexDigit (unit / 16), hexDigit unit]

/-- A character inside a double-quoted string. Everything but the printed characters of ASCII is escaped, above
U+FFFF as a surrogate pair. -/
def escapeChar (c : Char) : Text :=
  if c = '"' then txt "\\\""
  else if c = '\\' then txt "\\\\"
  else if c = '\n' then txt "\\n"
  else if c = '\r' then txt "\\r"
  else if c = '\t' then txt "\\t"
  else if c.toNat = 0x08 then txt "\\b"
  else if c.toNat = 0x0C then txt "\\f"
  else if 0x20 ≤ c.toNat ∧ c.toNat < 0x7F then [c]
  else if c.toNat < 0x10000 then unitEscape c.toNat
  else
    unitEscape (0xD800 + (c.toNat - 0x10000) / 0x400) ++
      unitEscape (0xDC00 + (c.toNat - 0x10000) % 0x400)

/-- A code point inside a double-quoted string. -/
def escapePoint : CodePoint → Text
  | .char c => escapeChar c
  | .half unit => unitEscape (0xD800 + unit)

/-- Code points as a double-quoted string. -/
def doubleQuoted (points : List CodePoint) : Text := ['"'] ++ points.flatMap escapePoint ++ ['"']

/-- Numbers in source code: positional from 10⁻⁴ up to 10¹⁶, otherwise with a signed exponent of at least two
digits. -/
def numerals : NumeralLayout := ⟨-4, 16, 2, txt "Infinity"⟩

mutual

/-- A value on one line. -/
def json : Literal → Text
  | .null => txt "null"
  | .bool true => txt "true"
  | .bool false => txt "false"
  | .int n => Text.ofInt n
  | .float x => numerals.render x
  | .string value => doubleQuoted value
  | .list items => ['['] ++ jsonItems items ++ [']']
  | .record fields => ['{'] ++ jsonFields fields ++ ['}']

/-- The items of a list, with a comma and a space between them. -/
def jsonItems : List Literal → Text
  | [] => []
  | [item] => json item
  | item :: next :: rest => json item ++ txt ", " ++ jsonItems (next :: rest)

/-- The fields of a record, with a comma and a space between them. -/
def jsonFields : List (List CodePoint × Literal) → Text
  | [] => []
  | [(key, value)] => doubleQuoted key ++ txt ": " ++ json value
  | (key, value) :: next :: rest =>
    doubleQuoted key ++ txt ": " ++ json value ++ txt ", " ++ jsonFields (next :: rest)

end

/-- A line break and the indentation of a level, two spaces each. -/
def newLine (level : Nat) : Text := '\n' :: List.replicate (2 * level) ' '

mutual

/-- A value with one item or field a line, at a level of indentation. -/
def jsonIndented (level : Nat) : Literal → Text
  | .list [] => txt "[]"
  | .record [] => txt "\x7b\x7d"
  | .list items => ['['] ++ indentedItems (level + 1) items ++ newLine level ++ [']']
  | .record fields => ['{'] ++ indentedFields (level + 1) fields ++ newLine level ++ ['}']
  | .null => txt "null"
  | .bool true => txt "true"
  | .bool false => txt "false"
  | .int n => Text.ofInt n
  | .float x => numerals.render x
  | .string value => doubleQuoted value

/-- The items of a list, each on a line of its own. -/
def indentedItems (level : Nat) : List Literal → Text
  | [] => []
  | [item] => newLine level ++ jsonIndented level item
  | item :: next :: rest =>
    newLine level ++ jsonIndented level item ++ [','] ++ indentedItems level (next :: rest)

/-- The fields of a record, each on a line of its own. -/
def indentedFields (level : Nat) : List (List CodePoint × Literal) → Text
  | [] => []
  | [(key, value)] => newLine level ++ doubleQuoted key ++ txt ": " ++ jsonIndented level value
  | (key, value) :: next :: rest =>
    newLine level ++ doubleQuoted key ++ txt ": " ++ jsonIndented level value ++ [','] ++
      indentedFields level (next :: rest)

end

/-- A character inside a single-quoted string of generated code. -/
def singleQuotedChar (c : Char) : Text :=
  if c = '\\' then txt "\\\\"
  else if c = '\'' then txt "\\'"
  else if c = '\n' then txt "\\n"
  else [c]

/-- A code point inside a single-quoted string of generated code. -/
def singleQuotedPoint : CodePoint → List CodePoint
  | .char c => CodePoint.ofText (singleQuotedChar c)
  | .half unit => [.half unit]

/-- A value as source code, in which halves of surrogate pairs are kept. -/
def source : Literal → List CodePoint
  | .string value => [.char '\''] ++ value.flatMap singleQuotedPoint ++ [.char '\'']
  | value => CodePoint.ofText (json value)

/-- A value as source code that is a text of characters, as generated code is: a half of a surrogate pair, which only a
string that is the whole literal can show, becomes a replacement character. -/
def render (value : Literal) : Text := CodePoint.toText value.source

end AngularUplift.Literal
