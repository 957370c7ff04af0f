import AngularUplift.Text.Class
import AngularUplift.Text.Unicode.Unprintable

/-!
# Texts in quotes, for display

A text inside a message is shown in quotes, on one line and without characters that have no printed form. Single
quotes are used unless the text has a single quote and no double quote. Octets are shown likewise.
-/

namespace AngularUplift.Text

/-- The hexadecimal digits of a number, padded with zeros. -/
def hexadecimal (width n : Nat) : Text :=
  let digits := Nat.toDigits 16 n
  List.replicate (width - digits.length) '0' ++ digits

/-- A character by its code point. -/
def codeEscape (code : Nat) : Text :=
  if code < 0x100 then txt "\\x" ++ hexadecimal 2 code
  else if code < 0x10000 then txt "\\u" ++ hexadecimal 4 code
  else txt "\\U" ++ hexadecimal 8 code

/-- A character inside quotes. -/
def quotedChar (quote c : Char) : Text :=
  let code := c.toNat
  if c = quote ∨ c = '\\' then ['\\', c]
  else if c = '\n' then txt "\\n"
  else if c = '\r' then txt "\\r"
  else if c = '\t' then txt "\\t"
  else if code < 0x20 ∨ code = 0x7F then codeEscape code
  else if 0x80 ≤ code && inRanges Unicode.unprintableRanges code then codeEscape code
  else [c]

/-- A text in quotes. -/
def quoted (text : Text) : Text :=
  let quote := if text.elem '\'' && !text.elem '"' then '"' else '\''
  [quote] ++ text.flatMap (quotedChar quote) ++ [quote]

/-- Octets in quotes, after a mark: those that are ASCII as characters, the others by their codes. -/
def quotedOctets (octets : List UInt8) : Text :=
  let codes := octets.map UInt8.toNat
  let quote := if codes.elem '\''.toNat && !codes.elem '"'.toNat then '"' else '\''
  let quotedOctet (code : Nat) : Text := if code < 0x80 then quotedChar quote (Char.ofNat code) else codeEscape code
  ['b', quote] ++ codes.flatMap quotedOctet ++ [quote]

end AngularUplift.Text
