import AngularUplift.Text.Class

/-!
# Characters of YAML

The classes of characters by which a YAML text is cut, and the place of a character in it. Carriage returns were
made line feeds when the text was read from its file, so none is left.

## Main definitions

* `Yaml.isPrintable`: the characters that a text may hold.
* `Yaml.isBreak`, `Yaml.isWhite`: line breaks and white space.
* `Yaml.Cursor`: a place in a text.
-/

namespace AngularUplift.Yaml

/-- A character that a text may hold. -/
def isPrintable (c : Char) : Bool :=
  let code := c.toNat
  code == 0x09 || code == 0x0A || (0x20 ≤ code && code ≤ 0x7E) || code == 0x85 ||
    (0xA0 ≤ code && code ≤ 0xFFFD) || 0x10000 ≤ code

/-- A line break. -/
def isBreak (c : Char) : Bool :=
  c == '\n' || c.toNat == 0x85 || c.toNat == 0x2028 || c.toNat == 0x2029

/-- White space: a space, a tab or a line break. -/
def isWhite (c : Char) : Bool := isGap c || isBreak c

/-- The character that a line break is read as. -/
def breakChar (c : Char) : Char := if c.toNat == 0x85 then '\n' else c

/-- The mark of the octet order, which takes no room on a line. -/
def orderMark : Char := Char.ofNat 0xFEFF

/-- A character that ends a plain scalar inside brackets and braces. -/
def isFlowMark (c : Char) : Bool := c == ',' || c == '[' || c == ']' || c == '{' || c == '}'

/-- A character of an anchor, of the name of a directive and of a tag's handle. -/
def isHandleChar (c : Char) : Bool := isLatin c || isDecimal c || c == '-' || c == '_'

/-- A character of a tag. -/
def isTagChar (c : Char) : Bool :=
  isLatin c || isDecimal c || (txt "-;/?:@&=+$,_.!~*'()[]%").elem c

/-- Whether a text begins with a mark between documents. -/
def isDocumentMark (mark : Char) (text : Text) : Bool :=
  Text.startsWith text [mark, mark, mark] && (text[3]?).all isWhite

/-- Whether a text begins with a mark between documents, of either kind. -/
def isAnyDocumentMark (text : Text) : Bool := isDocumentMark '-' text || isDocumentMark '.' text

/-- A place in a text. -/
structure Cursor where
  /-- The text from there on. -/
  rest : Text
  /-- How many characters come before. -/
  index : Nat := 0
  /-- How many lines come before. -/
  line : Nat := 0
  /-- How many characters come before on the line. -/
  column : Nat := 0
deriving DecidableEq, Repr

namespace Cursor

/-- The place after one character. -/
def next (cursor : Cursor) : Cursor :=
  match cursor.rest with
  | [] => cursor
  | c :: rest =>
    let column :=
      if isBreak c then 0 else if c = orderMark then cursor.column else cursor.column + 1
    let line := if isBreak c then cursor.line + 1 else cursor.line
    ⟨rest, cursor.index + 1, line, column⟩

/-- The place after a number of characters. -/
def forward : (count : Nat) → Cursor → Cursor
  | 0, cursor => cursor
  | count + 1, cursor => forward count cursor.next

/-- The place at which a rest of the text begins. -/
def upTo (cursor : Cursor) (rest : Text) : Cursor := cursor.forward (cursor.rest.length - rest.length)

end Cursor

end AngularUplift.Yaml
