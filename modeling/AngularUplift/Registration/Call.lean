import AngularUplift.Text.Arguments
import AngularUplift.Text.Comment
import AngularUplift.Text.Delimiter
import AngularUplift.Text.Pattern

/-!
# Registration calls and their metadata

A construct is registered by a call such as `.component('userCard', {...})`. This module finds such calls, the
name they register and the properties of the metadata object.

## Main definitions

* `Registration.signature`: the pattern by which the registrations of a keyword are recognised.
* `Registration.call`, `Registration.name`: the parentheses of the first call of a keyword, and the name it
  registers.
* `Registration.quotedProperty`, `Registration.objectProperty`: properties of a metadata object.
* `Registration.compactBlock`, `Registration.blockKeys`: the keys of a flat object literal.
-/

namespace AngularUplift.Registration

/-- `keyword(` and a quotation mark, in a member call such as `module.keyword('`. -/
def signature (keyword : Text) : Pattern Unit where
  left := anywhere
  read := do
    Reader.exactly ('.' :: keyword)
    let _ ← Reader.blanks
    Reader.exactly ['(']
    let _ ← Reader.blanks
    let _ ← Reader.oneOf isPlainQuote

/-- `keyword(` and a quotation mark, at the edge of a word. -/
def callHead (keyword : Text) : Pattern Unit where
  left := wordEdge
  read := do
    Reader.exactly keyword
    let _ ← Reader.blanks
    Reader.exactly ['(']
    let _ ← Reader.blanks
    let _ ← Reader.oneOf isPlainQuote

/-- `keyword(` and a quoted name, at the edge of a word. -/
def namedCall (keyword : Text) : Pattern Text where
  left := wordEdge
  read := do
    Reader.exactly keyword
    let _ ← Reader.blanks
    Reader.exactly ['(']
    let _ ← Reader.blanks
    Reader.quoted

/-- The position of the first parenthesis that opens at or after a position. -/
def parenAfter (text : Text) (position : Nat) : Nat :=
  (text.indexFrom? ['('] position).getD text.length

/-- The positions of the parentheses of the first call `keyword('name', ...)`. -/
def call (text keyword : Text) : Except Fault (Option (Nat × Nat)) :=
  match (callHead keyword).find? text with
  | none => .ok none
  | some found => do
    let start := parenAfter text found.start
    let stop ← Delimiter.paren.close text start
    return some (start, stop)

/-- The name registered by the first call `keyword('name', ...)`, or nothing. -/
def name (text keyword : Text) : Text :=
  match (namedCall keyword).find? text with
  | some found => found.value
  | none => []

/-- `key:` and a quoted value. -/
def quotedEntry (key : Text) : Pattern Text where
  left := wordEdge
  read := do
    Reader.exactly key
    let _ ← Reader.blanks
    Reader.exactly [':']
    let _ ← Reader.blanks
    Reader.quoted

/-- The value of `key: 'value'`, or nothing. -/
def quotedProperty (text key : Text) : Text :=
  match (quotedEntry key).find? text with
  | some found => found.value
  | none => []

/-- `key:` and an opening brace. -/
def objectEntry (key : Text) : Pattern Unit where
  left := wordEdge
  read := do
    Reader.exactly key
    let _ ← Reader.blanks
    Reader.exactly [':']
    let _ ← Reader.blanks
    Reader.exactly ['{']

/-- The object literal after `key:` with its braces, or nothing. -/
def objectProperty (text key : Text) : Except Fault Text :=
  match (objectEntry key).find? text with
  | none => .ok []
  | some found => do
    let start := found.stop - 1
    let stop ← Delimiter.brace.close text start
    return text.slice start (stop + 1)

/-- An object literal without comments and without white space. -/
def compactBlock (block : Text) : Text := block.stripComments.filter (!isBlank ·)

/-- The key of an entry of an object literal, if the entry has a colon and a key before it. -/
def entryKey? (entry : Text) : Option Text :=
  if entry.elem ':' then
    match Text.unquote (entry.takeWhile (· != ':')) with
    | [] => none
    | key => some key
  else none

/-- The keys of a flat object literal, in order. -/
def blockKeys (block : Text) : List Text :=
  match block with
  | '{' :: rest =>
    if block.getLast? == some '}' then (Text.splitArguments rest.dropLast).filterMap entryKey? else []
  | _ => []

end AngularUplift.Registration
