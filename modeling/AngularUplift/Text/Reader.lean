import AngularUplift.Text.Class

/-!
# Reading the beginning of a text

A reader takes something off the beginning of a text and hands on the rest, or declines. Readers are
put together in `do` blocks, one step per piece of the form that is read. A reader does not go back on a step:
the forms in this library are written so that the longest run of a class is the right one. Only the white space
in `Reader.afterGap` may have to be shorter.

## Main definitions

* `Reader`: a function from a text to what was found and the rest.
* `Reader.exactly`, `Reader.oneOf`, `Reader.run`, `Reader.run1`: a fixed piece, one character of a
  class, and the longest run of a class.
* `Reader.blanks`, `Reader.gap`, `Reader.name`: the runs that occur in nearly every form.
-/

namespace AngularUplift

/-- Takes something off the beginning of a text and hands on the rest. -/
abbrev Reader (α : Type) := StateT Text Option α

namespace Reader

/-- The fixed piece. -/
def exactly (piece : Text) : Reader Unit := fun text => (piece.after? text).map ((), ·)

/-- One character of a class. -/
def oneOf (p : Char → Bool) : Reader Char
  | c :: cs => if p c then some (c, cs) else none
  | [] => none

/-- The longest run of characters of a class, which may be empty. -/
def run (p : Char → Bool) : Reader Text := fun text => some (text.takeWhile p, text.dropWhile p)

/-- The longest run of characters of a class, which may not be empty. -/
def run1 (p : Char → Bool) : Reader Text := fun text =>
  if (text.takeWhile p).isEmpty then none else some (text.takeWhile p, text.dropWhile p)

/-- White space, or nothing. -/
def blanks : Reader Text := run isBlank

/-- White space. -/
def blanks1 : Reader Text := run1 isBlank

/-- Spaces and tabs, or nothing. -/
def gap : Reader Text := run isGap

/-- Spaces and tabs. -/
def gap1 : Reader Text := run1 isGap

/-- Spaces and tabs before what a reader reads: as many as leave it something to read. -/
def afterGap {α : Type} (r : Reader α) : Reader α := fun text =>
  let most := (text.takeWhile isGap).length
  (List.range (most + 1)).reverse.findSome? fun n => r (text.drop n)

/-- An identifier. -/
def name : Reader Text := run1 isName

/-- The given piece when it comes next, and otherwise nothing. -/
def optionally (piece : Text) : Reader Unit := fun text => some ((), (piece.after? text).getD text)

/-- Reads nothing, and succeeds when the next character, if there is one, is not of the class. -/
def notNext (p : Char → Bool) : Reader Unit := fun text =>
  match text with
  | c :: _ => if p c then none else some ((), text)
  | [] => some ((), text)

/-- Reads nothing, and succeeds at the end of a line. -/
def endOfLine : Reader Unit := fun text =>
  match text with
  | c :: _ => if c == '\n' then some ((), text) else none
  | [] => some ((), text)

/-- Reads nothing, and succeeds after a word that goes no further. -/
def endOfWord : Reader Unit := notNext isWord

/-- The first of the readers that succeeds. -/
def firstOf {α : Type} : List (Reader α) → Reader α
  | [] => fun _ => none
  | r :: rs => fun text =>
    match r text with
    | some found => some found
    | none => firstOf rs text

/-- One of the fixed pieces, tried in order. -/
def anyOf (pieces : List Text) : Reader Unit := firstOf (pieces.map exactly)

/-- The word `function`, a name or none, and the parenthesis that opens its parameters. -/
def functionHead : Reader Unit := do
  exactly (txt "function")
  let _ ← blanks
  let _ ← run isName
  let _ ← blanks
  exactly (txt "(")

/-- A single or double quotation mark, the characters up to the next such mark, and that mark. -/
def quoted : Reader Text := do
  let _ ← oneOf isPlainQuote
  let inner ← run (!isPlainQuote ·)
  let _ ← oneOf isPlainQuote
  return inner

end Reader

end AngularUplift
