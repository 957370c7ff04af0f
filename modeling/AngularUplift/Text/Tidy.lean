import AngularUplift.Text.Pattern

/-!
# Small clean-ups

Collapsing blank lines, and taking out `.bind(this)` calls and interpolation brackets.
-/

namespace AngularUplift

/-- The length of the blank line that a text begins with: spaces and tabs, a carriage return or none, and a
line break. -/
def blankLineLength? (text : Text) : Option Nat :=
  let afterGap := text.dropWhile isGap
  match afterGap with
  | '\n' :: _ => some (text.length - afterGap.length + 1)
  | '\r' :: '\n' :: _ => some (text.length - afterGap.length + 2)
  | _ => none

/-- The number of characters in the blank lines that a text begins with; `skip` of them are already counted. -/
def blankLinesLength (skip : Nat) : Text → Nat
  | [] => 0
  | c :: cs =>
    match skip with
    | skip + 1 => blankLinesLength skip cs + 1
    | 0 =>
      match blankLineLength? (c :: cs) with
      | some (n + 1) => blankLinesLength n cs + 1
      | _ => 0

/-- A line break followed by blank lines. -/
def blankRun : Pattern Unit where
  left := anywhere
  read := fun text =>
    match text with
    | '\n' :: rest =>
      match blankLinesLength 0 rest with
      | 0 => none
      | n => some ((), rest.drop n)
    | _ => none

/-- A `.bind(this)` call. -/
def bindThis : Pattern Unit where
  left := anywhere
  read := do
    Reader.exactly (txt ".bind(")
    let _ ← Reader.blanks
    Reader.exactly (txt "this")
    let _ ← Reader.blanks
    Reader.exactly (txt ")")

/-- A pair of interpolation brackets. -/
def interpolationBrackets : Pattern Unit where
  left := anywhere
  read := Reader.anyOf [['{', '{'], ['}', '}']]

namespace Text

/-- The text with every run of blank lines collapsed into one line break. -/
def removeEmptyLines (text : Text) : Text := blankRun.replace ['\n'] text

/-- The text without `.bind(this)` calls. -/
def removeBindThis (text : Text) : Text := bindThis.erase text

/-- The text without interpolation brackets. -/
def removeInterpolationBrackets (text : Text) : Text := interpolationBrackets.erase text

end Text

end AngularUplift
