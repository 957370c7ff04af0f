import AngularUplift.Text.Numeral
import AngularUplift.Text.Quoted

/-!
# Replacements

What takes the place of an occurrence is itself written in a small notation: a backslash begins an escape, which
stands for a control character, for a code in octal digits, or for the occurrence itself. A text without
backslashes stands for itself.

## Main definitions

* `Replacement`: what takes the place of an occurrence; `Replacement.expand` writes it for a given one.
* `Replacement.parse`: the replacement that a text denotes.
* `ReplacementFault`: why a text denotes none.
-/

namespace AngularUplift

/-- A part of a replacement. -/
inductive ReplacementPart where
  /-- A character. -/
  | plain (c : Char)
  /-- The occurrence that is replaced. -/
  | occurrence
deriving DecidableEq, Repr

/-- What takes the place of an occurrence. -/
abbrev Replacement := List ReplacementPart

/-- Why a text denotes no replacement. -/
inductive ReplacementFlaw where
  /-- The text ends with a backslash. -/
  | unfinished
  /-- No escape is written with this letter. -/
  | unknownEscape (letter : Char)
  /-- There is no group of this number. -/
  | noGroup (index : Nat)
  /-- The code is greater than 255. -/
  | codeTooGreat (digits : Text)
  /-- A group is not named in angle brackets. -/
  | noBracket
  /-- There is nothing in the angle brackets. -/
  | noName
  /-- The angle bracket is not closed. -/
  | openBracket
  /-- What is in the angle brackets is neither a name nor a number. -/
  | notName (name : Text)
deriving DecidableEq, Repr

/-- A flaw with the text and the place in it, or a name that no group has. -/
inductive ReplacementFault where
  /-- The text is flawed at a position. -/
  | flawed (flaw : ReplacementFlaw) (source : Text) (position : Nat)
  /-- No group has this name. -/
  | unknownGroup (name : Text)
deriving DecidableEq, Repr

/-- The words for a flaw. -/
def ReplacementFlaw.message : ReplacementFlaw → Text
  | .unfinished => txt "bad escape (end of pattern)"
  | .unknownEscape letter => txt "bad escape \\" ++ [letter]
  | .noGroup index => txt "invalid group reference " ++ Text.ofNat index
  | .codeTooGreat digits => txt "octal escape value \\" ++ digits ++ txt " outside of range 0-0o377"
  | .noBracket => txt "missing <"
  | .noName => txt "missing group name"
  | .openBracket => txt "missing >, unterminated name"
  | .notName name => txt "bad character in group name " ++ Text.quoted name

/-- The words for a fault. In a text of several lines the place is given twice. -/
def ReplacementFault.message : ReplacementFault → Text
  | .flawed flaw source position =>
    let before := source.take position
    let line := (before.filter (· == '\n')).length + 1
    let column := (before.reverse.takeWhile (· != '\n')).length + 1
    flaw.message ++ txt " at position " ++ Text.ofNat position ++
      (if source.elem '\n' then
        txt " (line " ++ Text.ofNat line ++ txt ", column " ++ Text.ofNat column ++ [')']
      else [])
  | .unknownGroup name => txt "unknown group name " ++ Text.quoted name

namespace Replacement

/-- The replacement by a fixed text. -/
def fixed (text : Text) : Replacement := text.map .plain

/-- What a part becomes for an occurrence. -/
def expandPart (occurrence : Text) : ReplacementPart → Text
  | .plain c => [c]
  | .occurrence => occurrence

/-- What takes the place of an occurrence. -/
def expand (replacement : Replacement) (occurrence : Text) : Text :=
  replacement.flatMap (expandPart occurrence)

/-- A fixed text takes the place of every occurrence. -/
@[simp] theorem expand_fixed (text occurrence : Text) : expand (fixed text) occurrence = text := by
  induction text with
  | nil => rfl
  | cons c cs ih => simpa [expand, fixed, expandPart] using ih

/-! ### Reading -/

/-- The characters of a text, with a backslash and the character after it as one unit. A backslash at the end is
a unit of its own. -/
def units : Text → List Text
  | [] => []
  | '\\' :: c :: rest => ['\\', c] :: units rest
  | c :: rest => [c] :: units rest

/-- A reader of units. The text is only needed to tell where something is wrong. -/
abbrev UnitReader (α : Type) := StateT (List Text) (Except ReplacementFault) α

/-- The flaw, some characters before the next unit. -/
def flaw {α : Type} (source : Text) (flaw : ReplacementFlaw) (back : Nat) : UnitReader α := do
  let rest ← get
  throw (.flawed flaw source (source.length - rest.flatten.length - back))

/-- A backslash at the end of a text is found as soon as it comes next. -/
def checkEnd (source : Text) : UnitReader Unit := do
  if (← get) = [['\\']] then throw (.flawed .unfinished source (source.length - 1))

/-- The next unit, if there is one. -/
def take? (source : Text) : UnitReader (Option Text) := do
  match ← get with
  | [] => return none
  | unit :: rest =>
    set rest
    checkEnd source
    return some unit

/-- The next unit if it is a character of a class. -/
def takeIf? (source : Text) (p : Char → Bool) : UnitReader (Option Char) := do
  match ← get with
  | [c] :: _ =>
    if p c then
      let _ ← take? source
      return some c
    else return none
  | _ => return none

/-- Whether a character is an octal digit. -/
def isOctal (c : Char) : Bool := '0' ≤ c && c ≤ '7'

/-- The number that octal digits stand for. -/
def octalValue (digits : Text) : Nat := Text.ofDigits 8 (digits.map fun c => c.toNat - '0'.toNat)

/-- The characters up to a closing angle bracket. -/
def name (source : Text) : (fuel : Nat) → (found : Text) → UnitReader Text
  | 0, found => return found
  | fuel + 1, found => do
    match ← take? source with
    | none => if found.isEmpty then flaw source .noName 0 else flaw source .openBracket found.length
    | some ['>'] => if found.isEmpty then flaw source .noName 1 else return found
    | some unit => name source fuel (found ++ unit)

/-- Whether a text has the form of a name. -/
def isNameForm : Text → Bool
  | [] => false
  | c :: cs => (isLetter c || c == '_') && cs.all isWord

/-- The occurrence, named by the number of a group: there is only the group zero. -/
def group (source : Text) (index back : Nat) : UnitReader Replacement :=
  if index = 0 then return [.occurrence] else flaw source (.noGroup index) back

/-- The group whose name stands in angle brackets. -/
def namedGroup (source : Text) : UnitReader Replacement := do
  let some _ ← takeIf? source (· == '<') | flaw source .noBracket 0
  let name ← name source (source.length + 1) []
  if isNameForm name then throw (.unknownGroup name)
  let digits := (Text.digits? 10 (Text.unsigned name).2).filter (·.length ≤ mostDigits)
  match digits, Text.integer? 10 name with
  | some _, some index =>
    if index < 0 then flaw source (.notName name) (name.length + 1)
    else group source index.toNat (name.length + 1)
  | _, _ => flaw source (.notName name) (name.length + 1)

/-- The escape by a digit other than zero: three octal digits are a code, one or two digits are a group. -/
def numbered (source : Text) (first : Char) : UnitReader Replacement := do
  match ← takeIf? source isDecimal with
  | none => group source (first.toNat - '0'.toNat) 1
  | some second =>
    let third ← if isOctal first && isOctal second then takeIf? source isOctal else pure none
    match third with
    | none => group source (Text.ofDigits 10 ([first, second].map fun c => c.toNat - '0'.toNat)) 2
    | some third =>
      let digits := [first, second, third]
      if 255 < octalValue digits then flaw source (.codeTooGreat digits) 4
      else return [.plain (Char.ofNat (octalValue digits))]

/-- The escape by a zero, with up to two more octal digits. -/
def octal (source : Text) : UnitReader Replacement := do
  match ← takeIf? source isOctal with
  | none => return [.plain (Char.ofNat 0)]
  | some second =>
    let third ← takeIf? source isOctal
    return [.plain (Char.ofNat (octalValue ([second] ++ third.toList)))]

/-- The control character that a letter stands for, or the backslash. -/
def control? (c : Char) : Option Char :=
  if c = 'a' then some (Char.ofNat 7)
  else if c = 'b' then some (Char.ofNat 8)
  else if c = 'f' then some (Char.ofNat 12)
  else if c = 'n' then some '\n'
  else if c = 'r' then some '\r'
  else if c = 't' then some '\t'
  else if c = 'v' then some (Char.ofNat 11)
  else if c = '\\' then some '\\'
  else none

/-- What an escape stands for. One that is written with neither a letter nor a digit stands for itself. -/
def escape (source : Text) (c : Char) : UnitReader Replacement := do
  if c = 'g' then namedGroup source
  else if c = '0' then octal source
  else if isDecimal c then numbered source c
  else
    match control? c with
    | some meant => return [.plain meant]
    | none => if isLatin c then flaw source (.unknownEscape c) 2 else return fixed ['\\', c]

/-- The parts of a replacement, of which at most `fuel` units are read. -/
def parts (source : Text) : (fuel : Nat) → UnitReader Replacement
  | 0 => return []
  | fuel + 1 => do
    match ← take? source with
    | none => return []
    | some unit =>
      let first ← match unit with
        | ['\\', c] => escape source c
        | unit => pure (fixed unit)
      return first ++ (← parts source fuel)

/-- The replacement that a text denotes. Every unit is read once. -/
def parse (source : Text) : Except ReplacementFault Replacement :=
  let reading : UnitReader Replacement := do
    checkEnd source
    parts source (source.length + 1)
  reading.run' (units source)

end Replacement

end AngularUplift
