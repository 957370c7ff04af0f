import AngularUplift.Text.Class
import AngularUplift.Text.Unicode.CaseTable
import AngularUplift.Text.Unicode.Cased

/-!
# Upper and lower case

The upper-case and lower-case forms of a character. A form is a text, because some characters have a
partner of several characters: the upper case of `ß` is `SS`. In a text the form can depend on the place of the
character: a capital sigma at the end of a word becomes a final sigma.

## Main definitions

* `upper`, `lower`: the forms of a character on its own.
* `Text.toUpper`, `Text.toLower`: a text in upper or lower case.
* `Text.capitalise`, `Text.decapitalise`: a text with only its first character changed.
-/

namespace AngularUplift

/-- The code point that a run assigns to `code`, when `code` belongs to the run. -/
def Unicode.CaseRun.shifted? (run : Unicode.CaseRun) (code : Nat) : Option Nat :=
  if run.first ≤ code && code ≤ run.last && (code - run.first) % run.stride == 0 then
    some ((code : Int) + run.shift).toNat
  else none

/-- The partner of a code point above U+007F by a table of expansions and a table of runs. -/
def casePartner (expansions : List (Nat × List Nat)) (runs : List Unicode.CaseRun) (c : Char) : Text :=
  match expansions.lookup c.toNat with
  | some codes => codes.map Char.ofNat
  | none => [((runs.findSome? (·.shifted? c.toNat)).map Char.ofNat).getD c]

/-- The upper-case form of a character. -/
def upper (c : Char) : Text :=
  if c.toNat < 0x80 then [c.toUpper] else casePartner Unicode.upperExpansions Unicode.upperRuns c

/-- The lower-case form of a character. -/
def lower (c : Char) : Text :=
  if c.toNat < 0x80 then [c.toLower] else casePartner Unicode.lowerExpansions Unicode.lowerRuns c

/-- Whether a character has a case. -/
def isCased (c : Char) : Bool :=
  if c.toNat < 0x80 then isLatin c else inRanges Unicode.casedRanges c.toNat

/-- Whether a character is passed over when letters with a case are looked for. -/
def isCaseIgnorable (c : Char) : Bool :=
  if c.toNat < 0x80 then c == '\'' || c == '.' || c == ':' || c == '^' || c.toNat == 0x60
  else inRanges Unicode.caseIgnorableRanges c.toNat

namespace Text

/-- Whether the next letter that matters has a case. -/
def continuesWord (text : Text) : Bool := (text.dropWhile isCaseIgnorable).head?.any isCased

/-- The text with every character in lower case, where `inWord` says whether the last letter before it that
matters has a case. A capital sigma is final after such a letter, unless another one follows. -/
def lowerFrom (inWord : Bool) : Text → Text
  | [] => []
  | c :: cs =>
    let form :=
      if c = 'Σ' then (if inWord && !continuesWord cs then ['ς'] else ['σ']) else lower c
    form ++ lowerFrom (if isCaseIgnorable c then inWord else isCased c) cs

/-- The text with every character in lower case. -/
def toLower (text : Text) : Text := lowerFrom false text

/-- The text with every character in upper case. -/
def toUpper (text : Text) : Text := text.flatMap upper

/-- The text with its first character in upper case. -/
def capitalise : Text → Text
  | [] => []
  | c :: cs => upper c ++ cs

/-- The text with its first character in lower case. -/
def decapitalise : Text → Text
  | [] => []
  | c :: cs => lower c ++ cs

end Text

end AngularUplift
