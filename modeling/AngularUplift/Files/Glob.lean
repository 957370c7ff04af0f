import AngularUplift.Text.Basic

/-!
# Path patterns

A pattern for paths: `*` stands for any run of characters, slashes included, `?` for one character and a bracketed
set for one of its characters, or for any other one after an exclamation mark. A bracket that is not closed
stands for itself.

## Main definitions

* `GlobItem`, `Glob.parse`: the items of a pattern.
* `Glob.matchesAll`: whether a whole text is an instance of a pattern.
-/

namespace AngularUplift

/-- An item of a pattern. -/
inductive GlobItem where
  /-- A character that stands for itself. -/
  | literal (c : Char)
  /-- Any one character. -/
  | anyOne
  /-- Any run of characters. -/
  | anyRun
  /-- One character of a set of inclusive ranges, or one outside it. -/
  | oneOf (negated : Bool) (ranges : List (Char × Char))
deriving DecidableEq, Repr

namespace Glob

/-- The ranges of a set. A hyphen between two characters makes a range; a range in reverse holds nothing. -/
def ranges : Text → List (Char × Char)
  | [] => []
  | [c] => [(c, c)]
  | [c, d] => [(c, c), (d, d)]
  | c :: d :: e :: rest =>
    if d = '-' then (c, e) :: ranges rest else (c, c) :: ranges (d :: e :: rest)

/-- The content of a set whose opening bracket was just read, and what follows its closing bracket. A closing
bracket at the beginning, also after the exclamation mark, belongs to the content. -/
def setContent? (text : Text) : Option (Text × Text) :=
  let mark := if text.startsWith ['!'] then 1 else 0
  let fixed := if Text.startsWith (text.drop mark) [']'] then mark + 1 else mark
  match Text.indexOf? [']'] (text.drop fixed) with
  | none => none
  | some n => some (text.take (fixed + n), text.drop (fixed + n + 1))

/-- The items of a pattern, of which at most `fuel` are read. Each item takes at least one character. -/
def parseItems : (fuel : Nat) → Text → List GlobItem
  | 0, _ => []
  | _, [] => []
  | fuel + 1, c :: cs =>
    if c = '*' then .anyRun :: parseItems fuel cs
    else if c = '?' then .anyOne :: parseItems fuel cs
    else if c = '[' then
      match setContent? cs with
      | none => .literal '[' :: parseItems fuel cs
      | some ('!' :: content, rest) => .oneOf true (ranges content) :: parseItems fuel rest
      | some (content, rest) => .oneOf false (ranges content) :: parseItems fuel rest
    else .literal c :: parseItems fuel cs

/-- The items of a pattern. -/
def parse (pattern : Text) : List GlobItem := parseItems pattern.length pattern

/-- Whether an item that stands for one character stands for this one. -/
def admits (c : Char) : GlobItem → Bool
  | .literal d => c == d
  | .anyOne => true
  | .anyRun => false
  | .oneOf negated ranges => (ranges.any fun (first, last) => first ≤ c && c ≤ last) != negated

/-- The texts that are left after any run of characters is taken off the beginning of a text. -/
def suffixes : Text → List Text
  | [] => [[]]
  | c :: cs => (c :: cs) :: suffixes cs

/-- Whether a whole text is an instance of the items. -/
def isInstance : List GlobItem → Text → Bool
  | [], text => text.isEmpty
  | .anyRun :: items, text => (suffixes text).any (isInstance items)
  | item :: items, text =>
    match text with
    | [] => false
    | c :: cs => admits c item && isInstance items cs

/-- Whether a whole text is an instance of a pattern. -/
def matchesAll (pattern text : Text) : Bool := isInstance (parse pattern) text

end Glob

end AngularUplift
