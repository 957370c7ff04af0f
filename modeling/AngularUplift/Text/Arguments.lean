import AngularUplift.Text.Class
import AngularUplift.Text.Delimiter

/-!
# Argument lists

Cutting the text between the parentheses of a call at its top-level commas. Nested delimiters and string
literals keep their commas: `'a', function (x, y) { f(1, 2); }` is two arguments.

One depth counts all three kinds of delimiter, and it may fall below zero: a comma separates only at depth
zero.
-/

namespace AngularUplift

/-- Where a scan of nested code stands. -/
structure Nesting where
  /-- Opening less closing delimiters seen so far. -/
  depth : Int := 0
  /-- The mark that closes the current string literal, inside one. -/
  quote : Option Char := none
  /-- Whether the next character stands after a backslash in a string literal. -/
  escaped : Bool := false
deriving DecidableEq, Repr

namespace Nesting

/-- Neither in a literal nor between delimiters. -/
def isTop (n : Nesting) : Bool := n.depth == 0 && n.quote.isNone

/-- Where the scan stands after one more character. -/
def step (n : Nesting) (c : Char) : Nesting :=
  match n.quote with
  | some quote =>
    if n.escaped then { n with escaped := false }
    else if c = '\\' then { n with escaped := true }
    else if c = quote then { n with quote := none }
    else n
  | none =>
    if isQuote c then { n with quote := some c }
    else if isOpening c then { n with depth := n.depth + 1 }
    else if isClosing c then { n with depth := n.depth - 1 }
    else n

end Nesting

namespace Text

/-- The pieces of a text between the commas at which a scan stands at the top. -/
def argumentPieces (n : Nesting) : Text → List Text
  | [] => [[]]
  | c :: cs =>
    if c = ',' ∧ n.isTop then [] :: argumentPieces n cs
    else
      match argumentPieces (n.step c) cs with
      | [] => [[c]]
      | first :: rest => (c :: first) :: rest

/-- The arguments of a call, trimmed. A blank text has none. -/
def splitArguments (text : Text) : List Text :=
  match (argumentPieces {} text).map trim with
  | [[]] => []
  | arguments => arguments

end Text

end AngularUplift
