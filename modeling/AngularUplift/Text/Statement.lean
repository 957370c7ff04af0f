import AngularUplift.Text.Arguments

/-!
# Ends of statements

A statement ends just past its top-level `;`, before a delimiter that closes more than it opened, or before
the first top-level line break after some content.
-/

namespace AngularUplift.Text

/-- The length of the statement that a text begins with, given where the scan of it stands and whether it has
any content so far. A delimiter or quotation mark is content, white space is not. -/
def statementLength (n : Nesting) (content : Bool) : Text → Nat
  | [] => 0
  | c :: cs =>
    if n.quote.isSome then statementLength (n.step c) content cs + 1
    else if isQuote c || isOpening c then statementLength (n.step c) true cs + 1
    else if isClosing c then
      if n.depth == 0 then 0 else statementLength (n.step c) content cs + 1
    else if c == ';' && n.depth == 0 then 1
    else if c == '\n' && n.depth == 0 && content then 0
    else statementLength n (content || !isBlank c) cs + 1

/-- The position just past the statement that starts at `position`. A statement that starts beyond the text
ends with it. -/
def statementEnd (text : Text) (position : Nat) : Nat :=
  if text.length ≤ position then text.length
  else position + statementLength {} false (text.drop position)

end AngularUplift.Text
