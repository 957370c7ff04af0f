import AngularUplift.Fault

/-!
# Balanced delimiters

An opening delimiter is closed by the first position at which as many closing as opening delimiters of its
kind have been seen. Only that kind is counted: quotation marks, comments and the other kinds are plain
characters here.

## Main definitions

* `Delimiter`: the three kinds of delimiter.
* `Delimiter.closeFrom`: the scan for the close, with a depth.
* `Delimiter.close`: the position of the close of the delimiter at a position, or a fault.
* `Delimiter.enclosed`, `Delimiter.next`: what stands between, and the next pair in a text.
-/

namespace AngularUplift

/-- A kind of paired delimiter. -/
inductive Delimiter where
  /-- Braces. -/
  | brace
  /-- Parentheses. -/
  | paren
  /-- Square brackets. -/
  | bracket
deriving DecidableEq, Repr

namespace Delimiter

/-- The opening character. -/
def opening : Delimiter → Char
  | brace => '{'
  | paren => '('
  | bracket => '['

/-- The closing character. -/
def closing : Delimiter → Char
  | brace => '}'
  | paren => ')'
  | bracket => ']'

/-- The delimiter that a text consisting of its opening character stands for. -/
def ofOpening? (opening : Text) : Except Fault Delimiter :=
  match opening with
  | ['{'] => .ok brace
  | ['('] => .ok paren
  | ['['] => .ok bracket
  | _ => .error (.unsupportedDelimiter opening)

/-- The number of characters before the one that brings the depth back to zero. -/
def closeFrom (d : Delimiter) : (depth : Nat) → Text → Option Nat
  | _, [] => none
  | depth, c :: cs =>
    if c = d.opening then (closeFrom d (depth + 1) cs).map (· + 1)
    else if c = d.closing then
      if depth ≤ 1 then some 0 else (closeFrom d (depth - 1) cs).map (· + 1)
    else (closeFrom d depth cs).map (· + 1)

/-- The position of the close of the delimiter that opens at `start`. -/
def close (d : Delimiter) (text : Text) (start : Int) : Except Fault Nat :=
  if 0 ≤ start ∧ text[start.toNat]? = some d.opening then
    match closeFrom d 1 (text.drop (start.toNat + 1)) with
    | some n => .ok (start.toNat + 1 + n)
    | none => .error (.unbalanced d.opening start)
  else .error (.unbalanced d.opening start)

/-- The text strictly between the delimiter at `start` and its close. -/
def enclosed (d : Delimiter) (text : Text) (start : Int) : Except Fault Text := do
  let stop ← d.close text start
  return text.slice (start.toNat + 1) stop

/-- The position of the close of the first delimiter of this kind at or after `position`. Where there is
none, the fault names position -1. -/
def closeOfNext (d : Delimiter) (text : Text) (position : Nat) : Except Fault (Nat × Nat) :=
  match text.indexFrom? [d.opening] position with
  | none => .error (.unbalanced d.opening (-1))
  | some start => do
    let stop ← d.close text start
    return (start, stop)

/-- The next pair whose opening text stands at or after `position`, where a negative position counts from
the end. Without a further opening text there is no pair. -/
def next (opening text : Text) (position : Int) : Except Fault (Option (Nat × Nat)) :=
  let least := if position < 0 then (position + text.length).toNat else position.toNat
  match text.indexFrom? opening least with
  | none => .ok none
  | some start => do
    let d ← ofOpening? opening
    let stop ← d.close text start
    return some (start, stop)

end Delimiter

/-- One of the three opening delimiters. -/
def isOpening (c : Char) : Bool := c == '{' || c == '(' || c == '['

/-- One of the three closing delimiters. -/
def isClosing (c : Char) : Bool := c == '}' || c == ')' || c == ']'

end AngularUplift
