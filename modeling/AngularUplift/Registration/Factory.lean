import AngularUplift.Registration.Call

/-!
# Factory callbacks

The second argument of a registration call is a factory: a function written in place, the last item of an
injection array, or the name of a function declared elsewhere in the file.

## Main definitions

* `Factory`: the parameters and the body of a callback, and where it stands.
* `Factory.parseAt`: the function written at a position.
* `Factory.ofCall`, `Factory.registered`: the factory of a call, and of the first call of a keyword.
-/

namespace AngularUplift

/-- A callback: its parameters, its body and its place in the text. -/
structure Factory where
  /-- The names of its parameters. -/
  params : List Text
  /-- The text between its braces. -/
  body : Text
  /-- The position at which it was looked for; a negative one stands for the beginning of the text. -/
  start : Int
  /-- The position of its closing brace. -/
  stop : Nat
deriving DecidableEq, Repr

namespace Factory

/-- A function with or without a name, at the edge of a word, up to the parenthesis of its parameters. -/
def head : Pattern Unit where
  left := wordEdge
  read := Reader.functionHead

/-- The names in a parameter list. -/
def parameterNames (text : Text) : List Text :=
  ((text.fields ',').map Text.trim).filter (!·.isEmpty)

/-- The function `function (...) {...}` that is written at a position. -/
def parseAt (text : Text) (start : Int) : Except Fault (Option Factory) :=
  match head.foundAt? text start.toNat with
  | none => .ok none
  | some found => do
    let paramsOpen := found.stop - 1
    let paramsClose ← Delimiter.paren.close text paramsOpen
    match text.indexFrom? ['{'] paramsClose with
    | none => return none
    | some brace => do
      let stop ← Delimiter.brace.close text brace
      return some
        { params := parameterNames (text.slice (paramsOpen + 1) paramsClose)
          body := text.slice (brace + 1) stop
          start, stop }

/-- The declaration `function name(` or `name = function` of a named function. -/
def declaration (name : Text) : Pattern Unit where
  left := wordEdge
  read := Reader.firstOf [
    do
      Reader.exactly (txt "function")
      let _ ← Reader.blanks1
      Reader.exactly name
      let _ ← Reader.blanks
      Reader.exactly ['('],
    do
      Reader.exactly name
      let _ ← Reader.blanks
      Reader.exactly ['=']
      let _ ← Reader.blanks
      Reader.exactly (txt "function")
      Reader.endOfWord]

/-- The function declared under a name anywhere in the text. -/
def declared (text name : Text) : Except Fault (Option Factory) :=
  match (declaration name).find? text with
  | none => .ok none
  | some found =>
    match text.indexFrom? (txt "function") found.start with
    | none => .ok none
    | some start => parseAt text start

/-- Whether a text is an identifier in ASCII letters at its beginning. -/
def isIdentifier : Text → Bool
  | [] => false
  | c :: cs => isNameStart c && cs.all isName

/-- The second argument of a call; of an injection array, its last item. -/
def target? (arguments : List Text) : Option Text :=
  match arguments with
  | _ :: target :: _ =>
    if target.startsWith ['['] && target.endsWith [']'] then
      some ((Text.splitArguments (target.drop 1).dropLast).getLast?.getD [])
    else some target
  | _ => none

/-- The factory of the call whose parentheses stand at two positions. -/
def ofCall (text : Text) (start stop : Nat) : Except Fault (Option Factory) :=
  match target? (Text.splitArguments (text.slice (start + 1) stop)) with
  | none => .ok none
  | some target =>
    if isIdentifier target then declared text target
    else
      match head.findFrom start [] 0 (text.take stop) with
      | none => .ok none
      | some found => parseAt text found.start

/-- The factory of the first call `keyword('name', factory)`. -/
def registered (text keyword : Text) : Except Fault (Option Factory) := do
  match ← Registration.call text keyword with
  | none => return none
  | some (start, stop) => ofCall text start stop

end Factory

end AngularUplift
