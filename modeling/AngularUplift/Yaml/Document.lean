import AngularUplift.Yaml.Lexer
import AngularUplift.Yaml.Node

/-!
# Documents of YAML

The tokens of a text make at most one document, which is a tree of nodes. A node with an anchor can be referred to
after it; there are no references from inside it.

## Main definitions

* `Yaml.Composition`: the tokens that are left, with the anchors and the handles that are known.
* `Yaml.Composition.node`: the node that comes next.
* `Yaml.document`: the root of the document, if there is one.
-/

namespace AngularUplift.Yaml

/-- The state of reading nodes. -/
structure Composition where
  /-- The tokens that are left. -/
  rest : List Token
  /-- The nodes with anchors, without a node while it is being read. -/
  anchors : List (Text × Option Node) := []
  /-- What the handles of tags stand for. -/
  handles : List (Text × Text) := []

/-- A reader of nodes. -/
abbrev Compose (α : Type) := StateT Composition (Except Refusal) α

/-- Where a node stands. -/
inductive Surrounding where
  /-- Inside brackets or braces. -/
  | flow
  /-- In block form. -/
  | block
  /-- The key or the value of a mapping in block form, where the dashes of a list need not be indented. -/
  | entry
deriving DecidableEq, Repr

namespace Composition

/-- The next token. -/
def peek : Compose Token := do
  match (← get).rest with
  | [] => throw .malformed
  | .refused refusal :: _ => throw refusal
  | token :: _ => return token

/-- Passes over the next token. -/
def advance : Compose Unit := modify fun s => { s with rest := s.rest.drop 1 }

/-- Passes over the next token, which has to be the given one. -/
def expect (token : Token) : Compose Unit := do
  if (← peek) = token then advance else throw .malformed

/-- Whether the next token is one of the given ones. -/
def isNext (tokens : List Token) : Compose Bool := do
  return tokens.elem (← peek)

/-- Remembers the node with an anchor. -/
def remember (anchor : Option Text) (node : Option Node) : Compose Unit :=
  match anchor with
  | none => pure ()
  | some name => modify fun s => { s with anchors := (name, node) :: s.anchors }

/-- The name that a written tag stands for. -/
def tagName (written : WrittenTag) : Compose Text := do
  match written.handle with
  | none => return written.suffix
  | some handle =>
    match (← get).handles.lookup handle with
    | none => throw .malformed
    | some beginning => return beginning ++ written.suffix

/-- The anchor and the tag before a node, in either order. -/
def properties : Compose (Option Text × Option Text) := do
  match ← peek with
  | .anchor name =>
    advance
    match ← peek with
    | .tag written =>
      advance
      return (some name, some (← tagName written))
    | _ => return (some name, none)
  | .tag written =>
    advance
    match ← peek with
    | .anchor name =>
      advance
      return (some name, some (← tagName written))
    | _ => return (none, some (← tagName written))
  | _ => return (none, none)

/-- The tag of a node with a written tag: an exclamation mark alone is no tag. -/
def tagOf (name : Option Text) (default : Tag) : Tag :=
  match name with
  | none => default
  | some name => if name = ['!'] then default else .ofName name

/-- The tag of a scalar. An exclamation mark alone makes it plain. -/
def scalarTag (name : Option Text) (text : Text) (plain : Bool) : Tag :=
  tagOf name (if plain || name == some ['!'] then plainTag text else .text)

/-- A scalar that is not written. -/
def empty : Node := .scalar .null []

/-- A node that is not written, which needs an anchor or a tag. -/
def unwritten (mayBeEmpty : Bool) (name : Option Text) : Compose Node :=
  if mayBeEmpty then return .scalar (scalarTag name [] name.isNone) [] else throw .malformed

/-- Whether an anchor is already in use. -/
def isTaken (anchor : Option Text) : Compose Bool := do
  match anchor with
  | none => return false
  | some name => return ((← get).anchors.lookup name).isSome

mutual

/-- The node that comes next; `fuel` bounds the number of steps. -/
def node : (fuel : Nat) → Surrounding → Compose Node
  | 0, _ => throw .malformed
  | fuel + 1, surrounding => do
    match ← peek with
    | .reference name =>
      advance
      match (← get).anchors.lookup name with
      | some (some node) => return node
      | _ => throw .malformed
    | _ =>
      let (anchor, name) ← properties
      let next ← peek
      if ← isTaken anchor then throw .malformed
      remember anchor none
      let node ← content fuel surrounding next (anchor.isSome || name.isSome) name
      remember anchor (some node)
      return node

/-- What follows the anchor and the tag of a node, from the token `next` on. -/
def content : (fuel : Nat) → Surrounding → (next : Token) → (mayBeEmpty : Bool) → (name : Option Text) →
    Compose Node
  | 0, _, _, _, _ => throw .malformed
  | fuel + 1, surrounding, next, mayBeEmpty, name => do
    match next with
    | .scalar text plain =>
      advance
      return .scalar (scalarTag name text plain) text
    | .openBracket =>
      advance
      return .list (tagOf name .list) (← flowItems fuel true)
    | .openBrace =>
      advance
      return .mapping (tagOf name .mapping) (← flowEntries fuel true)
    | .dash =>
      if surrounding = .entry then return .list (tagOf name .list) (← bareItems fuel)
      else unwritten mayBeEmpty name
    | .blockListStart =>
      if surrounding = .flow then unwritten mayBeEmpty name
      else
        advance
        return .list (tagOf name .list) (← blockItems fuel)
    | .blockMappingStart =>
      if surrounding = .flow then unwritten mayBeEmpty name
      else
        advance
        return .mapping (tagOf name .mapping) (← blockEntries fuel)
    | _ => unwritten mayBeEmpty name

/-- The node that comes next, or an empty one where one of the given tokens comes. -/
def nodeUnless : (fuel : Nat) → Surrounding → List Token → Compose Node
  | 0, _, _ => throw .malformed
  | fuel + 1, surrounding, stops => do
    if ← isNext stops then return empty else node fuel surrounding

/-- The items of a list in block form. -/
def blockItems : (fuel : Nat) → Compose (List Node)
  | 0 => throw .malformed
  | fuel + 1 => do
    match ← peek with
    | .dash =>
      advance
      let item ← nodeUnless fuel .block [.dash, .blockStop]
      return item :: (← blockItems fuel)
    | .blockStop =>
      advance
      return []
    | _ => throw .malformed

/-- The items of a list whose dashes are not indented. -/
def bareItems : (fuel : Nat) → Compose (List Node)
  | 0 => throw .malformed
  | fuel + 1 => do
    match ← peek with
    | .dash =>
      advance
      let item ← nodeUnless fuel .block [.dash, .keyMark, .valueMark, .blockStop]
      return item :: (← bareItems fuel)
    | _ => return []

/-- The value of an entry, after its mark; without the mark it is empty. -/
def valueUnless : (fuel : Nat) → Surrounding → List Token → Compose Node
  | 0, _, _ => throw .malformed
  | fuel + 1, surrounding, stops => do
    match ← peek with
    | .valueMark =>
      advance
      nodeUnless fuel surrounding stops
    | _ => return empty

/-- The entries of a mapping in block form. -/
def blockEntries : (fuel : Nat) → Compose (List (Node × Node))
  | 0 => throw .malformed
  | fuel + 1 => do
    match ← peek with
    | .keyMark =>
      advance
      let key ← nodeUnless fuel .entry [.keyMark, .valueMark, .blockStop]
      let value ← valueUnless fuel .entry [.keyMark, .valueMark, .blockStop]
      return (key, value) :: (← blockEntries fuel)
    | .blockStop =>
      advance
      return []
    | _ => throw .malformed

/-- An entry in brackets or braces, from after the mark of its key on. -/
def flowEntry : (fuel : Nat) → (closing : Token) → Compose (Node × Node)
  | 0, _ => throw .malformed
  | fuel + 1, closing => do
    let key ← nodeUnless fuel .flow [.valueMark, .comma, closing]
    let value ← valueUnless fuel .flow [.comma, closing]
    return (key, value)

/-- The items of a list in brackets. A comma comes before every item but the first; an entry is a mapping of its
own. -/
def flowItems : (fuel : Nat) → (isFirst : Bool) → Compose (List Node)
  | 0, _ => throw .malformed
  | fuel + 1, isFirst => do
    if (← peek) = .closeBracket then
      advance
      return []
    else
      if !isFirst then expect .comma
      match ← peek with
      | .closeBracket =>
        advance
        return []
      | .keyMark =>
        advance
        let entry ← flowEntry fuel .closeBracket
        return .mapping .mapping [entry] :: (← flowItems fuel false)
      | _ =>
        let item ← node fuel .flow
        return item :: (← flowItems fuel false)

/-- The entries of a mapping in braces. A comma comes before every entry but the first; a key alone has an empty
value. -/
def flowEntries : (fuel : Nat) → (isFirst : Bool) → Compose (List (Node × Node))
  | 0, _ => throw .malformed
  | fuel + 1, isFirst => do
    if (← peek) = .closeBrace then
      advance
      return []
    else
      if !isFirst then expect .comma
      match ← peek with
      | .closeBrace =>
        advance
        return []
      | .keyMark =>
        advance
        let entry ← flowEntry fuel .closeBrace
        return entry :: (← flowEntries fuel false)
      | _ =>
        let key ← node fuel .flow
        return (key, empty) :: (← flowEntries fuel false)

end

/-! ### Documents -/

/-- The handles that need no directive. -/
def defaultHandles : List (Text × Text) := [(['!'], ['!']), (txt "!!", txt "tag:yaml.org,2002:")]

/-- The directives before a document; `fuel` bounds their number. -/
def directives : (fuel : Nat) → (hasVersion : Bool) → (handles : List (Text × Text)) →
    Compose (List (Text × Text))
  | 0, _, handles => return handles
  | fuel + 1, hasVersion, handles => do
    match ← peek with
    | .version major =>
      advance
      if hasVersion ∨ major ≠ 1 then throw .malformed
      directives fuel true handles
    | .tagHandle handle beginning =>
      advance
      if (handles.lookup handle).isSome then throw .malformed
      directives fuel hasVersion (handles ++ [(handle, beginning)])
    | .otherDirective =>
      advance
      directives fuel hasVersion handles
    | _ => return handles

/-- Whether the next token is a directive. -/
def isDirectiveNext : Compose Bool := do
  match ← peek with
  | .version _ | .tagHandle .. | .otherDirective => return true
  | _ => return false

/-- Passes over the ends of documents; `fuel` bounds their number. -/
def skipStops : (fuel : Nat) → Compose Unit
  | 0 => return ()
  | fuel + 1 => do
    if (← peek) = .documentStop then
      advance
      skipStops fuel

/-- The root of a document that is introduced by directives and a mark, or nothing at the end of the text. -/
def introduced (fuel : Nat) : Compose (Option Node) := do
  if (← peek) = .finish then return none
  let handles ← directives fuel false []
  expect .documentStart
  modify fun s => { s with handles := handles ++ defaultHandles }
  if (← isDirectiveNext) || (← isNext [.documentStart, .documentStop, .finish]) then return some empty
  return some (← node fuel .block)

/-- The root of the only document, if there is one. -/
def root (fuel : Nat) : Compose (Option Node) := do
  let first ←
    if (← isDirectiveNext) || (← isNext [.documentStart, .finish]) then introduced fuel
    else
      modify fun s => { s with handles := defaultHandles }
      some <$> node fuel .block
  skipStops fuel
  expect .finish
  return first

end Composition

/-- The root of the only document of a text, if there is one. Every token is passed over within four steps. -/
def document (text : Text) : Except Refusal (Option Node) :=
  let found := tokens text
  (Composition.root (4 * found.length + 4)).run' { rest := found }

end AngularUplift.Yaml
