import AngularUplift.Log
import AngularUplift.Member
import AngularUplift.Registration.Factory

/-!
# Filters

A file may register several filters. The factory of a filter returns the function that transforms a value; that
function's parameters and body are the filter's.
-/

namespace AngularUplift

/-- A filter. -/
structure Filter where
  /-- The name it is registered under. -/
  name : Text := []
  /-- The parameters of its transform function. -/
  params : List Variable := []
  /-- The body of its transform function. -/
  body : Text := []
  /-- What is injected into it. -/
  injections : List Variable := []
deriving Repr

namespace Filter

/-- `return` and the word `function`. -/
def returnedFunction : Pattern Unit where
  left := wordEdge
  read := do
    Reader.exactly (txt "return")
    let _ ← Reader.blanks1
    Reader.exactly (txt "function")
    Reader.endOfWord

/-- The area of the program that filters report under. -/
def area : Text := txt "analyzers.filters"

/-- The transform function that a factory returns, if it returns one that is balanced. -/
def transform? (name : Text) (factory : Factory) : Logged (Option Factory) :=
  match returnedFunction.find? factory.body with
  | none => do
    Logged.tell [.debug area (txt "Filter " ++ name ++ txt " returns no transform function")]
    return none
  | some found =>
    match Factory.parseAt factory.body (found.stop - (txt "function").length : Nat) with
    | .ok transform => return transform
    | .error fault => do
      Logged.tell [.debug area
        (txt "Unbalanced transform function in filter " ++ name ++ txt ": " ++ fault.message)]
      return none

/-- The filter of the call whose parentheses stand at two positions. -/
def ofCall (name text : Text) (start stop : Nat) : Logged Filter := do
  match ← Logged.ofExcept (Factory.ofCall text start stop) with
  | none => return { name }
  | some factory =>
    let injections := factory.params.map Variable.named
    match ← transform? name factory with
    | none => return { name, injections }
    | some transform =>
      return {
        name
        params := transform.params.map Variable.named
        body := Text.trim transform.body
        injections }

/-- The pattern of a filter registration. -/
def signature : Pattern Unit := Registration.signature (txt "filter")

/-- Whether a text registers a filter. -/
def isRegistered (text : Text) : Bool := signature.occursIn text

/-- The filters of the calls that occur in a text, passing over those inside the last one. -/
def ofOccurrences (text : Text) (least : Nat) : List (Occurrence Unit) → Logged (List Filter)
  | [] => return []
  | found :: rest =>
    if found.start < least then ofOccurrences text least rest
    else do
      let start := Registration.parenAfter text found.start
      let stop ← Logged.ofExcept (Delimiter.paren.close text start)
      let name := Text.unquote ((Text.splitArguments (text.slice (start + 1) stop)).headD [])
      if name.isEmpty then ofOccurrences text stop rest
      else do
        let filter ← ofCall name text start stop
        return filter :: (← ofOccurrences text stop rest)

/-- The filters that a text registers, in order. -/
def analyze (text : Text) : Logged (List Filter) := ofOccurrences text 0 (signature.occurrences text)

end Filter

end AngularUplift
