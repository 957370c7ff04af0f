import AngularUplift.Harvest.Basic

/-!
# Directives

A directive that is used as an element becomes a component; one that is used as an attribute stays a directive,
with the members that its link callback sets up.

## Main definitions

* `restrictLetters`: how a directive may be used.
* `Directive`, `Directive.analyze`: the metadata of a registration.
* `AttributeDirective`, `AttributeDirective.analyze`: the members of an attribute directive.
-/

namespace AngularUplift

/-- The metadata of a directive registration. -/
structure Directive where
  /-- The name it is registered under. -/
  name : Text := []
  /-- Where its template is. -/
  templateUrl : Text := []
  /-- The name of its controller. -/
  controller : Text := []
  /-- Its scope, as an object literal without white space. -/
  scope : Text := []
  /-- Its link callback, verbatim. -/
  link : Text := []
deriving DecidableEq, Repr

/-- `restrict:` and quoted letters; the value is the letters. -/
def restrictEntry : Pattern Text where
  left := wordEdge
  read := do
    Reader.exactly (txt "restrict")
    let _ ← Reader.blanks
    Reader.exactly [':']
    let _ ← Reader.blanks
    let _ ← Reader.oneOf isPlainQuote
    let letters ← Reader.run isLatin
    let _ ← Reader.oneOf isPlainQuote
    return letters

/-- The letters for the ways a directive may be used: `E` as an element, `A` as an attribute. Both are allowed
when nothing is said. -/
def restrictLetters (text : Text) : Text :=
  match restrictEntry.find? text with
  | some found => found.value
  | none => txt "EA"

/-- An identifier in ASCII letters at its beginning. -/
def Reader.identifier : Reader Text := do
  let first ← Reader.oneOf isNameStart
  let rest ← Reader.run isName
  return first :: rest

/-- The word `function`, whole. -/
def Reader.functionWord : Reader Unit := do
  Reader.exactly (txt "function")
  Reader.endOfWord

namespace Directive

/-- `controller:` with a quoted name or an identifier other than `function`; the value is the name. -/
def controllerEntry : Pattern Text where
  left := wordEdge
  read := do
    Reader.exactly (txt "controller")
    let _ ← Reader.blanks
    Reader.exactly [':']
    let _ ← Reader.blanks
    Reader.firstOf [Reader.quoted, fun text =>
      match Reader.functionWord text with
      | some _ => none
      | none => Reader.identifier text]

/-- `link:` with the word `function` or an identifier; the value is the identifier. -/
def linkEntry : Pattern (Option Text) where
  left := wordEdge
  read := do
    Reader.exactly (txt "link")
    let _ ← Reader.blanks
    Reader.exactly [':']
    let _ ← Reader.blanks
    Reader.firstOf [(fun _ => none) <$> Reader.functionWord, some <$> Reader.identifier]

/-- The link callback, written in place or declared under the name that is given. -/
def linkFactory (text : Text) : Except Fault (Option Factory) :=
  match linkEntry.find? text with
  | none => .ok none
  | some found =>
    match found.value with
    | none => Factory.parseAt text (found.stop - (txt "function").length : Nat)
    | some name => Factory.declared text name

/-- The text of the link callback, or nothing when there is none or it is not balanced. -/
def linkText (text : Text) : Logged Text :=
  match linkFactory text with
  | .ok none => return []
  | .ok (some factory) => return Text.trim (text.slice factory.start.toNat (factory.stop + 1))
  | .error fault => do
    Logged.tell [.debug (txt "analyzers.directive") (txt "Unbalanced link callback: " ++ fault.message)]
    return []

/-- Whether a text registers a directive. -/
def isRegistered (text : Text) : Bool := (Registration.signature (txt "directive")).occursIn text

/-- The directive that a text registers; without a name there is none. -/
def analyze (text : Text) : Logged Directive :=
  match Registration.name text (txt "directive") with
  | [] => return {}
  | name => do
    let scope ← Logged.ofExcept (Registration.objectProperty text (txt "scope"))
    return {
      name
      templateUrl := Registration.quotedProperty text (txt "templateUrl")
      controller := ((controllerEntry.find? text).map (·.value)).getD []
      scope := Registration.compactBlock scope
      link := ← linkText text }

/-- The link callback as a function, when the directive has one. -/
def linkFunction (d : Directive) : Except Fault (Option Factory) :=
  if d.link.isEmpty then .ok none else Factory.parseAt d.link 0

end Directive

/-- A directive used as an attribute, with its members. -/
structure AttributeDirective extends Directive where
  /-- The members that its link callback sets up. -/
  properties : List Variable := []
  /-- What is injected into it. -/
  injects : List Variable := []
  /-- The functions that its link callback sets up. -/
  functions : List Function := []
deriving Repr

namespace AttributeDirective

/-- Whether letters allow the use as an attribute and not as an element. -/
def isAttributeOnly (letters : Text) : Bool := letters.elem 'A' && !letters.elem 'E'

/-- Whether a text registers a directive that is used as an attribute only. -/
def isRegistered (text : Text) : Bool :=
  Directive.isRegistered text && isAttributeOnly (restrictLetters text)

/-- The function that holds what could not be placed. -/
def unmigratedName : Text := txt "unmigrated"

/-- The functions of a link callback. Without any, its whole body is kept as one function; otherwise what could
not be placed is kept as one more. -/
def linkFunctions (link : Factory) (harvest : Harvest) : List Function :=
  let parameters := link.params.map Variable.named
  if harvest.functions.isEmpty then
    [{ name := unmigratedName, parameters, body := Text.trimRight (Text.trimBreaks link.body) }]
  else if harvest.todo.isEmpty then harvest.functions
  else harvest.functions ++ [{ name := unmigratedName, parameters, body := harvest.todo }]

/-- The attribute directive that a text registers; without a name there is none. -/
def analyze (text : Text) : Logged AttributeDirective := do
  let directive ← Directive.analyze text
  if directive.name.isEmpty then return {}
  let factory ← Logged.ofExcept (Factory.registered text (txt "directive"))
  let injects := ((factory.map (·.params)).getD []).map Variable.named
  match ← Logged.ofExcept directive.linkFunction with
  | none => return { toDirective := directive, injects }
  | some link =>
    let (harvest, records) := Harvester.harvest ⟨[txt "scope", txt "ctrl", txt "this"], true⟩ link.body
    Logged.tell records
    return {
      toDirective := directive
      injects
      properties := harvest.properties
      functions := linkFunctions link harvest }

end AttributeDirective

end AngularUplift
