import AngularUplift.Construct.Controller
import AngularUplift.Harvest.Basic
import AngularUplift.Receiver
import AngularUplift.Text.Identifier

/-!
# Components

A legacy component is a metadata object; its members live in a controller. The component it becomes has the
bindings as inputs, typed from the first literal they are set to, and the members that are harvested from the
controller.

## Main definitions

* `LegacyComponent`, `LegacyComponent.analyze`: the metadata of a registration.
* `Component`, `Component.ofLegacy`: the component it becomes, from its metadata and its controller.
-/

namespace AngularUplift

/-- The metadata of a component registration. -/
structure LegacyComponent where
  /-- The name it is registered under. -/
  name : Text := []
  /-- Where its template is. -/
  templateUrl : Text := []
  /-- The name of its controller. -/
  controller : Text := []
  /-- Its bindings, as an object literal without white space. -/
  bindings : Text := []
deriving DecidableEq, Repr

namespace LegacyComponent

/-- Whether a text registers a component. -/
def isRegistered (text : Text) : Bool := (Registration.signature (txt "component")).occursIn text

/-- The component that a text registers; without a name there is none. -/
def analyze (text : Text) : Except Fault LegacyComponent :=
  match Registration.name text (txt "component") with
  | [] => .ok {}
  | name => do
    return {
      name
      templateUrl := Registration.quotedProperty text (txt "templateUrl")
      controller := Registration.quotedProperty text (txt "controller")
      bindings := Registration.compactBlock (← Registration.objectProperty text (txt "bindings")) }

end LegacyComponent

/-- A component ready to be generated. -/
structure Component where
  /-- The name of the legacy component. -/
  name : Text := []
  /-- The element it is used as. -/
  selector : Text := []
  /-- Where its template is. -/
  templateUrl : Text := []
  /-- Where its styles are. -/
  styleUrl : Text := []
  /-- What it is given from outside. -/
  inputs : List Variable := []
  /-- Its other members. -/
  properties : List Variable := []
  /-- Its functions. -/
  functions : List Function := []
  /-- What is injected into it. -/
  injections : List Variable := []
  /-- The comment that keeps code that could not be placed. -/
  todo : Text := []
deriving Repr

/-- The last part of a path. -/
def baseName (path : Text) : Text := (path.reverse.takeWhile (· != '/')).reverse

/-- The name of a template without its folder and its extensions: `user` for `app/user/user.template.html`. -/
def templateKey (templateUrl : Text) : Text := (baseName templateUrl).takeWhile (· != '.')

namespace Component

/-- The right-hand side of an assignment up to a semicolon or the end of its line. Where only white space comes
before the semicolon or the end of the text, the last white space that is no line break stands for it. -/
def rightHandSide : Reader Text := fun text =>
  let rest := text.dropWhile isBlank
  match rest with
  | c :: _ =>
    if c == ';' then lastBlank text else some (rest.span fun c => c != ';' && c != '\n')
  | [] => lastBlank text
where
  lastBlank (text : Text) : Option (Text × Text) :=
    (((text.takeWhile isBlank).filter (· != '\n')).getLast?).map fun c => ([c], text.dropWhile isBlank)

/-- An assignment to a binding; the value is its right-hand side. -/
def bindingAssignment (name : Text) : Pattern Text where
  left := freeName
  read := do
    Reader.anyOf [txt "ctrl.", txt "this.", txt "$scope."]
    Reader.exactly name
    let _ ← Reader.blanks
    Reader.exactly ['=']
    Reader.notNext (· == '=')
    rightHandSide

/-- The input for a binding, typed by the first assignment to it in a body. -/
def input (body name : Text) : Variable :=
  match (bindingAssignment name).find? body with
  | none => .named name
  | some found =>
    let (kind, value) := classify found.value
    { name, typeName := kind.typeName, value, expression := Text.trim found.value }

/-- The controller's body with its own name for itself, if it has one, exchanged for `ctrl`. -/
def normaliseBody (body : Text) : Text :=
  match receiverAlias body with
  | none => body
  | some name =>
    if name = txt "ctrl" ∨ name = txt "this" then body else (Renaming.into (txt "ctrl") [name]).apply body

/-- The first of the texts that is not empty. -/
def firstNonEmpty : List Text → Text
  | [] => []
  | [] :: rest => firstNonEmpty rest
  | text :: _ => text

/-- The component that a legacy component and its controller become. Its files are named by `key`, or else by
the template, or else by the component. -/
def ofLegacy (legacy : LegacyComponent) (controller : Controller) (key : Text) : Logged Component := do
  let body := normaliseBody controller.body
  let inputs := (Registration.blockKeys legacy.bindings).map (input body)
  let (harvest, records) := Harvester.harvest {} body
  Logged.tell records
  let key := firstNonEmpty [key, templateKey legacy.templateUrl, Text.camelToDash legacy.name]
  return {
    name := legacy.name
    selector := Text.camelToDash legacy.name
    templateUrl := txt "./" ++ key ++ txt ".template.html"
    styleUrl := txt "./" ++ key ++ txt ".scss"
    inputs
    properties := harvest.properties.filter fun p => !(inputs.any (·.name == p.name))
    functions := harvest.functions
    injections := ← Logged.ofExcept (Variable.ofNames controller.inject)
    todo := harvest.todo }

end Component

end AngularUplift
