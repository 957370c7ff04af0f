import AngularUplift.Construct.Controller
import AngularUplift.Harvest.Basic
import AngularUplift.Receiver

/-!
# Injectable services

A legacy service becomes an injectable class with the members that its factory sets up.
-/

namespace AngularUplift

/-- An injectable class ready to be generated. -/
structure Injectable where
  /-- The name of the legacy service. -/
  name : Text := []
  /-- Its members. -/
  properties : List Variable := []
  /-- Its functions. -/
  functions : List Function := []
  /-- What is injected into it. -/
  injections : List Variable := []
  /-- The comment that keeps code that could not be placed. -/
  todo : Text := []
deriving Repr

namespace Injectable

/-- The service's body with its own name for itself, if it has one, exchanged for `this`. -/
def normaliseBody (body : Text) : Text :=
  match receiverAlias body with
  | none => body
  | some name => if name = txt "this" then body else (Renaming.into (txt "this") [name]).apply body

/-- The injectable class that a service becomes. -/
def ofService (service : Service) : Logged Injectable := do
  let (harvest, records) := Harvester.harvest ⟨[txt "this"], true⟩ (normaliseBody service.body)
  Logged.tell records
  return {
    name := service.name
    properties := harvest.properties
    functions := harvest.functions
    injections := ← Logged.ofExcept (Variable.ofNames service.inject)
    todo := harvest.todo }

end Injectable

end AngularUplift
