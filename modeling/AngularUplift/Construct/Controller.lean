import AngularUplift.Registration.Factory

/-!
# Controllers and services

A controller and a service are registered alike: by a name and a factory, whose parameters are the injected
tokens and whose body sets up the members.
-/

namespace AngularUplift

/-- A construct that is registered by a name and a factory. -/
structure Registered where
  /-- The name it is registered under. -/
  name : Text := []
  /-- The body of its factory. -/
  body : Text := []
  /-- The tokens that are injected into it. -/
  inject : List Text := []
deriving DecidableEq, Repr

/-- The construct that the first call of a keyword registers. Without a name there is none; without a factory
that can be found it has only a name. -/
def Registered.analyze (keyword text : Text) : Except Fault Registered :=
  match Registration.name text keyword with
  | [] => .ok {}
  | name => do
    match ← Factory.registered text keyword with
    | none => return { name }
    | some factory => return { name, body := factory.body, inject := factory.params }

/-- A controller. -/
abbrev Controller := Registered

/-- A service. -/
abbrev Service := Registered

/-- Whether a text registers a controller. -/
def Controller.isRegistered (text : Text) : Bool := (Registration.signature (txt "controller")).occursIn text

/-- The controller that a text registers. -/
def Controller.analyze (text : Text) : Except Fault Controller := Registered.analyze (txt "controller") text

/-- Whether a text registers a service. -/
def Service.isRegistered (text : Text) : Bool := (Registration.signature (txt "service")).occursIn text

/-- The service that a text registers. -/
def Service.analyze (text : Text) : Except Fault Service := Registered.analyze (txt "service") text

end AngularUplift
