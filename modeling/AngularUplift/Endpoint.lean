import AngularUplift.Construct.Record
import AngularUplift.Endpoint.Address
import AngularUplift.Migration.Batch
import AngularUplift.Text.Case

/-!
# The migration service

A service that migrates one source per request. Every request starts from an empty journal and default settings,
so no request depends on an earlier one.

## Main definitions

* `Endpoint.Route`: the paths of the service and the methods they answer to.
* `Endpoint.Payload`: what a request for a migration carries.
* `Endpoint.respond`: the answer to a request, unless its address leads nowhere.
-/

namespace AngularUplift.Endpoint

/-- An answer: a status code and a body. -/
structure Response where
  /-- The status code. -/
  status : Nat
  /-- The body. -/
  body : Literal
deriving Repr

/-- An answer that explains itself. -/
def explained (status : Nat) (detail : Text) : Response := ⟨status, .ofFields [("detail", .text detail)]⟩

/-- What the service can be asked for. -/
inductive Route where
  /-- Tells that the service runs. -/
  | health
  /-- Migrates a source. -/
  | migrate
deriving DecidableEq, Repr

/-- The method that a route answers to. -/
def Route.method : Route → Text
  | .health => txt "GET"
  | .migrate => txt "POST"

/-- The path of a route. -/
def Route.path : Route → Text
  | .health => txt "/health"
  | .migrate => txt "/migrate"

/-- The route of a path. Slashes at the end do not matter, nor does one line break before them. -/
def Route.ofPath? (path : Text) : Option Route :=
  let plain := Text.dropRightWhile (· == '/') path
  [Route.health, .migrate].find? fun route => plain == route.path || plain == route.path ++ ['\n']

/-- What a request for a migration carries. -/
structure Payload where
  /-- The kind of the source. -/
  kind : ConstructKind
  /-- The source. -/
  source : Text
  /-- The key for generated files. -/
  key : Text
  /-- The companions of the source. -/
  companions : List (CompanionRole × Text)
deriving DecidableEq, Repr

/-- A field that is a text; without the field, the default if there is one. -/
def textField? (body : Literal) (key : String) (default : Option Text) : Option Text :=
  match body.field? (txt key) with
  | none => default
  | some (.string value) => some (CodePoint.toText value)
  | some _ => none

/-- Companions by role; roles that are not known do not matter. -/
def companionsOf (fields : List (Text × Text)) : List (CompanionRole × Text) :=
  fields.filterMap fun (role, text) => (CompanionRole.ofLabel? role).map (·, text)

/-- The fields of a record of texts. -/
def textFields? (fields : List (List CodePoint × Literal)) : Option (List (Text × Text)) :=
  fields.mapM fun (key, value) =>
    match value with
    | .string t => some (CodePoint.toText key, CodePoint.toText t)
    | _ => none

/-- The payload that a body holds, if it is complete and of the right types. Other fields do not matter. -/
def Payload.ofBody? (body : Literal) : Option Payload := do
  let word ← textField? body "kind" none
  let kind ← ConstructKind.ofLabel? word
  let source ← textField? body "source" none
  let key ← textField? body "key" (some [])
  let companions ← match body.field? (txt "companions") with
    | none => some []
    | some (.record fields) => textFields? fields
    | some _ => none
  return ⟨kind, source, key, companionsOf companions⟩

/-- The record of an artifact. -/
def artifactRecord (artifact : Artifact) : Literal :=
  .ofFields [("path", .text artifact.path), ("content", .text artifact.content)]

/-- The status code for a fault: what cannot be migrated is a bad request, what cannot be read is not to be
processed. -/
def statusOf (fault : Fault) : Nat :=
  match fault with
  | .noRegistration .. | .notMigratable _ => 400
  | _ => 422

/-- Migrates the source of a payload. -/
def migrate (payload : Payload) : Response :=
  let work := migrateText { root := {} } payload.kind payload.source payload.key payload.companions
  let (outcome, journal) := work.runFrom {}
  match outcome with
  | .error fault => explained (statusOf fault) fault.message
  | .ok artifacts =>
    ⟨200, .ofFields [("artifacts", .list (artifacts.map artifactRecord)),
      ("report", .text journal.report.markdown)]⟩

/-- The answer to a request for a path. The case of the method does not matter. -/
def respondAt (method path : Text) (body : Option Literal) : Response :=
  match Route.ofPath? path with
  | none => explained 404 (txt "Not Found")
  | some route =>
    if Text.toUpper method ≠ route.method then explained 405 (txt "Method Not Allowed")
    else
      match route with
      | .health => ⟨200, .ofFields [("status", .text (txt "ok"))]⟩
      | .migrate =>
        match body.bind Payload.ofBody? with
        | none => explained 422 (txt "<VALIDATION>")
        | some payload => migrate payload

/-- The answer to a request. -/
def respond (method address : Text) (body : Option Literal) : Except AddressFault Response := do
  return respondAt method (← locate address) body

end AngularUplift.Endpoint
