import AngularUplift.Construct.Component
import AngularUplift.Construct.Constant
import AngularUplift.Construct.Directive
import AngularUplift.Construct.Filter
import AngularUplift.Construct.Service
import AngularUplift.Suite.Reader
import AngularUplift.Text.Case

/-!
# Analysis by kind

One analysis for every kind of construct, and the model that it finds.
-/

namespace AngularUplift

/-- What the analysis of a text finds. -/
inductive Model where
  /-- A component registration. -/
  | component (model : LegacyComponent)
  /-- A controller. -/
  | controller (model : Controller)
  /-- A directive. -/
  | directive (model : Directive)
  /-- An attribute directive. -/
  | attributeDirective (model : AttributeDirective)
  /-- A service. -/
  | service (model : Service)
  /-- The filters of a file. -/
  | filters (models : List Filter)
  /-- The constants of a file. -/
  | constants (models : List Variable)
  /-- The suite of a file, if it has one. -/
  | suite (model : Option TestNode)

namespace ConstructKind

/-- Whether a text carries a registration of the kind. -/
def supports : ConstructKind → Text → Bool
  | .component => LegacyComponent.isRegistered
  | .controller => Controller.isRegistered
  | .directive => Directive.isRegistered
  | .attributeDirective => AttributeDirective.isRegistered
  | .service => Service.isRegistered
  | .filter => Filter.isRegistered
  | .constant => Constant.isRegistered
  | .spec => Suite.isPresent

/-- The model of a text that is taken for a construct of the kind. -/
def analyze (kind : ConstructKind) (text : Text) : Logged Model :=
  match kind with
  | .component => return .component (← Logged.ofExcept (LegacyComponent.analyze text))
  | .controller => return .controller (← Logged.ofExcept (Controller.analyze text))
  | .directive => return .directive (← Directive.analyze text)
  | .attributeDirective => return .attributeDirective (← AttributeDirective.analyze text)
  | .service => return .service (← Logged.ofExcept (Service.analyze text))
  | .filter => return .filters (← Filter.analyze text)
  | .constant => return .constants (← Logged.ofExcept (Constant.analyze text))
  | .spec => return .suite (← Suite.analyze text)

/-- The names without repetition and in the order of their code points. -/
def sortedNames (names : List Text) : List Text :=
  (names.eraseDups).mergeSort Text.atMost

/-- The kinds with the given names, in the order in which kinds are offered; upper and lower case do not matter.
Unknown names are refused together. -/
def select (names : List Text) : Except Fault (List ConstructKind) :=
  let wanted := names.map Text.toLower
  let unknown := wanted.filter fun name => (ofLabel? name).isNone
  if unknown.isEmpty then .ok (all.filter fun kind => wanted.elem kind.label)
  else .error (.unknownAnalyses (sortedNames unknown))

/-- The kind with the given name. -/
def selectOne (name : Text) : Except Fault ConstructKind := do
  match ← select [name] with
  | kind :: _ => return kind
  | [] => .error (.unknownAnalyses [Text.toLower name])

end ConstructKind

end AngularUplift
