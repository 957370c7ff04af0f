import AngularUplift.Text.Basic

/-!
# Kinds of construct

The kinds of AngularJS construct that a source file can hold. Each kind is known by one word in requests,
reports and settings.
-/

namespace AngularUplift

/-- A kind of construct. -/
inductive ConstructKind where
  /-- A component registration. -/
  | component
  /-- A controller registration. -/
  | controller
  /-- A directive used as an element. -/
  | directive
  /-- A directive used as an attribute. -/
  | attributeDirective
  /-- A service registration. -/
  | service
  /-- Filter registrations. -/
  | filter
  /-- Constant registrations. -/
  | constant
  /-- A unit-test suite. -/
  | spec
deriving DecidableEq, Repr, BEq

namespace ConstructKind

/-- Every kind, in the order in which they are offered. -/
def all : List ConstructKind :=
  [.component, .controller, .directive, .attributeDirective, .service, .filter, .constant, .spec]

/-- The word for a kind. -/
def label : ConstructKind → Text
  | .component => txt "component"
  | .controller => txt "controller"
  | .directive => txt "directive"
  | .attributeDirective => txt "attribute_directive"
  | .service => txt "service"
  | .filter => txt "filter"
  | .constant => txt "constant"
  | .spec => txt "spec"

/-- The kind that a word stands for. -/
def ofLabel? (word : Text) : Option ConstructKind := all.find? (·.label == word)

/-- The kinds that can be migrated, in the order in which a batch takes them: constants and filters come
first, so that later constructs can refer to what became of them. -/
def migrationOrder : List ConstructKind :=
  [.constant, .filter, .service, .directive, .attributeDirective, .component, .controller]

end ConstructKind

end AngularUplift
