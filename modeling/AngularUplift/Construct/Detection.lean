import AngularUplift.Construct.Directive
import AngularUplift.Registration.Call

/-!
# Detecting the kind of a source

The kind of a source file is told from its registrations. A file may carry the marks of several kinds; the first
in a fixed order counts.
-/

namespace AngularUplift

/-- The head of a registration chain: `angular.module(...)`. -/
def moduleHead : Pattern Unit where
  left := anywhere
  read := do
    Reader.exactly (txt "angular")
    let _ ← Reader.blanks
    Reader.exactly (txt ".module")
    let _ ← Reader.blanks
    Reader.exactly ['(']
    let _ ← Reader.run (· != ')')
    Reader.exactly [')']

/-- Whether a text registers something under a keyword after the head of a registration chain. No later head
ends before the first one, so only the first one has to be tried. -/
def registersIn (keyword text : Text) : Bool :=
  match moduleHead.find? text with
  | none => false
  | some head => (Registration.signature keyword).occursIn (text.drop head.stop)

/-- The call that begins a unit-test suite. -/
def suiteCall : Pattern Unit where
  left := freeName
  read := do
    Reader.exactly (txt "describe")
    let _ ← Reader.blanks
    Reader.exactly ['(']

namespace ConstructKind

/-- Whether a text bears the mark of a kind. A directive is taken by the way it may be used. -/
def marks (text : Text) : ConstructKind → Bool
  | .component => registersIn (txt "component") text
  | .controller => registersIn (txt "controller") text
  | .directive => registersIn (txt "directive") text && (restrictLetters text).elem 'E'
  | .attributeDirective =>
    registersIn (txt "directive") text && AttributeDirective.isAttributeOnly (restrictLetters text)
  | .service => registersIn (txt "service") text
  | .filter => registersIn (txt "filter") text
  | .constant => registersIn (txt "constant") text
  | .spec => suiteCall.occursIn text

/-- The kinds in the order in which their marks are looked for. -/
def detectionOrder : List ConstructKind :=
  [.spec, .component, .attributeDirective, .directive, .service, .filter, .constant, .controller]

/-- The kind of a source. -/
def detect? (text : Text) : Option ConstructKind := detectionOrder.find? (marks text)

end ConstructKind

end AngularUplift
