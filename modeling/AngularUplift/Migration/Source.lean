import AngularUplift.Construct.Kind
import AngularUplift.Files.Path

/-!
# Sources

A source is a file of a known kind together with the texts of its companions: the files next to it that belong
to the same construct.
-/

namespace AngularUplift

/-- What a companion is to a source. -/
inductive CompanionRole where
  /-- The controller of a component or directive. -/
  | controller
  /-- The HTML template. -/
  | template
  /-- The unit tests. -/
  | spec
  /-- The unit tests of the controller. -/
  | controllerSpec
deriving DecidableEq, Repr

namespace CompanionRole

/-- Every role. -/
def all : List CompanionRole := [.controller, .template, .spec, .controllerSpec]

/-- The word for a role. -/
def label : CompanionRole → Text
  | .controller => txt "controller"
  | .template => txt "template"
  | .spec => txt "spec"
  | .controllerSpec => txt "controller_spec"

/-- The role that a word stands for. -/
def ofLabel? (word : Text) : Option CompanionRole := all.find? (·.label == word)

end CompanionRole

/-- A file of a known kind, with its companions. -/
structure Source where
  /-- Where the file is. -/
  path : Path
  /-- What it holds. -/
  text : Text
  /-- The kind of construct that it registers. -/
  kind : ConstructKind
  /-- The texts of its companions. -/
  companions : List (CompanionRole × Text) := []
  /-- The key that generated files are named by. -/
  key : Text
deriving DecidableEq, Repr

namespace Source

/-- The source at a path, with the given key or else the file's own. -/
def make (path : Path) (text : Text) (kind : ConstructKind) (companions : List (CompanionRole × Text))
    (key : Text) : Source :=
  { path, text, kind, companions, key := if key.isEmpty then fileKey path else key }

/-- The text of a companion, or nothing. -/
def companion (source : Source) (role : CompanionRole) : Text := (source.companions.lookup role).getD []

/-- The folder of a source, as text. -/
def folder (source : Source) : Text := source.path.parent.display

end Source

end AngularUplift
