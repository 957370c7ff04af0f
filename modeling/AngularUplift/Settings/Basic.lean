import AngularUplift.Fault
import AngularUplift.Files.Home

/-!
# Settings

What a migration depends on besides its sources: the name of the legacy module, where generated files go, and
one section for each kind of construct.

## Main definitions

* `OutputSettings`: what every section has; `ClassSettings`, `DirectiveSettings`, `ConstantSettings`: sections
  with options of their own.
* `OutputSettings.fileName`: the name of a generated file.
* `Settings`, `Settings.section?`: all settings, and what every section has for a kind.
-/

namespace AngularUplift

/-- Where the files of a kind are generated and how they are named. -/
structure OutputSettings where
  /-- The folder that they are generated in. -/
  generatedFolder : Text := txt "generated"
  /-- What comes between the key and the suffix of their names. -/
  generatedPrefix : Text := []
  /-- Whether generated files are also logged. -/
  output : Bool := false
  /-- Whether the rule for naming files was overridden by a text, which leaves no rule. -/
  namingOverridden : Bool := false
deriving DecidableEq, Repr

/-- The name of a generated file: its key, the configured addition and its suffix. -/
def OutputSettings.fileName (s : OutputSettings) (key suffix : Text) : Except Fault Text :=
  if s.namingOverridden then .error .fileNamingOverridden
  else .ok (key ++ s.generatedPrefix ++ ['.'] ++ suffix)

/-- The section of a kind that becomes a class. -/
structure ClassSettings extends OutputSettings where
  /-- Whether injected tokens become constructor parameters. -/
  insertInjections : Bool := true
  /-- Whether classes are registered for use from legacy code. -/
  downgrade : Bool := false
deriving DecidableEq, Repr

/-- The section of directives that become legacy components. -/
structure DirectiveSettings extends OutputSettings where
  /-- Whether lines that may use a removed injection get a warning. -/
  generateUndeclaredWarning : Bool := true
  /-- Whether removed injections are read through the controller. -/
  updateRemovedInjectedBindings : Bool := false
  /-- Whether a wrapper for new code is generated. -/
  upgrade : Bool := false
deriving DecidableEq, Repr

/-- The section of constants. -/
structure ConstantSettings extends OutputSettings where
  /-- The file that gathers all constants. -/
  generatedFile : Text := txt "constants.ts"
deriving DecidableEq, Repr

/-- All settings. -/
structure Settings where
  /-- The folder that the settings are for. -/
  root : Path
  /-- The legacy module. -/
  moduleName : Text := txt "app"
  /-- The folder that receives generated files, if it is not the root. -/
  outputDir : Option Path := none
  /-- The patterns of paths that are left alone. -/
  excludePaths : List Text := []
  /-- The section of components. -/
  components : ClassSettings := { generatedFolder := txt "generated/components" }
  /-- The section of controllers. -/
  controllers : ClassSettings := { generatedFolder := txt "generated/controllers" }
  /-- The section of directives used as elements. -/
  directives : DirectiveSettings := { generatedFolder := txt "generated/directives" }
  /-- The section of directives used as attributes. -/
  attributeDirectives : OutputSettings := { generatedFolder := txt "generated/attribute-directives" }
  /-- The section of services. -/
  services : ClassSettings := { generatedFolder := txt "generated/services" }
  /-- The section of filters. -/
  filters : OutputSettings := { generatedFolder := txt "generated/pipes" }
  /-- The section of constants. -/
  constants : ConstantSettings := { generatedFolder := txt "generated/constants" }
  /-- Whether generated modules and specs support several languages. -/
  i18n : Bool := false
deriving DecidableEq, Repr

namespace Settings

/-- The folder that receives generated files. -/
def outputRoot (s : Settings) : Path := s.outputDir.getD s.root

/-- What every section has, for the kinds that have a section. -/
def section? (s : Settings) : ConstructKind → Option OutputSettings
  | .component => some s.components.toOutputSettings
  | .controller => some s.controllers.toOutputSettings
  | .directive => some s.directives.toOutputSettings
  | .attributeDirective => some s.attributeDirectives
  | .service => some s.services.toOutputSettings
  | .filter => some s.filters
  | .constant => some s.constants.toOutputSettings
  | .spec => none

end Settings

end AngularUplift
