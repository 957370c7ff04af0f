import AngularUplift.Construct.Directive
import AngularUplift.Dependency
import AngularUplift.Migration.Journal
import AngularUplift.TypeScript.LegacyScript
import AngularUplift.TypeScript.ServiceClass
import AngularUplift.Watcher

/-!
# Migrating directives

A directive used as an element becomes a legacy component with a controller of its own: its watchers become one
hook, and its scope becomes the controller. A directive used as an attribute becomes a directive class.
-/

namespace AngularUplift.Migration

/-- The word `function` before any closing bracket, with whatever stands before it. -/
def functionInArray : Reader Unit := fun text =>
  match text with
  | [] => none
  | c :: cs =>
    match Reader.functionWord (c :: cs) with
    | some found => some found
    | none => if c = ']' then none else functionInArray cs

/-- A controller written in place, alone or in an injection array, up to the end of the word `function`. -/
def inlineController : Pattern Unit where
  left := wordEdge
  read := do
    Reader.exactly (txt "controller")
    let _ ← Reader.blanks
    Reader.exactly [':']
    let _ ← Reader.blanks
    Reader.firstOf [
      do
        Reader.exactly ['[']
        functionInArray,
      Reader.functionWord]

/-- The function that a directive has as its controller, if it is written in place. -/
def inlineControllerFactory (text : Text) : Except Fault (Option Factory) :=
  match inlineController.find? text with
  | none => .ok none
  | some found => Factory.parseAt text (found.stop - (txt "function").length : Nat)

/-- The controller of a directive: that of its companion or of the source, or else the function written in
place, or else nothing but what is injected into the directive. -/
def directiveController (source : Source) : Except Fault Controller := do
  let registered := [source.companion .controller, source.text].find? fun text =>
    !text.isEmpty && Controller.isRegistered text
  match registered with
  | some text => Controller.analyze text
  | none =>
    match ← inlineControllerFactory source.text with
    | some factory => return { body := factory.body, inject := factory.params }
    | none =>
      let factory ← Factory.registered source.text (txt "directive")
      return { inject := (factory.map (·.params)).getD [] }

/-- A body after a shadowed token is dealt with, as the section asks. -/
def adaptShadowed (s : DirectiveSettings) (body name : Text) : Text :=
  let body := if s.updateRemovedInjectedBindings then qualifyShadowed name body else body
  if s.generateUndeclaredWarning then annotateUndeclared name body else body

/-- The body of the controller that a directive becomes: its controller's and its link callback's, with watchers
in one hook and the scope exchanged for the controller. -/
def controllerBody (s : DirectiveSettings) (controller : Controller) (directive : Directive)
    (shadowed : List Text) : Migration Text := do
  let own := txt "var ctrl = this;\n" ++ Text.trimBreaks controller.body
  let link ← ofExcept directive.linkFunction
  let all := match link with
    | none => own
    | some factory => own ++ ['\n'] ++ Text.trimBreaks factory.body
  let (watchers, rest, records) := extractWatchers all
  log records
  unless watchers.isEmpty do
    done (txt "Convert watchers of " ++ directive.name)
      (watchers.map fun w => txt "Watch " ++ inlineCode w.target ++ txt " in $doCheck")
  let body := Renaming.scopeToController.apply (rest ++ ['\n'] ++ doCheckCode watchers)
  return shadowed.foldl (adaptShadowed s) body

/-- The wrapper through which new code uses a directive, when the section asks for it. -/
def upgradeArtifacts (s : DirectiveSettings) (source : Source) (directive : Directive)
    (bindings : List Text) : Migration (List Artifact) :=
  if s.upgrade then do
    let inputs ← ofExcept (Variable.ofNames bindings)
    let content := upgradedComponentSource (Text.pascalCase directive.name ++ txt "Component")
      directive.name (Text.camelToDash directive.name) inputs
    return [← artifact .directive s.toOutputSettings source.key (txt "upgraded.component.ts") content]
  else return []

/-- Migrates a directive used as an element. -/
def directive (settings : Settings) (source : Source) : Migration (List Artifact) := do
  let s := settings.directives
  let directive ← ofLogged (Directive.analyze source.text)
  if directive.name.isEmpty then throw (.noRegistration (txt "directive") source.path.display)
  let controller ← ofExcept (directiveController source)
  let controllerName := Component.firstNonEmpty
    [directive.controller, controller.name, Text.pascalCase directive.name ++ txt "Controller"]
  let bindings := Registration.blockKeys directive.scope
  let kept := tokensWithRole .kept bindings controller.inject
  let shadowed := tokensWithRole .shadowed bindings controller.inject
  let body ← controllerBody s controller directive shadowed
  let script ← artifact .directive s.toOutputSettings source.key (txt "component.js")
    (legacyComponentSource settings.moduleName directive.name directive.templateUrl directive.scope
      controllerName)
  let controllerScript ← artifact .directive s.toOutputSettings source.key (txt "controller.js")
    (legacyControllerSource settings.moduleName controllerName kept body)
  let artifacts := [script, controllerScript] ++ (← upgradeArtifacts s source directive bindings)
  let scope := if directive.scope.isEmpty then txt "\x7b\x7d" else directive.scope
  done (txt "Migrate directive " ++ directive.name)
    [txt "Extract scope as bindings : " ++ inlineCode scope,
      txt "Insert directive controller name as component controller name : " ++ inlineCode controllerName,
      txt "Keep injections : " ++ inlineNames kept]
  shadowed.forM fun name =>
    todo (txt "Check " ++ inlineCode name ++
      txt ": the injection is shadowed by a binding of the same name")
  unless (source.companion .spec).isEmpty && (source.companion .controllerSpec).isEmpty do
    todo (txt "Migrate the unit tests of " ++ inlineCode directive.name ++ txt " manually")
  todoMoves source artifacts
  progress .directive (txt "Migrated directive " ++ directive.name ++ artifactCount artifacts)
  return artifacts

/-- Migrates a directive used as an attribute. -/
def attributeDirective (settings : Settings) (source : Source) : Migration (List Artifact) := do
  let directive ← ofLogged (AttributeDirective.analyze source.text)
  if directive.name.isEmpty then throw (.noRegistration (txt "directive") source.path.display)
  let className := Text.pascalCase directive.name ++ txt "Directive"
  let made ← artifact .attributeDirective settings.attributeDirectives source.key (txt "directive.ts")
    (directiveSource className directive)
  done (txt "Migrate attribute directive " ++ directive.name)
    [txt "Extract injections : " ++ inlineNames (directive.injects.map (·.name)),
      txt "Extract functions : " ++ inlineNames (directive.functions.map (·.name))]
  if directive.functions.any (·.name == AttributeDirective.unmigratedName) then
    todo (txt "Migrate the " ++ inlineCode AttributeDirective.unmigratedName ++ txt " function of " ++
      inlineCode className)
  todo (txt "Declare " ++ inlineCode className ++ txt " in the module that uses it")
  todoMoves source [made]
  return [made]

end AngularUplift.Migration
