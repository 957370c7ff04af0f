import AngularUplift.Construct.Component
import AngularUplift.Migration.Journal
import AngularUplift.Suite.Printer
import AngularUplift.Template
import AngularUplift.TypeScript.ComponentClass
import AngularUplift.TypeScript.FeatureModule

/-!
# Migrating components and controllers

A component registration and its controller become a component class, a module, a template and specs. A controller
without a component becomes a component that is named after it.
-/

namespace AngularUplift.Migration

/-- What the migration of components and that of controllers do not share. -/
structure ComponentPlan where
  /-- The kind that is migrated. -/
  kind : ConstructKind
  /-- Its section. -/
  settings : ClassSettings
  /-- The legacy module. -/
  moduleName : Text
  /-- Whether modules and specs support several languages. -/
  i18n : Bool

/-- The converted template of a source, if it has a template. -/
def templateArtifacts (plan : ComponentPlan) (source : Source) (key : Text) :
    Migration (List Artifact) :=
  match source.companion .template with
  | [] => return []
  | html => do
    let converted := convertTemplate html
    unless converted.replacements.isEmpty do
      done (txt "Update template " ++ key) converted.replacements
    return [← artifact plan.kind plan.settings.toOutputSettings key (txt "template.html") converted.html]

/-- The spec for a companion, if the companion has a suite. -/
def specArtifacts (plan : ComponentPlan) (source : Source) (key : Text) (context : SpecContext)
    (role : CompanionRole) (suffix : Text) : Migration (List Artifact) := do
  match ← suiteOf source role with
  | none => return []
  | some suite =>
    let content ← ofExcept (componentSpec suite context)
    return [← artifact plan.kind plan.settings.toOutputSettings key suffix content]

/-- The files of a component, with what is left to do. -/
def emitComponent (plan : ComponentPlan) (source : Source) (component : Component) (key : Text) :
    Migration (List Artifact) := do
  let output := plan.settings.toOutputSettings
  let baseName := Text.pascalCase component.name
  let className := baseName ++ txt "Component"
  let moduleClass := baseName ++ txt "Module"
  let componentFile := txt "./" ++ (← ofExcept (output.fileName key (txt "component")))
  let moduleFile := txt "./" ++ (← ofExcept (output.fileName key (txt "module")))
  let context : SpecContext := ⟨className, componentFile, moduleClass, moduleFile, plan.i18n⟩
  let options : ClassOptions :=
    ⟨plan.moduleName, plan.settings.insertInjections, plan.settings.downgrade⟩
  let class_ ← artifact plan.kind output key (txt "component.ts") (componentSource className component options)
  let module_ ← artifact plan.kind output key (txt "module.ts")
    (FeatureModule.forComponent moduleClass className componentFile plan.i18n).source
  let template ← templateArtifacts plan source key
  let spec ← specArtifacts plan source key context .spec (txt "component.spec.ts")
  let controllerSpec ← specArtifacts plan source key context .controllerSpec (txt "controller.spec.ts")
  let artifacts := [class_, module_] ++ template ++ spec ++ controllerSpec
  unless component.todo.isEmpty do
    todo (txt "Migrate the unmigrated code left in " ++ inlineCode className)
  todo (txt "Import " ++ inlineCode moduleClass ++ txt " in app.module.ts")
  todoMoves source artifacts
  progress plan.kind
    (txt "Migrated " ++ plan.kind.label ++ [' '] ++ component.name ++ artifactCount artifacts)
  return artifacts

/-- The controller of a component: that of its companion, or else one in the source itself. -/
def controllerOf (source : Source) : Migration Controller := do
  let companion := source.companion .controller
  if !companion.isEmpty && Controller.isRegistered companion then
    ofExcept (Controller.analyze companion)
  else if Controller.isRegistered source.text then ofExcept (Controller.analyze source.text)
  else
    todo (txt "No controller found for " ++ inlineCode source.key ++
      txt ": check the generated component members")
    return {}

/-- Migrates a component registration. -/
def component (settings : Settings) (source : Source) : Migration (List Artifact) := do
  let legacy ← ofExcept (LegacyComponent.analyze source.text)
  if legacy.name.isEmpty then throw (.noRegistration (txt "component") source.path.display)
  let controller ← controllerOf source
  let templateName := templateKey legacy.templateUrl
  let key := if templateName.isEmpty then source.key else templateName
  let component ← ofLogged (Component.ofLegacy legacy controller key)
  let bindings := if legacy.bindings.isEmpty then txt "\x7b\x7d" else legacy.bindings
  done (txt "Migrate component " ++ legacy.name)
    [txt "Extract component name : " ++ inlineCode legacy.name,
      txt "Extract bindings : " ++ inlineCode bindings,
      txt "Extract controller injections : " ++ inlineNames controller.inject]
  emitComponent ⟨.component, settings.components, settings.moduleName, settings.i18n⟩ source component key

/-- The name of a controller without the ending that marks it as one, unless nothing else is left. The ending may
stand before a last line break. -/
def controllerBaseName (name : Text) : Text :=
  let (stem, lineBreak) := if name.endsWith ['\n'] then (name.dropLast, ['\n']) else (name, [])
  let base :=
    match [txt "Ctrl", txt "Controller"].find? (Text.endsWith stem) with
    | some ending => stem.take (stem.length - ending.length) ++ lineBreak
    | none => name
  if base.isEmpty then name else base

/-- Migrates a controller that belongs to no component. -/
def controller (settings : Settings) (source : Source) : Migration (List Artifact) := do
  let registered ← ofExcept (Controller.analyze source.text)
  if registered.name.isEmpty then throw (.noRegistration (txt "controller") source.path.display)
  let controller : Controller :=
    { registered with
      body := (Renaming.into (txt "ctrl") [txt "$scope"]).apply registered.body
      inject := registered.inject.filter (· != txt "$scope") }
  let legacy : LegacyComponent :=
    { name := Text.decapitalise (controllerBaseName controller.name)
      templateUrl := source.key ++ txt ".template.html" }
  let component ← ofLogged (Component.ofLegacy legacy controller source.key)
  done (txt "Migrate controller " ++ controller.name)
    [txt "Extract controller body : " ++ codeBlock (Text.trim controller.body) (txt "js"),
      txt "Extract controller injections : " ++ inlineNames controller.inject]
  emitComponent ⟨.controller, settings.controllers, settings.moduleName, settings.i18n⟩ source component
    source.key

end AngularUplift.Migration
