import AngularUplift.Construct.Constant
import AngularUplift.Construct.Filter
import AngularUplift.Construct.Service
import AngularUplift.Migration.Journal
import AngularUplift.Suite.Printer
import AngularUplift.TypeScript.FeatureModule
import AngularUplift.TypeScript.PipeClass
import AngularUplift.TypeScript.ServiceClass

/-!
# Migrating services, filters and constants

A service becomes an injectable class with a module and a spec. Every filter of a file becomes a pipe in a folder
of its own. Constants are set aside in the journal and gathered in one file at the end.
-/

namespace AngularUplift.Migration

/-- The names of variables as code within a line. -/
def inlineVariables (vs : List Variable) : Text := inlineNames (vs.map (·.name))

/-- Migrates a service. -/
def service (settings : Settings) (source : Source) : Migration (List Artifact) := do
  let s := settings.services
  let output := s.toOutputSettings
  let service ← ofExcept (Service.analyze source.text)
  if service.name.isEmpty then throw (.noRegistration (txt "service") source.path.display)
  let injectable ← ofLogged (Injectable.ofService service)
  let key := source.key
  let className := Text.pascalCase service.name
  let moduleClass := className ++ txt "Module"
  let serviceFile := txt "./" ++ (← ofExcept (output.fileName key (txt "service")))
  let moduleFile := txt "./" ++ (← ofExcept (output.fileName key (txt "module")))
  let class_ ← artifact .service output key (txt "service.ts")
    (injectableSource className injectable ⟨settings.moduleName, s.insertInjections, s.downgrade⟩)
  let module_ ← artifact .service output key (txt "module.ts")
    (FeatureModule.forService moduleClass className serviceFile settings.i18n).source
  let spec ← match ← suiteOf source .spec with
    | none => pure []
    | some suite => do
      let content ← ofExcept
        (serviceSpec suite ⟨className, serviceFile, moduleClass, moduleFile, settings.i18n⟩)
      pure [← artifact .service output key (txt "service.spec.ts") content]
  let artifacts := [class_, module_] ++ spec
  done (txt "Migrate service " ++ service.name)
    [txt "Extract injections : " ++ inlineNames service.inject,
      txt "Extract properties : " ++ inlineVariables injectable.properties,
      txt "Extract functions : " ++ inlineNames (injectable.functions.map (·.name))]
  unless injectable.todo.isEmpty do
    todo (txt "Migrate the unmigrated code left in " ++ inlineCode className)
  if s.downgrade then todo (txt "Remove the legacy registration of " ++ inlineCode service.name)
  todoMoves source artifacts
  progress .service (txt "Migrated service " ++ service.name ++ artifactCount artifacts)
  return artifacts

/-- Migrates one of the filters of a file. -/
def oneFilter (output : OutputSettings) (filter : Filter) : Migration Artifact := do
  let className := pipeClassName filter.name
  let made ← artifact .filter output (Text.camelToDash filter.name) (txt "pipe.ts") (pipeSource filter)
  done (txt "Migrate filter " ++ filter.name)
    [txt "Create pipe : " ++ inlineCode className,
      txt "Extract injections : " ++ inlineVariables filter.injections]
  if filter.body.isEmpty then todo (txt "Write the transform of " ++ inlineCode className)
  if Text.contains filter.body (txt "$filter(") then
    todo (txt "Inject the pipes used by " ++ inlineCode className)
  return made

/-- Migrates the filters of a file. -/
def filter (settings : Settings) (source : Source) : Migration (List Artifact) := do
  let output := settings.filters
  match ← ofLogged (Filter.analyze source.text) with
  | [] => throw (.noRegistration (txt "filter") source.path.display)
  | first :: rest =>
    let pipes ← (first :: rest).mapM (oneFilter output)
    let spec ← match ← suiteOf source .spec with
      | none => pure []
      | some suite => do
        let content ← ofExcept (pipeSpec suite output.generatedPrefix settings.i18n)
        pure [← artifact .filter output (Text.camelToDash first.name) (txt "pipe.spec.ts") content]
    let artifacts := pipes ++ spec
    todoMoves source artifacts
    progress .filter
      (txt "Migrated " ++ Text.ofNat (rest.length + 1) ++ txt " filter(s) from " ++ source.path.display)
    return artifacts

/-- Sets a constant aside, unless one of the same name already is. -/
def gather (constant : Variable) : Migration Unit := do
  let journal ← get
  if journal.constants.any (·.name == constant.name) then
    log [⟨.warning, area .constant,
      txt "Constant " ++ constant.name ++ txt " is declared more than once; keeping the first", none⟩]
  else set { journal with constants := journal.constants ++ [constant] }

/-- Sets the constants of a file aside. -/
def constant (source : Source) : Migration (List Artifact) := do
  match ← ofExcept (Constant.analyze source.text) with
  | [] => throw (.noRegistration (txt "constant") source.path.display)
  | found =>
    found.forM gather
    done (txt "Collect constants from " ++ source.path.name) (found.map fun c => inlineCode c.name)
    return []

/-- Gathers the constants that were set aside in one file. -/
def gatherConstants (settings : Settings) : Migration (List Artifact) := do
  let s := settings.constants
  match (← get).constants with
  | [] => return []
  | constants =>
    let made : Artifact := ⟨s.generatedFolder ++ ['/'] ++ s.generatedFile, constantsSource constants⟩
    showGenerated .constant s.toOutputSettings made
    todo (txt "Replace injected constants with imports from " ++ inlineCode s.generatedFile)
    progress .constant
      (txt "Gathered " ++ Text.ofNat constants.length ++ txt " constant(s) into " ++ made.path)
    modify fun journal => { journal with constants := [] }
    return [made]

end AngularUplift.Migration
