import AngularUplift.Construct.Component
import AngularUplift.TypeScript.Member

/-!
# Component classes

The class that a component becomes, and the wrapper through which a component that stays behind is still used.
-/

namespace AngularUplift

/-- What a generated class depends on besides its model. -/
structure ClassOptions where
  /-- The legacy module that a downgraded class is registered in. -/
  moduleName : Text := txt "app"
  /-- Whether injected tokens become constructor parameters. -/
  insertInjections : Bool := true
  /-- Whether the class is registered for use from legacy code. -/
  downgrade : Bool := false
deriving DecidableEq, Repr

/-- The function whose body runs on every change check. -/
def doCheckName : Text := txt "$doCheck"

/-- The body of the first function that runs on every change check. -/
def doCheckBody (functions : List Function) : Text :=
  match functions.find? (·.name == doCheckName) with
  | none => []
  | some f => updateBody (some .controllerToThis) f.body

/-- The lines of a component class, before they are laid out. -/
def componentLines (className : Text) (c : Component) (options : ClassOptions) : List Text :=
  let receivers := some Renaming.controllerToThis
  [importLine [txt "Component", txt "DoCheck", txt "Input", txt "OnInit"] (txt "@angular/core")] ++
  (if options.downgrade then
    [importLine [txt "downgradeComponent"] (txt "@angular/upgrade/static"), [],
      txt "declare var angular: any;"]
   else []) ++
  [[],
    txt "@Component(\x7b",
    txt "  selector: '" ++ c.selector ++ txt "',",
    txt "  styleUrls: ['" ++ c.styleUrl ++ txt "'],",
    txt "  templateUrl: '" ++ c.templateUrl ++ txt "'",
    txt "\x7d)",
    opens (txt "export class " ++ className ++ txt " implements OnInit, DoCheck")] ++
  c.inputs.map inputDeclaration ++
  [[]] ++
  c.properties.map propertyDeclaration ++
  [[],
    txt "constructor(",
    if options.insertInjections then injectionParameters c.injections else [],
    txt ") \x7b \x7d",
    [],
    opens (txt "public ngOnInit()")] ++
  deferredAssignments receivers (c.inputs ++ c.properties) ++
  [txt "\x7d",
    [],
    opens (txt "ngDoCheck(): void"),
    doCheckBody c.functions,
    txt "\x7d",
    []] ++
  spaced ((c.functions.filter (·.name != doCheckName)).map (method receivers [])) ++
  [c.todo, txt "\x7d"] ++
  (if options.downgrade then
    [[],
      txt "angular.module('" ++ options.moduleName ++ txt "')",
      txt ".directive(",
      ['\''] ++ c.name ++ txt "',",
      txt "downgradeComponent(" ++ braced (txt "component: " ++ className) ++ [')'],
      txt ");"]
   else [])

/-- The source of a component class. -/
def componentSource (className : Text) (c : Component) (options : ClassOptions) : Text :=
  layout (Text.unlines (componentLines className c options))

/-- The source of the directive through which a legacy component is used. -/
def upgradedComponentSource (className legacyName selector : Text) (inputs : List Variable) : Text :=
  layout <| Text.unlines <|
    [importLine [txt "Directive", txt "ElementRef", txt "Injector", txt "Input"] (txt "@angular/core"),
      importLine [txt "UpgradeComponent"] (txt "@angular/upgrade/static"),
      [],
      txt "@Directive(\x7b",
      txt "  selector: '" ++ selector ++ txt "'",
      txt "\x7d)",
      opens (txt "export class " ++ className ++ txt " extends UpgradeComponent")] ++
    inputs.map (fun v => txt "@Input() " ++ v.name ++ txt ": " ++ v.typeName ++ [';']) ++
    [[],
      opens (txt "constructor(elementRef: ElementRef, injector: Injector)"),
      txt "super('" ++ legacyName ++ txt "', elementRef, injector);",
      txt "\x7d",
      txt "\x7d"]

end AngularUplift
