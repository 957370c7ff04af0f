import AngularUplift.Construct.Directive
import AngularUplift.Construct.Service
import AngularUplift.TypeScript.ComponentClass

/-!
# Classes for services, attribute directives and constants

An injectable class for a service, a directive class for an attribute directive, and the file that gathers all
constants.
-/

namespace AngularUplift

/-- The source of an injectable class. Its methods promise nothing about their results. -/
def injectableSource (className : Text) (i : Injectable) (options : ClassOptions) : Text :=
  let receivers := some Renaming.controllerToThis
  layout <| Text.unlines <|
    [importLine [txt "Injectable"] (txt "@angular/core")] ++
    (if options.downgrade then
      [importLine [txt "downgradeInjectable"] (txt "@angular/upgrade/static"), [],
        txt "declare var angular: any;"]
     else []) ++
    [[], txt "@Injectable()", opens (txt "export class " ++ className)] ++
    i.properties.map propertyDeclaration ++
    [[],
      txt "constructor(",
      if options.insertInjections then injectionParameters i.injections else [],
      txt ") \x7b"] ++
    deferredAssignments receivers i.properties ++
    [txt "\x7d", []] ++
    spaced (i.functions.map (method receivers (txt "any"))) ++
    [i.todo, txt "\x7d"] ++
    (if options.downgrade then
      [[],
        txt "angular.module('" ++ options.moduleName ++ txt "')",
        txt ".factory('" ++ i.name ++ txt "', downgradeInjectable(" ++ className ++ txt "));"]
     else [])

/-- The source of a directive class. The element it sits on is injected first. -/
def directiveSource (className : Text) (d : AttributeDirective) : Text :=
  let receivers := some Renaming.linkToThis
  let injections := injectionParameters d.injects
  layout <| Text.unlines <|
    [importLine [txt "Directive", txt "ElementRef"] (txt "@angular/core"),
      [],
      txt "@Directive(\x7b",
      txt "  selector: '[" ++ d.name ++ txt "]'",
      txt "\x7d)",
      opens (txt "export class " ++ className)] ++
    d.properties.map propertyDeclaration ++
    [[],
      txt "constructor(",
      txt "private el: ElementRef" ++ (if injections.isEmpty then [] else [',']),
      injections,
      txt ") \x7b"] ++
    deferredAssignments receivers d.properties ++
    [txt "\x7d", []] ++
    spaced (d.functions.map (method receivers [])) ++
    [txt "\x7d"]

/-- The value of a constant: a literal, or else what was written, or else nothing. -/
def constantValue (v : Variable) : Text :=
  match v.value with
  | some value => value.render
  | none => if v.expression.isEmpty then txt "undefined" else v.expression

/-- The declaration of a constant. -/
def constantDeclaration (v : Variable) : Text :=
  txt "export const " ++ v.name ++ txt " = " ++ constantValue v ++ [';']

/-- The source of the file that gathers constants. -/
def constantsSource (constants : List Variable) : Text :=
  layout (Text.unlines (spaced (constants.map constantDeclaration)))

end AngularUplift
