import AngularUplift.Text.Pattern
import AngularUplift.Text.Tidy

/-!
# HTML templates

A template is brought to the new binding syntax by rules that are applied one after the other, each to what the
earlier ones have made of it. A rule exchanges the occurrences of one legacy attribute, and the outcome tells
which rules found occurrences and how many.

## Main definitions

* `TemplateRule`: what a rule looks for and what it makes of it.
* `RepeatExpression.parse?`: the parts of a repetition such as `user in users track by user.id`.
* `templateRules`: the rules, in order.
* `convertTemplate`: the converted template with the rules that applied.
-/

namespace AngularUplift

/-- A rule for one legacy attribute. -/
structure TemplateRule where
  /-- What the rule does, in words. -/
  description : Text
  /-- The occurrences it applies to; the value is the attribute's value. -/
  pattern : Pattern Text
  /-- What it makes of an occurrence, from its text and its value. -/
  convert : Text → Text → Text

/-- The characters before which no attribute begins. -/
def isAttributeContext (c : Char) : Bool :=
  isWord c || c == '-' || c == '[' || c == '(' || c == '*'

/-- An attribute value in double quotes, after the equals sign. -/
def Reader.attributeValue : Reader Text := do
  Reader.exactly (txt "=\"")
  let value ← Reader.run (· != '"')
  Reader.exactly ['"']
  return value

/-- An attribute with a value in double quotes. -/
def valuedAttribute (name : Text) : Pattern Text where
  left := notAfter isAttributeContext
  read := do
    Reader.exactly name
    Reader.attributeValue

/-- An attribute with a value. -/
def withValue (target value : Text) : Text := target ++ txt "=\"" ++ value ++ ['"']

/-- The interpolated expression, when a value is nothing but one interpolation. -/
def interpolation? (value : Text) : Option Text :=
  match Text.after? ['{', '{'] value with
  | none => none
  | some rest =>
    let inner := rest.takeWhile fun c => c != '{' && c != '}'
    if rest.drop inner.length = ['}', '}'] then some inner else none

/-- A property binding for a value that is one interpolation, and otherwise a plain attribute. -/
def bindProperty (target value : Text) : Text :=
  let value := Text.trim value
  match interpolation? value with
  | some inner => withValue (['['] ++ target ++ [']']) (Text.trim inner)
  | none => withValue target value

/-- A condition with the opposite value. Only a plain path needs no parentheses. -/
def negate (value : Text) : Text :=
  let value := Text.trim value
  if !value.isEmpty && value.all fun c => isName c || c == '.' then ['!'] ++ value
  else txt "!(" ++ value ++ [')']

namespace RepeatExpression

/-- Whether a text is a tracking clause: white space, `track by` and an expression on one line, with nothing but
white space after it. -/
def isTracking (text : Text) : Bool :=
  let read : Reader Unit := do
    let _ ← Reader.blanks1
    Reader.exactly (txt "track")
    let _ ← Reader.blanks1
    Reader.exactly (txt "by")
    Reader.notNext (!isBlank ·)
  match read text with
  | none => false
  | some (_, rest) =>
    let expression := rest.dropWhile isBlank
    if expression.isEmpty then (rest.drop 1).any (· != '\n')
    else (expression.dropWhile (· != '\n')).all isBlank

/-- The shortest beginning of a text, on one line, after which only white space or a tracking clause comes. -/
def collection? : Text → Option Text
  | [] => none
  | c :: cs =>
    if c = '\n' then none
    else if cs.all isBlank || isTracking cs then some [c]
    else (collection? cs).map (c :: ·)

/-- The item name and the collection of a repetition. The collection begins after all of the white space after
`in`, or where that leaves no collection, as late in it as possible. -/
def parse? (value : Text) : Option (Text × Text) := do
  let head : Reader Text := do
    let _ ← Reader.blanks
    let name ← Reader.name
    let _ ← Reader.blanks1
    Reader.exactly (txt "in")
    return name
  let (name, rest) ← head value
  let blanks := (rest.takeWhile isBlank).length
  let collection ← ((List.range blanks).reverse.map fun i => rest.drop (i + 1)).findSome? collection?
  return (name, collection)

end RepeatExpression

/-- A repetition in the new syntax; one that cannot be read stays as it is. -/
def convertRepeat (text value : Text) : Text :=
  match RepeatExpression.parse? value with
  | none => text
  | some (name, collection) => withValue (txt "*ngFor") (txt "let " ++ name ++ txt " of " ++ collection)

/-- The rule that renames an attribute and keeps its value. -/
def renameRule (name target : String) : TemplateRule where
  description := txt name ++ txt " -> " ++ txt target
  pattern := valuedAttribute (txt name)
  convert := fun _ value => withValue (txt target) value

/-- The rule that turns an attribute into a property binding. -/
def propertyRule (name target : String) : TemplateRule where
  description := txt name ++ txt " -> [" ++ txt target ++ txt "]"
  pattern := valuedAttribute (txt name)
  convert := fun _ value => bindProperty (txt target) value

/-- `ng-switch`, which may have its value in an attribute `on`. -/
def switchAttribute : Pattern Text where
  left := notAfter isAttributeContext
  read := do
    Reader.exactly (txt "ng-switch")
    Reader.firstOf [
      do
        let _ ← Reader.blanks1
        Reader.exactly (txt "on"),
      pure ()]
    Reader.attributeValue

/-- `ng-switch-default`, which may have an empty value. -/
def switchDefault : Pattern Text where
  left := notAfter isAttributeContext
  read := do
    Reader.exactly (txt "ng-switch-default")
    Reader.firstOf [
      do
        Reader.exactly (txt "=\"\"")
        Reader.notNext fun c => isWord c || c == '-',
      Reader.notNext fun c => isWord c || c == '-']
    return []

/-- The controller's name in front of a member. -/
def controllerAccess : Pattern Text where
  left := anywhere
  read := do
    Reader.exactly (txt "$ctrl.")
    return []

/-- The rules, in the order in which they are applied. -/
def templateRules : List TemplateRule :=
  [renameRule "ng-click" "(click)",
    renameRule "ng-change" "(ngModelChange)",
    renameRule "ng-submit" "(ngSubmit)",
    propertyRule "ng-href" "href",
    propertyRule "ng-src" "src",
    renameRule "ng-class" "[ngClass]",
    renameRule "ng-style" "[ngStyle]",
    renameRule "ng-disabled" "[disabled]",
    renameRule "ng-if" "*ngIf",
    renameRule "ng-show" "*ngIf",
    ⟨txt "ng-hide -> *ngIf", valuedAttribute (txt "ng-hide"),
      fun _ value => withValue (txt "*ngIf") (negate value)⟩,
    renameRule "ng-bind" "[innerHtml]",
    ⟨txt "ng-repeat -> *ngFor", valuedAttribute (txt "ng-repeat"), convertRepeat⟩,
    renameRule "ng-switch-when" "*ngSwitchCase",
    ⟨txt "ng-switch -> [ngSwitch]", switchAttribute, fun _ value => withValue (txt "[ngSwitch]") value⟩,
    ⟨txt "ng-switch-default -> *ngSwitchDefault", switchDefault, fun _ _ => txt "*ngSwitchDefault"⟩,
    renameRule "ng-model" "[(ngModel)]",
    ⟨txt "$ctrl. removed", controllerAccess, fun _ _ => []⟩]

/-- A converted template. -/
structure ConvertedTemplate where
  /-- The template in the new syntax. -/
  html : Text
  /-- The rules that found occurrences, with their number. -/
  replacements : List Text := []
deriving DecidableEq, Repr

/-- The template after one more rule. -/
def TemplateRule.applyTo (template : ConvertedTemplate) (rule : TemplateRule) : ConvertedTemplate :=
  let count := (rule.pattern.occurrences template.html).length
  { html := rule.pattern.replaceWith rule.convert template.html
    replacements :=
      if count = 0 then template.replacements
      else template.replacements ++ [rule.description ++ txt " (" ++ Text.ofNat count ++ [')']] }

/-- The template in the new syntax. -/
def convertTemplate (html : Text) : ConvertedTemplate :=
  templateRules.foldl TemplateRule.applyTo { html }

end AngularUplift
