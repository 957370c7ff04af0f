import AngularUplift.Receiver
import AngularUplift.Text.Statement
import AngularUplift.Text.Tidy
import AngularUplift.TypeScript.PipeClass

/-!
# Bodies of generated tests

The body of a legacy test is brought to its new surroundings by textual steps: a component test runs against a
fixture, a service test stays as it is, and a pipe test makes its pipes itself.

## Main definitions

* `componentTestBody`, `serviceTestBody`, `pipeTestBody`: the body of a test, by what is tested.
* `removeComponentDeclarations`: a body without its `var component` statements.
* `pipeImports`: the imports for the pipes that a spec makes.
-/

namespace AngularUplift

/-- A line that mentions compilation, with its line break. -/
def compileLine : Pattern Unit where
  left := lineStart
  read := fun text =>
    let line := text.takeWhile (· != '\n')
    if Text.contains line (txt "compile") then some ((), (text.drop line.length).drop 1) else none

/-- An assignment to `element`, with its declaration and up to a semicolon or the end of the line. -/
def elementAssignment : Pattern Unit where
  left := fun before after =>
    (wordEdge before after && after.startsWith (txt "var")) ||
      (freeName before after && after.startsWith (txt "element"))
  read := do
    Reader.firstOf [
      do
        Reader.exactly (txt "var")
        let _ ← Reader.gap1,
      pure ()]
    Reader.exactly (txt "element")
    let _ ← Reader.gap
    Reader.exactly ['=']
    Reader.notNext (· == '=')
    let _ ← Reader.run fun c => c != ';' && c != '\n'
    Reader.optionally [';']

/-- The name `element`. -/
def elementName : Pattern Unit where
  left := freeName
  read := do
    Reader.exactly (txt "element")
    Reader.notNext isName

/-- A search for elements through the component. -/
def findCall : Pattern Unit where
  left := freeName
  read := do
    Reader.anyOf [txt "component", txt "compiled"]
    Reader.exactly (txt ".find")
    Reader.endOfWord

/-- A line that begins with the word `dump`. -/
def dumpLine : Pattern Unit where
  left := lineStart
  read := do
    let _ ← Reader.gap
    Reader.exactly (txt "dump")
    Reader.endOfWord
    let _ ← Reader.run (· != '\n')

/-- The head of a declaration of `component`. -/
def componentDeclaration : Pattern Unit where
  left := lineStart
  read := do
    let _ ← Reader.gap
    Reader.exactly (txt "var")
    let _ ← Reader.gap1
    Reader.exactly (txt "component")
    Reader.endOfWord

/-- The head of an assertion. -/
def expectation : Pattern Unit where
  left := freeName
  read := do
    Reader.exactly (txt "expect")
    let _ ← Reader.blanks
    Reader.exactly ['(']

/-- The text with every occurrence put behind a comment mark. -/
def commentOccurrences (mark : Text) (p : Pattern Unit) (text : Text) : Text :=
  p.replaceWith (fun found _ => mark ++ Text.trim found) text

/-- The body without the statements that declare `component`, in at most `fuel` rounds. -/
def removeDeclarationRounds : (fuel : Nat) → Text → Text
  | 0, body => body
  | fuel + 1, body =>
    match componentDeclaration.find? body with
    | none => body
    | some found =>
      let stop := body.statementEnd found.stop
      let stop := if body[stop]? = some '\n' then stop + 1 else stop
      removeDeclarationRounds fuel (body.take found.start ++ body.drop stop)

/-- The body without the statements that declare `component`. Every round takes out at least the declaration's
head, so there are fewer rounds than characters. -/
def removeComponentDeclarations (body : Text) : Text := removeDeclarationRounds (body.length + 1) body

/-- The body with change detection before the line of its first assertion, or at its end. -/
def insertChangeDetection (body : Text) : Text :=
  match expectation.find? body with
  | none => body ++ txt "\nfixture.detectChanges();\n"
  | some found =>
    let lineStart := ((Text.lastIndexOf? ['\n'] (body.take found.start)).map (· + 1)).getD 0
    body.take lineStart ++ txt "fixture.detectChanges();\n" ++ body.drop lineStart

/-- The body of a component test: what set up the legacy element goes or becomes a comment, receivers become
`component`, and elements are looked up in the fixture. -/
def componentTestBody (body : Text) : Text :=
  let body := body.replaceFirst (txt "$scope.$digest();") []
  let body := compileLine.eraseFirst body
  let body := commentOccurrences (txt "\n// ") elementAssignment body
  let body := Renaming.testToComponent.apply body
  let body := elementName.replace (txt "compiled") body
  let body := findCall.replace (txt "compiled.querySelectorAll") body
  let body := body.replaceAll (txt ".toEqualData") (txt ".toEqual")
  let body := commentOccurrences (txt "// ") dumpLine body
  let body := removeComponentDeclarations body
  let body := txt "let compiled = fixture.nativeElement;\n" ++ body
  Text.trim (Text.removeEmptyLines (insertChangeDetection body))

/-- The body of a service test. -/
def serviceTestBody (body : Text) : Text := Text.trim body

/-- A look-up of a filter by a quoted name; the value is the name. -/
def filterLookup : Pattern Text where
  left := anywhere
  read := do
    Reader.optionally ['$']
    Reader.exactly (txt "filter(")
    let _ ← Reader.blanks
    let _ ← Reader.oneOf isPlainQuote
    let name ← Reader.name
    let _ ← Reader.oneOf isPlainQuote
    let _ ← Reader.blanks
    Reader.exactly [')']
    return name

/-- The body of a pipe test: it makes the pipes it looks up. -/
def pipeTestBody (body : Text) : Text :=
  let body := commentOccurrences (txt "// ") dumpLine body
  let names := ((filterLookup.occurrences body).map (·.value)).eraseDups
  let declarations := names.flatMap fun name =>
    txt "let " ++ name ++ txt " = new " ++ pipeClassName name ++ txt "();\n"
  let body := filterLookup.replaceWith (fun _ name => name ++ txt ".transform") body
  Text.trim (Text.removeEmptyLines (declarations ++ body))

/-- The declaration of a pipe in a generated test; the value is the variable's name. -/
def pipeDeclaration : Pattern Text where
  left := wordEdge
  read := do
    Reader.exactly (txt "let ")
    let name ← Reader.name
    Reader.exactly (txt " = new ")
    let className ← Reader.name
    if className.endsWith (txt "Pipe") && 4 < className.length then Reader.exactly (txt "()")
    else failure
    return name

/-- The imports for the pipes that a spec makes, each once. -/
def pipeImports (content suffix : Text) : List Text :=
  (((pipeDeclaration.occurrences content).map (·.value)).eraseDups).map fun name =>
    let key := Text.camelToDash name
    importLine [pipeClassName name] (txt "../" ++ key ++ ['/'] ++ key ++ suffix ++ txt ".pipe")

end AngularUplift
