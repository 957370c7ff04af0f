import AngularUplift.Fault
import AngularUplift.Suite.Basic
import AngularUplift.Suite.Body
import AngularUplift.TypeScript.FeatureModule

/-!
# Generated specs

A test tree is written out again around a skeleton that sets up the test bed. Hooks and the code of suites that
belongs to no block are kept as comments; bodies of tests go through the step for what is tested.

## Main definitions

* `commentOut`: code as a comment.
* `TestNode.code`: the code of a node, given what becomes of the bodies of tests.
* `componentSpec`, `serviceSpec`, `pipeSpec`: the whole spec files.
-/

namespace AngularUplift

/-- Code with a comment mark before every line; nothing, when there is no code. -/
def commentOut (code : Text) : Text :=
  let lines := (Text.trim code).lines.map Text.trim
  if lines.all (·.isEmpty) then []
  else Text.join ['\n'] (lines.map fun line => if line.isEmpty then txt "//" else txt "// " ++ line)

/-- A title inside single quotes. -/
def quoteTitle (title : Text) : Text :=
  (title.replaceAll ['\\'] ['\\', '\\']).replaceAll ['\''] ['\\', '\'']

/-- The pieces that are not empty, one a line, with a line break at the end. -/
def nonEmptyLines (parts : List Text) : Text := Text.join ['\n'] (parts.filter (!·.isEmpty)) ++ ['\n']

/-- The head of a block with a title. -/
def blockHead (keyword title : Text) : Text :=
  keyword ++ txt "('" ++ quoteTitle title ++ txt "', () => \x7b"

/-- The end of a block. -/
def blockEnd : Text := txt "\x7d);"

namespace TestNode

mutual

/-- The code of a node, given what becomes of the bodies of tests. -/
def code (testBody : Text → Text) : TestNode → Except Fault Text
  | .describe title body comment _ children => do
    let inner ← childrenCode testBody children
    return nonEmptyLines
      [commentOut body, comment, blockHead (txt "describe") title, Text.join ['\n'] inner, blockEnd]
  | .beforeEach body comment _ =>
    let hook := commentOut (txt "beforeEach(" ++ body ++ [')'])
    return if comment.isEmpty then hook else comment ++ ['\n'] ++ hook
  | .xit title body comment _ =>
    return nonEmptyLines [comment, blockHead (txt "xit") title, testBody body, blockEnd]
  | .it title body comment _ =>
    return nonEmptyLines [comment, blockHead (txt "it") title, testBody body, blockEnd]
  | .other .. => .error .unsupportedTestNode

/-- The code of each of the nodes. -/
def childrenCode (testBody : Text → Text) : List TestNode → Except Fault (List Text)
  | [] => return []
  | node :: rest => do
    let first ← code testBody node
    return first :: (← childrenCode testBody rest)

end

/-- The code of the children of a suite. -/
def content (testBody : Text → Text) (suite : TestNode) : Except Fault Text := do
  return Text.join ['\n'] (← childrenCode testBody suite.children)

/-- The title of a node, or nothing. -/
def title (node : TestNode) : Text := node.title?.getD []

/-- The code of a node that belongs to no block of it. -/
def body : TestNode → Text
  | .describe _ body .. => body
  | .beforeEach body .. => body
  | .xit _ body .. => body
  | .it _ body .. => body
  | .other body .. => body

end TestNode

/-- The names and files that a spec refers to. -/
structure SpecContext where
  /-- The class that is tested. -/
  className : Text := []
  /-- The file of the class. -/
  classFile : Text := []
  /-- The module of the class. -/
  moduleClass : Text := []
  /-- The file of the module. -/
  moduleFile : Text := []
  /-- Whether the test bed supports several languages. -/
  i18n : Bool := false
deriving DecidableEq, Repr

/-! ### Pieces of the skeleton -/

/-- The imports for the test doubles of the network. -/
def backendImports : List Text :=
  [importLine [txt "BaseRequestOptions", txt "Http"] (txt "@angular/http"),
    importLine [txt "MockBackend"] (txt "@angular/http/testing")]

/-- The imports and the loader for support of several languages, when it is wanted. -/
def specLocalisation (i18n : Bool) : List Text :=
  if i18n then Localisation.imports ++ [[]] ++ Localisation.loaderFactory ++ [[]] else []

/-- The module imports for support of several languages, when it is wanted. -/
def specModuleImports (i18n : Bool) : List Text :=
  if i18n then Localisation.moduleImports (txt "forRoot") ++ [[]] else []

/-- The providers of the test doubles of the network. -/
def backendProviders : List Text :=
  [txt "providers: [",
    txt "MockBackend,",
    txt "BaseRequestOptions,",
    ['{'],
    txt "provide: Http,",
    txt "useFactory: (backend: MockBackend, options: BaseRequestOptions) => new Http(backend, options),",
    txt "deps: [MockBackend, BaseRequestOptions]",
    ['}'],
    [']'],
    []]

/-- The head of the outermost suite. -/
def suiteHead (suite : TestNode) : Text :=
  txt "describe('" ++ quoteTitle suite.title ++ txt "', function () \x7b"

/-- The head of a hook that runs before each test. -/
def hookHead : Text := txt "beforeEach(() => \x7b"

/-- The configuration of the test bed with a module. -/
def testBed (c : SpecContext) : List Text :=
  [hookHead, txt "TestBed.configureTestingModule(\x7b", txt "imports: ["] ++
  specModuleImports c.i18n ++
  [c.moduleClass, txt "],"] ++
  backendProviders ++
  [blockEnd, blockEnd, []]

/-! ### Spec files -/

/-- The spec of a component. -/
def componentSpec (suite : TestNode) (c : SpecContext) : Except Fault Text := do
  let content ← suite.content componentTestBody
  return layout <| Text.unlines <|
    [importLine [c.className] c.classFile,
      importLine [c.moduleClass] c.moduleFile,
      importLine [txt "DebugElement"] (txt "@angular/core"),
      importLine [txt "ComponentFixture", txt "TestBed"] (txt "@angular/core/testing")] ++
    backendImports ++
    specLocalisation c.i18n ++
    [[],
      suiteHead suite,
      [],
      txt "let fixture: ComponentFixture<" ++ c.className ++ txt ">;",
      txt "let component: " ++ c.className ++ [';'],
      txt "let debugElement: DebugElement;",
      [],
      commentOut suite.body,
      []] ++
    testBed c ++
    [hookHead,
      txt "fixture = TestBed.createComponent(" ++ c.className ++ txt ");",
      txt "component = fixture.componentInstance;",
      txt "debugElement = fixture.debugElement;",
      blockEnd,
      [],
      content,
      blockEnd]

/-- The spec of a service. -/
def serviceSpec (suite : TestNode) (c : SpecContext) : Except Fault Text := do
  let content ← suite.content serviceTestBody
  return layout <| Text.unlines <|
    [importLine [c.moduleClass] c.moduleFile,
      importLine [c.className] c.classFile,
      importLine [txt "TestBed"] (txt "@angular/core/testing")] ++
    backendImports ++
    specLocalisation c.i18n ++
    [[],
      suiteHead suite,
      [],
      txt "let service: " ++ c.className ++ [';'],
      [],
      commentOut suite.body,
      []] ++
    testBed c ++
    [hookHead,
      txt "service = new " ++ c.className ++ txt "();",
      blockEnd,
      [],
      content,
      blockEnd]

/-- The spec of the pipes of a file. Generated pipe files carry the given suffix in their names. -/
def pipeSpec (suite : TestNode) (suffix : Text) (i18n : Bool) : Except Fault Text := do
  let content ← suite.content pipeTestBody
  return layout <| Text.unlines <|
    [importLine [txt "TestBed"] (txt "@angular/core/testing")] ++
    backendImports ++
    specLocalisation i18n ++
    pipeImports content suffix ++
    [[],
      suiteHead suite,
      [],
      commentOut suite.body,
      [],
      hookHead,
      txt "TestBed.configureTestingModule(\x7b"] ++
    (if i18n then [txt "imports: ["] ++ specModuleImports i18n ++ [txt "],"] else []) ++
    backendProviders ++
    [blockEnd, blockEnd, [], content, blockEnd]

end AngularUplift
