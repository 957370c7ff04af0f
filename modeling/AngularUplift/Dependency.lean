import AngularUplift.Receiver
import AngularUplift.Text.Delimiter

/-!
# Injected dependencies of directives

When a directive becomes a component, its scope is no longer injected, and an injected token that is named like
a binding is shadowed by it. A body that uses such a token is made to read the binding through the controller, or
gets warnings above the lines that may depend on it.

## Main definitions

* `DependencyRole`, `dependencyRole`: how an injected token is treated.
* `qualifyShadowed`: a body with the uses of a token read through the controller.
* `annotateUndeclared`: a body with a warning above every assignment that uses a token.
-/

namespace AngularUplift

/-- How an injected token is treated. -/
inductive DependencyRole where
  /-- It is injected as before. -/
  | kept
  /-- A binding of the same name takes its place. -/
  | shadowed
  /-- It is the scope, which components do not have. -/
  | droppedScope
deriving DecidableEq, Repr

/-- The word for a role. -/
def DependencyRole.label : DependencyRole → Text
  | .kept => txt "kept"
  | .shadowed => txt "shadowed"
  | .droppedScope => txt "dropped_scope"

/-- How a token is treated, given the bindings. Tokens of the framework, which have a `$`, are never shadowed. -/
def dependencyRole (bindings : List Text) (token : Text) : DependencyRole :=
  if token = txt "$scope" then .droppedScope
  else if !token.elem '$' && bindings.elem token then .shadowed
  else .kept

/-- The tokens with a role, in order. -/
def tokensWithRole (role : DependencyRole) (bindings tokens : List Text) : List Text :=
  tokens.filter fun token => dependencyRole bindings token = role

/-- The parameters of a function, up to their opening parenthesis. -/
def functionParameters : Pattern Unit where
  left := wordEdge
  read := do
    Reader.exactly (txt "function")
    Reader.endOfWord
    let _ ← Reader.blanks
    let _ ← Reader.run isName
    let _ ← Reader.blanks
    Reader.exactly ['(']

/-- The parameters of an arrow function, with its arrow. -/
def arrowParameters : Pattern Unit where
  left := anywhere
  read := do
    Reader.exactly ['(']
    let _ ← Reader.run fun c => c != '(' && c != ')'
    Reader.exactly [')']
    let _ ← Reader.blanks
    Reader.exactly (txt "=>")

/-- The stretches of a body that are parameter lists. -/
def parameterSpans (body : Text) : List (Nat × Nat) :=
  let functions := (functionParameters.occurrences body).filterMap fun found =>
    match Delimiter.paren.close body ((found.stop : Int) - 1) with
    | .ok stop => some (found.stop, stop)
    | .error _ => none
  functions ++ (arrowParameters.occurrences body).map fun found => (found.start, found.stop)

/-- The words after which a name is being declared. -/
def declarationWords : List Text := [txt "var ", txt "let ", txt "const "]

/-- A use of a name: whole, not a member, and not directly after a declarator. -/
def nameUse (name : Text) : Pattern Unit where
  left := fun before after =>
    freeName before after && !declarationWords.any fun word => before.startsWith word.reverse
  read := do
    Reader.exactly name
    Reader.notNext isName

/-- Whether an occurrence of a name binds or labels something rather than reading the name: a parameter, or
a key of an object. -/
def isBinding (body : Text) (parameters : List (Nat × Nat)) (found : Occurrence Unit) : Bool :=
  let after := Text.trimLeft (body.drop found.stop)
  let before := Text.trimRight (body.take found.start)
  parameters.any (fun (start, stop) => start ≤ found.start && found.start < stop) ||
    after.startsWith (txt "=>") ||
    (after.startsWith [':'] && before.getLast?.any fun c => c == '{' || c == ',')

/-- A body in which a shadowed token is read through the controller. -/
def qualifyShadowed (name body : Text) : Text :=
  let parameters := parameterSpans body
  (nameUse name).replaceFound
    (fun found => if isBinding body parameters found then name else txt "ctrl." ++ name) body

/-- An equals sign that is part of no comparison. -/
def assignmentSign : Pattern Unit where
  left := notAfter fun c => c == '=' || c == '!' || c == '<' || c == '>'
  read := do
    Reader.exactly ['=']
    Reader.notNext (· == '=')

/-- A name that is whole, though it may be a member. -/
def wholeName (name : Text) : Pattern Unit where
  left := notAfter isName
  read := do
    Reader.exactly name
    Reader.notNext isName

/-- A line, after a warning if it is an assignment that uses the name. -/
def annotateLine (name line : Text) : List Text :=
  let content := Text.trimLeft line
  if (wholeName name).occursIn line && assignmentSign.occursIn line && !content.startsWith (txt "//") then
    [line.take (line.length - content.length) ++ txt "// WARNING : " ++ name ++ txt " may be not declared",
      line]
  else [line]

/-- A body with a warning above every assignment that uses the name. -/
def annotateUndeclared (name body : Text) : Text :=
  Text.join ['\n'] (body.lines.flatMap (annotateLine name))

end AngularUplift
