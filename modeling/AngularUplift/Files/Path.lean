import AngularUplift.Text.Basic

/-!
# Paths

A path is a list of parts, absolute or relative. Writing a path down again gives its plain form: without
repeated slashes and without parts that stand for the folder itself.

## Main definitions

* `Path`, `Path.parse`, `Path.display`: a path, read from and written as a text.
* `Path.name`, `Path.parent`, `Path.suffix`: its last part, what comes before, and the extension.
* `Path.append`, `Path.resolve`: a path below another one, and a path without steps upwards.
* `fileKey`: the part of a file's name by which the files of one construct belong together.
-/

namespace AngularUplift

/-- A path. -/
structure Path where
  /-- The slashes that it begins with: none for a relative path. -/
  anchor : Text := []
  /-- The names that lead to its end. -/
  parts : List Text := []
deriving DecidableEq, Repr

namespace Path

/-- The slashes that a text begins with, as far as they matter: exactly two are kept, and more are one. -/
def anchorOf : Text → Text
  | '/' :: '/' :: '/' :: _ => ['/']
  | '/' :: '/' :: _ => ['/', '/']
  | '/' :: _ => ['/']
  | _ => []

/-- The path that a text denotes. -/
def parse (text : Text) : Path :=
  { anchor := anchorOf text
    parts := (text.fields '/').filter fun part => !part.isEmpty && part != ['.'] }

/-- Whether the path is absolute. -/
def isAbsolute (path : Path) : Bool := !path.anchor.isEmpty

/-- The text of a path. -/
def display (path : Path) : Text :=
  if path.anchor.isEmpty && path.parts.isEmpty then ['.']
  else path.anchor ++ Text.join ['/'] path.parts

/-- The last part. -/
def name (path : Path) : Text := path.parts.getLast?.getD []

/-- The path without its last part. -/
def parent (path : Path) : Path := { path with parts := path.parts.dropLast }

/-- A path read from inside another one; an absolute path stays as it is. -/
def append (path other : Path) : Path :=
  if other.isAbsolute then other else { path with parts := path.parts ++ other.parts }

/-- The extension of the last part with its dot. A dot at either end of the name begins none. -/
def suffix (path : Path) : Text :=
  match Text.lastIndexOf? ['.'] path.name with
  | none => []
  | some i => if 0 < i && i + 1 < path.name.length then path.name.drop i else []

/-- The parts after one more step: a step upwards undoes the last one. -/
def step (parts : List Text) (part : Text) : List Text :=
  if part = ['.', '.'] then parts.dropLast else parts ++ [part]

/-- The absolute path that a path means when it is read from inside `folder`, without steps upwards. -/
def resolve (folder path : Path) : Path :=
  let full := folder.append path
  { anchor := full.anchor.take 1, parts := full.parts.foldl step [] }

/-- The path from inside `folder` to a path below it. -/
def relativeTo? (path folder : Path) : Option Path :=
  if path.anchor = folder.anchor ∧ path.parts.take folder.parts.length = folder.parts then
    some { parts := path.parts.drop folder.parts.length }
  else none

/-- The path as seen from inside `folder` where it lies below it, and otherwise in full. -/
def displayFrom (folder path : Path) : Text := ((path.relativeTo? folder).getD path).display

end Path

/-- The key of a file: its name up to the first dot. -/
def fileKey (path : Path) : Text := path.name.takeWhile (· != '.')

end AngularUplift
