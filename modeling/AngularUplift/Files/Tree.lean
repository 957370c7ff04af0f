import AngularUplift.Fault
import AngularUplift.Files.Home
import AngularUplift.Files.Utf8

/-!
# File trees

The files that a run sees and writes, by their absolute paths. A folder is there when a file lies below it or
when it was made. A path is followed part by part, and every part but the last one has to be a folder, also where
the next part is a step upwards.

## Main definitions

* `FileTree`: files and the folders that were made.
* `FileTree.locate`: where a path leads.
* `FileTree.isFile`, `FileTree.isFolder`, `FileTree.isPresent`: what is there.
* `FileTree.read`, `FileTree.write`: the octets of a file, and the tree with a file written.
* `FileTree.makeFolder`: the tree with a folder and those above it.
-/

namespace AngularUplift

/-- Files and the folders that were made, by the parts of their absolute paths. -/
structure FileTree where
  /-- The files with their octets. -/
  files : List (List Text × List UInt8) := []
  /-- The folders that were made, besides those that hold files. -/
  folders : List (List Text) := [[]]
deriving Repr

namespace FileTree

/-! ### Places -/

/-- Whether one list of parts lies properly below another. -/
def isBelow (inner outer : List Text) : Bool := outer.length < inner.length && outer.isPrefixOf inner

/-- The octets of the file at a place, if there is one. -/
def octets? (tree : FileTree) (place : List Text) : Option (List UInt8) := tree.files.lookup place

/-- Whether there is a folder at a place. -/
def hasFolder (tree : FileTree) (place : List Text) : Bool :=
  tree.folders.any (fun folder => folder == place || isBelow folder place) ||
    tree.files.any fun (file, _) => isBelow file place

/-- The most octets that a name has. -/
def longestName : Nat := 255

/-- The most octets that a path has. -/
def longestPath : Nat := 4095

/-- The place that parts lead to from a place on; `shown` is the path that a fault names. -/
def follow (tree : FileTree) (shown : Text) : (place parts : List Text) → Except Fault (List Text)
  | place, [] => .ok place
  | place, part :: rest =>
    if !tree.hasFolder place then
      .error (if (tree.octets? place).isSome then .notDirectory shown else .noSuchFile shown)
    else if part = txt ".." then follow tree shown place.dropLast rest
    else if longestName < (Utf8.encode part).length then .error (.nameTooLong shown)
    else follow tree shown (place ++ [part]) rest

/-- The place that a path, read from inside `cwd`, leads to. There need not be anything at the place itself. -/
def locate (tree : FileTree) (cwd path : Path) : Except Fault (List Text) :=
  if path.hasNull then .error .nullInPath
  else if longestPath < (Utf8.encode path.display).length then .error (.nameTooLong path.display)
  else tree.follow path.display [] (cwd.append path).parts

/-- Whether something that holds of a place holds of where a path leads. It does not where the path leads nowhere;
only a name that is too long is a fault. -/
def check (tree : FileTree) (cwd path : Path) (holds : List Text → Bool) : Except Fault Bool :=
  match tree.locate cwd path with
  | .ok place => .ok (holds place)
  | .error (.nameTooLong shown) => .error (.nameTooLong shown)
  | .error _ => .ok false

/-- Whether there is a file at a path. -/
def isFile (tree : FileTree) (cwd path : Path) : Except Fault Bool :=
  tree.check cwd path fun place => (tree.octets? place).isSome

/-- Whether there is a folder at a path. -/
def isFolder (tree : FileTree) (cwd path : Path) : Except Fault Bool := tree.check cwd path tree.hasFolder

/-- Whether there is anything at a path. -/
def isPresent (tree : FileTree) (cwd path : Path) : Except Fault Bool :=
  tree.check cwd path fun place => (tree.octets? place).isSome || tree.hasFolder place

/-! ### Reading -/

/-- The files below a place, by the parts of their paths from the place on. -/
def filesBelow (tree : FileTree) (place : List Text) : List (List Text) :=
  tree.files.filterMap fun (file, _) =>
    if isBelow file place then some (file.drop place.length) else none

/-- The names of the files directly in a folder, in the order of their code points. -/
def fileNames (tree : FileTree) (cwd folder : Path) : Except Fault (List Text) := do
  let place ← tree.locate cwd folder
  if tree.hasFolder place then
    let names := (tree.filesBelow place).filterMap fun parts =>
      match parts with
      | [name] => some name
      | _ => none
    return names.mergeSort Text.atMost
  else if (tree.octets? place).isSome then throw (.notDirectory folder.display)
  else throw (.noSuchFile folder.display)

/-- The octets of the file at a path. The fault shows the path as it was given. -/
def read (tree : FileTree) (cwd path : Path) : Except Fault (List UInt8) := do
  let place ← tree.locate cwd path
  match tree.octets? place with
  | some octets => return octets
  | none => throw (if tree.hasFolder place then .isDirectory path.display else .noSuchFile path.display)

/-! ### Writing -/

/-- The entries with the file at a place set: a file that was there keeps its place in the list. -/
def setFile (place : List Text) (octets : List UInt8) :
    List (List Text × List UInt8) → List (List Text × List UInt8)
  | [] => [(place, octets)]
  | (file, old) :: rest =>
    if file = place then (place, octets) :: rest else (file, old) :: setFile place octets rest

/-- The tree with a file written at a path, whose folder must be there. -/
def write (tree : FileTree) (cwd path : Path) (octets : List UInt8) : Except Fault FileTree := do
  let place ← tree.locate cwd path
  if tree.hasFolder place then throw (.isDirectory path.display)
  else return { tree with files := setFile place octets tree.files }

/-- The tree with a new folder at a path, whose own folder must be there. -/
def addFolder (tree : FileTree) (cwd path : Path) : Except Fault FileTree := do
  let place ← tree.locate cwd path
  if (tree.octets? place).isSome || tree.hasFolder place then throw (.fileExists path.display)
  else return { tree with folders := tree.folders ++ [place] }

/-- The tree with a folder at a path, given an attempt to make it: a folder that is already there will do. -/
def orPresent (tree : FileTree) (cwd path : Path) (fault : Fault) : Except Fault FileTree := do
  if fault = .nullInPath then throw fault
  else if ← tree.isFolder cwd path then return tree
  else throw fault

/-- The tree with a folder at a path and all folders above it; `fuel` bounds the number of parts. -/
def makeFolders (cwd : Path) : (fuel : Nat) → FileTree → Path → Except Fault FileTree
  | 0, tree, path => tree.addFolder cwd path
  | fuel + 1, tree, path =>
    match tree.addFolder cwd path with
    | .ok made => .ok made
    | .error (.noSuchFile shown) =>
      if path.parts.isEmpty then .error (.noSuchFile shown)
      else do
        let tree ← makeFolders cwd fuel tree path.parent
        match tree.addFolder cwd path with
        | .ok made => return made
        | .error (.noSuchFile shown) => throw (.noSuchFile shown)
        | .error fault => tree.orPresent cwd path fault
    | .error fault => tree.orPresent cwd path fault

/-- The tree with a folder at a path and all folders above it. -/
def makeFolder (tree : FileTree) (cwd path : Path) : Except Fault FileTree :=
  makeFolders cwd (path.parts.length + 1) tree path

end FileTree

end AngularUplift
