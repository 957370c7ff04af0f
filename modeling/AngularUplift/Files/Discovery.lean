import AngularUplift.Construct.Detection
import AngularUplift.Files.Glob
import AngularUplift.Files.Tree
import AngularUplift.Log
import AngularUplift.Migration.Source

/-!
# Discovering sources

Every script below the given paths is looked at. Its kind is told from its content, and the files next to it with
the same key become its companions. A file that is a companion of some source is no source of its own, and specs
are only ever companions.

## Main definitions

* `sourcePaths`: the scripts below a path, in the order in which folders are walked.
* `companions`: the companions of a file, by role.
* `discover`: the sources below paths.
-/

namespace AngularUplift

/-- The folders that are never walked into. -/
def excludedFolders : List Text :=
  [txt ".git", txt ".hg", txt ".svn", txt "node_modules", txt "bower_components", txt "dist",
    txt "__pycache__", txt ".idea", txt "generated"]

/-- The order in which files are met: the files of a folder before those of its subfolders, and each by their
names. -/
def walkBefore : List Text → List Text → Bool
  | [], _ => true
  | _ :: _, [] => false
  | [a], [b] => a.atMost b
  | [_], _ :: _ :: _ => true
  | _ :: _ :: _, [_] => false
  | a :: as, b :: bs => if a = b then walkBefore as bs else a.atMost b

/-- Whether a file below a walked folder is a script in no excluded folder. -/
def isWalkedScript (parts : List Text) : Bool :=
  !parts.dropLast.any excludedFolders.elem && Text.endsWith (parts.getLast?.getD []) (txt ".js")

/-- The scripts at or below a path that no pattern excludes. A path to a file is always taken, and there are none
below a path that leads nowhere. -/
def sourcePaths (tree : FileTree) (exclude : List Text) (base : Path) : Except Fault (List Path) := do
  if ← tree.isFile {} base then return [base]
  else
    match tree.locate {} base with
    | .error .nullInPath => throw .nullInPath
    | .error _ => return []
    | .ok place =>
      let scripts := ((tree.filesBelow place).filter isWalkedScript).mergeSort walkBefore
      let wanted := scripts.filter fun parts =>
        !exclude.any fun pattern => Glob.matchesAll pattern (Text.join ['/'] parts)
      return wanted.map fun parts => { base with parts := base.parts ++ parts }

/-- The text of a file. -/
def sourceText (tree : FileTree) (path : Path) : Except Fault Text :=
  Utf8.readLenient <$> tree.read {} path

/-- The role of a file next to a source with the same key. -/
def companionRole? (tree : FileTree) (path : Path) : Except Fault (Option CompanionRole) := do
  let name := path.name
  if Text.endsWith name (txt ".html") then
    return if Text.contains name (txt "demo") then none else some .template
  else if !Text.endsWith name (txt ".js") then return none
  else if Text.contains name (txt ".controller.spec.") then return some .controllerSpec
  else if Text.contains name (txt ".spec.") then return some .spec
  else if Text.contains name (txt ".controller.") then return some .controller
  else
    let text ← sourceText tree path
    return if ConstructKind.marks text .controller then some .controller else none

/-- Companions with one more; the first one in a role counts. -/
def addCompanion (found : List (CompanionRole × Path)) (entry : CompanionRole × Path) :
    List (CompanionRole × Path) :=
  if found.any (·.1 == entry.1) then found else found ++ [entry]

/-- The companions of a file: the files next to it with the same key, by role. -/
def companions (tree : FileTree) (path : Path) : Except Fault (List (CompanionRole × Path)) := do
  let siblings := (← tree.fileNames {} path.parent).filter (· != path.name)
  let candidates := (siblings.map fun name => { path.parent with parts := path.parent.parts ++ [name] }).filter
    fun candidate => fileKey candidate == fileKey path
  let roles ← candidates.mapM fun candidate => do
    return (← companionRole? tree candidate).map (·, candidate)
  return (roles.filterMap id).foldl addCompanion []

/-- A source and the paths of its companions. -/
structure Discovered where
  /-- The source. -/
  source : Source
  /-- The files that are its companions. -/
  companionFiles : List Path

/-- The source at a path, if its content tells a kind that is migrated. -/
def discoverAt (tree : FileTree) (path : Path) : Except Fault (Option Discovered × List LogRecord) := do
  let text ← sourceText tree path
  match ConstructKind.detect? text with
  | none =>
    return (none, [.debug (txt "sources") (txt "Skipping " ++ path.display ++ txt ": no known registration")])
  | some .spec => return (none, [])
  | some kind =>
    let found := (← companions tree path).filter fun (role, _) =>
      !(kind = .controller && role == CompanionRole.controller)
    let texts ← found.mapM fun (role, file) => do
      return (role, ← sourceText tree file)
    return (some { source := Source.make path text kind texts [], companionFiles := found.map (·.2) }, [])

/-- The sources at or below paths, without those that are companions of another one. -/
def discover (tree : FileTree) (exclude : List Text) (paths : List Path) :
    Except Fault (List Source × List LogRecord) := do
  let scripts ← paths.mapM (sourcePaths tree exclude)
  let outcomes ← scripts.flatten.mapM (discoverAt tree)
  let found := outcomes.filterMap (·.1)
  let taken := found.flatMap (·.companionFiles)
  return ((found.map (·.source)).filter (!taken.elem ·.path), outcomes.flatMap (·.2))

end AngularUplift
