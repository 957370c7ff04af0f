import AngularUplift.Files.Tree
import AngularUplift.Settings.Options
import AngularUplift.Yaml.Value

/-!
# Settings files

Settings are looked for in a file of a fixed name, next to what is migrated. Without such a file everything has
its default.
-/

namespace AngularUplift.Settings

/-- The settings file for a path: the path itself when it names a YAML file, and otherwise the file of the fixed
name in the folder that the path is or lies in. -/
def fileFor (tree : FileTree) (cwd path : Path) : Except Fault Path := do
  let settingsFile : Path := { parts := [settingsFileName] }
  if ← tree.isFolder cwd path then cwd.resolved (path.append settingsFile)
  else if path.suffix = txt ".yml" ∨ path.suffix = txt ".yaml" then cwd.resolved path
  else cwd.resolved (path.parent.append settingsFile)

/-- The data of a settings file. -/
def readData (tree : FileTree) (file : Path) : Except Fault Datum := do
  let octets ← tree.read {} file
  match Utf8.readStrict? octets with
  | none => throw .notUtf8
  | some text =>
    if (Text.trim text).isEmpty then return .null
    else
      match Yaml.parse text with
      | .error .malformed => throw (.settingsUnreadable file.name)
      | .error (.invalid fault) => throw (.value fault)
      | .ok data => return data

/-- The settings for a path. -/
def load (tree : FileTree) (cwd path : Path) : Except Fault Settings := do
  let file ← fileFor tree cwd path
  if ← tree.isPresent {} file then ofData file.parent (← readData tree file)
  else return { root := file.parent }

end AngularUplift.Settings
