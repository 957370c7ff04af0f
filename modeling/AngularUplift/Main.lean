import AngularUplift.CommandLine.Run

/-!
# The program

Loads the files that a command line can reach, runs the command on them, and writes down what it leaves behind.
Files in folders that are never walked are noted, but not read.
-/

namespace AngularUplift.Program

/-- How deep folders are walked. -/
def deepest : Nat := 64

/-- Whether the content of a file can matter to a command that does not name the file. -/
def isRelevant (name : Text) : Bool :=
  [txt ".js", txt ".html", txt ".yml", txt ".yaml"].any (Text.endsWith name)

/-- The octets of a file, or none when it cannot be read. -/
def octetsOf (path : String) : IO (List UInt8) := do
  try
    let bytes ← IO.FS.readBinFile path
    return bytes.toList
  catch _ => return []

/-- Adds what is at a path to a tree: a file, or a folder with what is below it. -/
def load (depth : Nat) (wanted : Bool) (path : Path) (tree : FileTree) : IO FileTree := do
  let text := String.ofList path.display
  let here ← IO.currentDir
  let place := here / text
  match depth with
  | 0 => return tree
  | depth + 1 =>
    if ← place.isDir then
      let mut tree := { tree with folders := tree.folders ++ [path.parts] }
      for entry in ← place.readDir do
        let name := txt entry.fileName
        let inner := path.append { parts := [name] }
        let skipped := excludedFolders.elem name
        tree ← load depth (!skipped && wanted) inner tree
      return tree
    else if ← place.pathExists then
      let octets ← if wanted && isRelevant path.name then octetsOf text else pure []
      return { tree with files := FileTree.setFile (path.parts) octets tree.files }
    else return tree

/-- Adds what an argument can stand for to a tree: the file or folder itself, and the folder that it is in. -/
def loadArgument (cwd : Path) (argument : Text) (tree : FileTree) : IO FileTree := do
  let value := match CommandLine.cutValue? argument with
    | some (_, value) => value
    | none => argument
  let path := cwd.resolve (Path.parse value)
  let text := String.ofList path.display
  let here ← IO.currentDir
  let place := here / text
  if ← place.isDir then load deepest true path tree
  else if ← place.pathExists then
    let tree ← load 2 true path.parent tree
    let octets ← octetsOf text
    return { tree with files := FileTree.setFile (path.parts) octets tree.files }
  else return tree

/-- Writes a file of a tree, with the folders it needs. -/
def store (place : List Text) (octets : List UInt8) : IO Unit := do
  let path : Path := { anchor := ['/'], parts := place }
  IO.FS.createDirAll (String.ofList path.parent.display)
  IO.FS.writeBinFile (String.ofList path.display) (ByteArray.mk octets.toArray)

/-- Runs a command line on the files of the machine. -/
def run (arguments : List Text) : IO UInt32 := do
  let cwd := Path.parse (txt (← IO.currentDir).toString)
  let mut tree ← load deepest true cwd {}
  for argument in arguments do
    tree ← loadArgument cwd argument tree
  let time := txt (toString (← IO.monoMsNow))
  let homes : Homes := ((← IO.getEnv "HOME").map fun home => ([], Path.parse (txt home))).toList
  match CommandLine.run { tree, cwd, homes, time } arguments with
  | .error fault =>
    IO.eprintln (String.ofList (fault.category ++ txt ": " ++ fault.message))
    return 1
  | .ok outcome =>
    for (place, octets) in outcome.tree.files do
      if tree.files.lookup place != some octets then store place octets
    IO.print (String.ofList outcome.output)
    IO.eprint (String.ofList outcome.console)
    for (host, port) in outcome.served do
      IO.eprintln (String.ofList (txt "Service address: " ++ host ++ [':'] ++ Text.ofInt port))
    return outcome.exit.toUInt32

end AngularUplift.Program

/-- Runs the command line. -/
def main (arguments : List String) : IO UInt32 :=
  AngularUplift.Program.run (arguments.map AngularUplift.txt)
