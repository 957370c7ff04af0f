import AngularUplift.CommandLine.Command
import AngularUplift.Construct.Record
import AngularUplift.Files.Discovery
import AngularUplift.Migration.Batch
import AngularUplift.Settings.File

/-!
# Running commands

A command reads from and writes to a file tree. What it shows goes to one of two channels: results to the output,
and messages to the console, where log records come first.

## Main definitions

* `Outcome`: the exit code, the channels, the files, and the addresses at which the service was to run.
* `run`: the outcome of a command line.
-/

namespace AngularUplift.CommandLine

/-- What a command leaves behind. -/
structure Outcome where
  /-- The exit code. -/
  exit : Nat := 0
  /-- The results. -/
  output : Text := []
  /-- The messages. -/
  console : Text := []
  /-- The files. -/
  tree : FileTree
  /-- The addresses at which the service was to run. -/
  served : List (Text × Int) := []

/-- Where a command runs. -/
structure Environment where
  /-- The files. -/
  tree : FileTree
  /-- The folder that relative paths are read from. -/
  cwd : Path
  /-- The home folders of users. -/
  homes : Homes := [([], Path.parse (txt "/root")), (txt "root", Path.parse (txt "/root"))]
  /-- Whether the console shows messages for troubleshooting. -/
  verbose : Bool := false
  /-- The time of the run, for the log that is kept. -/
  time : Text := []
  /-- Why the service cannot be started, if it cannot. -/
  serviceFault : Option Text := none

/-- The records that the console shows. -/
def consoleRecords (verbose : Bool) (records : List LogRecord) : Text :=
  (records.filter fun record => verbose || record.level != .debug).flatMap LogRecord.consoleLine

/-- An outcome that a message ends. -/
def failed (tree : FileTree) (records message : Text) : Outcome :=
  { exit := 1, console := records ++ message ++ ['\n'], tree }

/-- The advice that ends the message on an unexpected failure. -/
def advice : Text := txt "Run with --verbose for more details."

/-! ### The command `migrate` -/

/-- The tree with the log file at a path, and the folders it needs. -/
def startLog (env : Environment) (path : Path) : Except Fault FileTree := do
  let tree ← env.tree.makeFolder env.cwd path.parent
  tree.write {} (env.cwd.resolve path) []

/-- What a batch comes to, for the output. -/
def resultText (cwd : Path) (settings : Settings) (dryRun : Bool) (summary : Summary) : Text :=
  if dryRun then
    Text.unlines ((Text.ofNat summary.artifacts.length ++ txt " file(s) would be generated (dry-run):") ::
      summary.artifacts.map fun artifact => txt "  " ++ artifact.path)
  else
    txt "Generated " ++ Text.ofNat summary.written.length ++ txt " file(s) in " ++
      Path.displayFrom cwd settings.outputRoot ++ ['\n']

/-- The tree with the log of a run, if it is kept. -/
def finishLog (env : Environment) (logFile : Option Path) (records : List LogRecord) (tree : FileTree) :
    Except Fault FileTree :=
  match logFile with
  | none => .ok tree
  | some path =>
    let lines := records.flatMap (LogRecord.runLogLine env.time)
    tree.write {} (env.cwd.resolve path) (Utf8.encode lines)

/-- The path that an argument means, with its tilde expanded. -/
def pathOf (env : Environment) (argument : Text) : Except Fault Path := (Path.parse argument).expandHome env.homes

/-- The absolute path that an argument means. -/
def resolvedPathOf (env : Environment) (argument : Text) : Except Fault Path := do
  env.cwd.resolved (← pathOf env argument)

/-- Migrates sources with settings. -/
def migrateSources (env : Environment) (options : MigrateOptions) (settings : Settings) (logFile : Option Path)
    (sources : List Source) (records : List LogRecord) : Except Fault Outcome := do
  let target := if options.dryRun then .dryRun else .folder settings.outputRoot
  let state := Batch.run settings ConstructKind.migrationOrder target { records } env.tree sources
  let records := state.journal.records
  let tree ← finishLog env logFile records state.tree
  let tree ← match options.report with
    | none => pure tree
    | some file => tree.write env.cwd (Path.parse file) (Utf8.encode state.journal.report.markdown)
  let console := consoleRecords env.verbose records
  let output := resultText env.cwd settings options.dryRun state.summary
  let failures := state.summary.failures.length
  if failures = 0 then return { output, console, tree }
  else
    let message := Text.ofNat failures ++ txt " file(s) could not be migrated.\n" ++ advice
    return { failed tree console message with output }

/-- Migrates the sources below paths, all of which are there. -/
def migratePaths (env : Environment) (options : MigrateOptions) (logFile : Option Path) (paths : List Path) :
    Except Fault Outcome := do
  let place ← match options.config with
    | some config => pathOf env config
    | none => pure (paths.headD env.cwd)
  match Settings.load env.tree env.cwd place with
  | .error fault =>
    if fault.category = txt "ConfigError" then return failed env.tree [] fault.message else throw fault
  | .ok settings =>
    let outputDir ← match options.output with
      | some folder => some <$> resolvedPathOf env folder
      | none => pure settings.outputDir
    match discover env.tree settings.excludePaths paths with
    | .error fault =>
      return failed env.tree [] (txt "ngmigrate migrate failed: " ++ fault.message ++ ['\n'] ++ advice)
    | .ok (sources, records) =>
      migrateSources env options { settings with outputDir } logFile sources records

/-- Runs the command `migrate`. The log file comes first, before any path is looked at. -/
def migrate (env : Environment) (options : MigrateOptions) : Except Fault Outcome := do
  let logFile ← options.logFile.mapM (pathOf env)
  let tree ← match logFile with
    | none => pure env.tree
    | some file => startLog env file
  let env := { env with tree }
  let paths ← options.paths.mapM (resolvedPathOf env)
  let found ← paths.mapM fun path => do
    return (path, ← tree.isPresent {} path)
  match found.find? fun (_, isPresent) => !isPresent with
  | some (missing, _) => return failed tree [] (txt "Path not found: " ++ missing.display)
  | none => migratePaths env options logFile paths

/-! ### The other commands -/

/-- Shows the model of a text, taken for a construct of a kind. -/
def analyseText (env : Environment) (kind : ConstructKind) (text : Text) : Outcome :=
  let (model, records) := (kind.analyze text).runFrom []
  let console := consoleRecords env.verbose records
  match model with
  | .error fault =>
    failed env.tree console (txt "ngmigrate analyse failed: " ++ fault.message ++ ['\n'] ++ advice)
  | .ok model =>
    let shown := Literal.ofFields [("kind", .text kind.label), ("model", model.record)]
    { output := shown.jsonIndented 0 ++ ['\n'], console, tree := env.tree }

/-- Whether a fault comes from the files rather than from how they are named. -/
def isFileFault : Fault → Bool
  | .noSuchFile _ | .notDirectory _ | .isDirectory _ | .fileExists _ | .nameTooLong _ => true
  | _ => false

/-- Runs the command `analyse`. -/
def analyse (env : Environment) (file : Text) (kind : Option ConstructKind) : Except Fault Outcome := do
  let path ← pathOf env file
  match env.tree.read env.cwd path with
  | .error fault => if isFileFault fault then return failed env.tree [] fault.message else throw fault
  | .ok octets =>
    match Utf8.readStrict? octets with
    | none => throw .notUtf8
    | some text =>
      match kind.orElse fun _ => ConstructKind.detect? text with
      | none => return failed env.tree [] (txt "No AngularJS construct recognised in " ++ path.display)
      | some kind => return analyseText env kind text

/-- Runs the command `serve`. -/
def serve (env : Environment) (host : Text) (port : Int) : Outcome :=
  match env.serviceFault with
  | none => { tree := env.tree, served := [(host, port)] }
  | some message =>
    { failed env.tree [] (txt "ngmigrate serve failed: " ++ message) with served := [(host, port)] }

/-- The exit code for a command line that asks for no command. -/
def usageExit : Nat := 2

/-- The outcome of a command line. A fault is one that no command deals with. -/
def run (env : Environment) (arguments : List Text) : Except Fault Outcome :=
  match parse? env.verbose arguments with
  | none => .ok { exit := usageExit, tree := env.tree }
  | some invocation =>
    let env := { env with verbose := invocation.verbose }
    match invocation.command with
    | .migrate options => migrate env options
    | .analyse file kind => analyse env file kind
    | .serve host port => .ok (serve env host port)
    | .help => .ok { tree := env.tree }

end AngularUplift.CommandLine
