import AngularUplift.CommandLine.Arguments

/-!
# Commands

A command line names a command, before it options of the program and after it what the command is given.

## Main definitions

* `Command`, `Invocation`: a command, with the program's own options.
* `Command.read`: a command from what follows its name.
* `parse?`: the command that a command line asks for.
-/

namespace AngularUplift.CommandLine

/-- What the command `migrate` is given. -/
structure MigrateOptions where
  /-- What is migrated. -/
  paths : List Text
  /-- Where the settings are. -/
  config : Option Text := none
  /-- The folder that receives generated files. -/
  output : Option Text := none
  /-- Whether nothing is written. -/
  dryRun : Bool := false
  /-- The file that the report is written to. -/
  report : Option Text := none
  /-- The file that the log is written to. -/
  logFile : Option Text := none
deriving DecidableEq, Repr

/-- A command. -/
inductive Command where
  /-- Migrates all sources below paths. -/
  | migrate (options : MigrateOptions)
  /-- Shows the model of one source. -/
  | analyse (file : Text) (kind : Option ConstructKind)
  /-- Runs the migration service. -/
  | serve (host : Text) (port : Int)
  /-- Explains the command line. -/
  | help
deriving DecidableEq, Repr

/-- A command with the program's own options. -/
structure Invocation where
  /-- Whether the console shows messages for troubleshooting. -/
  verbose : Bool
  /-- The command. -/
  command : Command
deriving DecidableEq, Repr

/-! ### The commands -/

/-- What the command `migrate` takes. -/
def migrateGrammar : Grammar where
  options :=
    [.help, .verbose, .valued "--config" .text, .valued "--output" .text, .switch ["--dry-run"],
      .valued "--report" .text, .valued "--log-file" .text]
  operands := .any

/-- What the command `analyse` takes. -/
def analyseGrammar : Grammar where
  options := [.help, .verbose, .valued "--kind" .kind]
  operands := .one

/-- What the command `serve` takes. -/
def serveGrammar : Grammar where
  options := [.help, .verbose, .valued "--host" .text, .valued "--port" .number]
  operands := .none

/-- The command `migrate`. Without operands the current folder is migrated. -/
def migrateCommand (a : Arguments) : Command :=
  let operands := a.operands.getD []
  .migrate
    { paths := if operands.isEmpty then [['.']] else operands
      config := a.text? "--config"
      output := a.text? "--output"
      dryRun := a.given "--dry-run"
      report := a.text? "--report"
      logFile := a.text? "--log-file" }

/-- The command `analyse`. -/
def analyseCommand (a : Arguments) : Command :=
  .analyse ((a.operands.bind List.head?).getD []) ((a.value? "--kind").bind ConstructKind.ofLabel?)

/-- The command `serve`. -/
def serveCommand (a : Arguments) : Command :=
  .serve ((a.value? "--host").getD (txt "127.0.0.1")) (((a.value? "--port").bind Text.decimal?).getD 8000)

/-- What a command takes, and how it is made from what it is given. -/
def commandOf? (name : Text) : Option (Grammar × (Arguments → Command)) :=
  if name = txt "migrate" then some (migrateGrammar, migrateCommand)
  else if name = txt "analyse" then some (analyseGrammar, analyseCommand)
  else if name = txt "serve" then some (serveGrammar, serveCommand)
  else none

/-- A command from its name and what follows it; `before` is what comes before the name. -/
def Command.read (before : Arguments) (name : Text) (arguments : List Text) : Except Interruption Invocation :=
  match commandOf? name with
  | none => .error .usage
  | some (grammar, make) => do
    let found ← grammar.read arguments
    if before.hasSurplus || found.hasSurplus then throw .usage
    return ⟨before.given "--verbose" || found.given "--verbose", make found⟩

/-! ### Command lines -/

/-- The options of the program. -/
def programOptions : List OptionSpec := [.help, .verbose]

/-- Reads the program's options up to the name of a command, and then the command. -/
def readProgram (before : Arguments) : List (Text × ArgumentToken) → Except Interruption Invocation
  | [] => .error .usage
  | (text, token) :: rest =>
    match token with
    | .operand _ => Command.read before text (rest.map (·.1))
    | .separator => .error .usage
    | .unknown => readProgram { before with hasSurplus := true } rest
    | .option spec _ none => do
      readProgram (← before.addOption (spec, none)) rest
    | .option spec name (some value) => do
      readProgram (← before.addOptions (← attachedOptions programOptions spec name value)) rest

/-- The command that a command line asks for, if it asks for one. -/
def parse? (verbose : Bool) (arguments : List Text) : Option Invocation :=
  let before : Arguments := if verbose then { options := [(txt "--verbose", none)] } else {}
  match tokens? programOptions arguments with
  | none => none
  | some found =>
    match readProgram before (arguments.zip found) with
    | .ok invocation => some invocation
    | .error .help => some ⟨verbose, .help⟩
    | .error .usage => none

end AngularUplift.CommandLine
