import AngularUplift.Log
import AngularUplift.Member
import AngularUplift.Migration.Source
import AngularUplift.Report
import AngularUplift.Settings.Basic
import AngularUplift.Suite.Reader

/-!
# Journals

Migrating a source produces artifacts. On the way it writes log records, adds to the report and may set constants
aside for later; all of that is kept in a journal, and stays there when the migration of a source fails.

## Main definitions

* `Artifact`: a generated file.
* `Journal`: what has been written down so far.
* `Migration`: a step that writes to the journal and may fail.
-/

namespace AngularUplift

/-- A generated file, with its path below the folder for generated files. -/
structure Artifact where
  /-- Its path. -/
  path : Text
  /-- What it holds. -/
  content : Text
deriving DecidableEq, Repr

/-- What has been written down so far. -/
structure Journal where
  /-- The log. -/
  records : List LogRecord := []
  /-- The report. -/
  report : Report := {}
  /-- The constants that wait to be gathered in one file. -/
  constants : List Variable := []
deriving Repr

/-- A step that writes to the journal and may fail. What it wrote before a failure stays written. -/
abbrev Migration (α : Type) := ExceptT Fault (StateM Journal) α

namespace Migration

/-- The outcome of a step and the journal after it. -/
def runFrom {α : Type} (journal : Journal) (step : Migration α) : Except Fault α × Journal :=
  Id.run (step.run.run journal)

/-- Writes log records. -/
def log (records : List LogRecord) : Migration Unit :=
  modify fun journal => { journal with records := journal.records ++ records }

/-- A step that writes only log records. -/
def ofLogged {α : Type} (work : Logged α) : Migration α := do
  let (outcome, records) := work.runFrom []
  log records
  match outcome with
  | .ok value => return value
  | .error fault => throw fault

/-- A step that writes nothing. -/
def ofExcept {α : Type} : Except Fault α → Migration α
  | .ok value => pure value
  | .error fault => throw fault

/-- Adds a node to the report. -/
def report (node : ReportNode) (todo : Bool) : Migration Unit :=
  modify fun journal => { journal with report := journal.report.add node todo }

/-- Reports completed steps. -/
def done (title : Text) (steps : List Text) : Migration Unit := report (.done title steps) false

/-- Reports a step that is left to do. -/
def todo (text : Text) : Migration Unit := report (.pending text) true

/-- Reports that artifacts have to be moved next to their source. -/
def todoMoves (source : Source) (artifacts : List Artifact) : Migration Unit :=
  artifacts.forM fun artifact =>
    todo (txt "Move " ++ bold artifact.path ++ txt " to " ++ bold source.folder)

/-- The area of log records on the migration of a kind. -/
def area (kind : ConstructKind) : Text := txt "movers." ++ kind.label

/-- Logs progress on the migration of a kind. -/
def progress (kind : ConstructKind) (message : Text) : Migration Unit :=
  log [.info (area kind) message]

/-- The number of artifacts, in parentheses. -/
def artifactCount (artifacts : List Artifact) : Text :=
  txt " (" ++ Text.ofNat artifacts.length ++ txt " artifacts)"

/-- Logs a generated file, when the section asks for it. -/
def showGenerated (kind : ConstructKind) (s : OutputSettings) (artifact : Artifact) : Migration Unit :=
  if s.output then progress kind (txt "Generated " ++ artifact.path ++ txt ":\n" ++ artifact.content)
  else pure ()

/-- A generated file in the folder of its key. -/
def artifact (kind : ConstructKind) (s : OutputSettings) (key suffix content : Text) :
    Migration Artifact := do
  let name ← ofExcept (s.fileName key suffix)
  let made : Artifact := ⟨s.generatedFolder ++ ['/'] ++ key ++ ['/'] ++ name, content⟩
  showGenerated kind s made
  return made

/-- The suite of a companion, if there is a companion and it has a suite. -/
def suiteOf (source : Source) (role : CompanionRole) : Migration (Option TestNode) :=
  match source.companion role with
  | [] => return none
  | text => ofLogged (Suite.analyze text)

end Migration

end AngularUplift
