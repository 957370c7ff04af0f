import AngularUplift.Files.Tree
import AngularUplift.Migration.Component
import AngularUplift.Migration.Directive
import AngularUplift.Migration.Service

/-!
# Batches

A batch takes its sources kind by kind, and within a kind in their order. When the migration of a source fails,
the failure is written down and the batch goes on. At the end the constants that were set aside are gathered.

## Main definitions

* `migrate`: one source, by its kind.
* `finish`: what a kind still has to produce at the end.
* `migrateText`: one source on its own.
* `Summary`, `Batch.run`: a batch of sources and what came of it.
-/

namespace AngularUplift

/-- Migrates a source by its kind. Unit tests are migrated with the construct they belong to. -/
def migrate (settings : Settings) (source : Source) : Migration (List Artifact) :=
  match source.kind with
  | .component => Migration.component settings source
  | .controller => Migration.controller settings source
  | .directive => Migration.directive settings source
  | .attributeDirective => Migration.attributeDirective settings source
  | .service => Migration.service settings source
  | .filter => Migration.filter settings source
  | .constant => Migration.constant source
  | .spec => throw (.notMigratable .spec)

/-- What can be produced only after all sources of a kind. -/
def finish (settings : Settings) (kind : ConstructKind) : Migration (List Artifact) :=
  if kind = .constant then Migration.gatherConstants settings else return []

/-- The path of a source that is given as a text. -/
def textPath (key : Text) : Path := Path.parse (key ++ txt ".js")

/-- Migrates a text on its own, with all that its kind produces. Without a key the kind's name is the key. -/
def migrateText (settings : Settings) (kind : ConstructKind) (text key : Text)
    (companions : List (CompanionRole × Text)) : Migration (List Artifact) := do
  if !ConstructKind.migrationOrder.elem kind then throw (.notMigratable kind)
  let key := if key.isEmpty then kind.label else key
  let moved ← migrate settings ⟨textPath key, text, kind, companions, key⟩
  let rest ← finish settings kind
  return moved ++ rest

/-- A source, or the end of a kind, that could not be migrated. -/
structure Failure where
  /-- The source, if it was one. -/
  path : Option Path
  /-- The kind. -/
  kind : ConstructKind
  /-- Why. -/
  fault : Fault
deriving DecidableEq, Repr

/-- What came of a batch. -/
structure Summary where
  /-- The generated files. -/
  artifacts : List Artifact := []
  /-- Where they were written. -/
  written : List Path := []
  /-- The sources of kinds that are not migrated. -/
  skipped : List Path := []
  /-- What could not be migrated. -/
  failures : List Failure := []
deriving DecidableEq, Repr

namespace Batch

/-- Where a batch writes: nowhere, or below a folder. -/
inductive Target where
  /-- Nothing is written. -/
  | dryRun
  /-- Generated files are written below a folder. -/
  | folder (root : Path)
deriving DecidableEq, Repr

/-- Where a batch stands. -/
structure State where
  /-- The journal. -/
  journal : Journal := {}
  /-- The files. -/
  tree : FileTree := {}
  /-- What came of the batch so far. -/
  summary : Summary := {}

/-- The area of log records on batches. -/
def area : Text := txt "pipeline"

/-- Writes a log record. -/
def State.log (s : State) (record : LogRecord) : State :=
  { s with journal := { s.journal with records := s.journal.records ++ [record] } }

/-- Logs progress. -/
def State.info (s : State) (message : Text) : State := s.log (.info area message)

/-- Adds a node to the report. -/
def State.report (s : State) (node : ReportNode) (todo : Bool) : State :=
  { s with journal := { s.journal with report := s.journal.report.add node todo } }

/-- Writes one artifact down, below the target's folder if it has one. The first fault ends it. -/
def emitOne (target : Target) (s : State) (artifact : Artifact) : State × Option Fault :=
  let s := { s with summary := { s.summary with artifacts := s.summary.artifacts ++ [artifact] } }
  match target with
  | .dryRun => (s.info (txt "Would write " ++ artifact.path), none)
  | .folder root =>
    let path := root.append (Path.parse artifact.path)
    match s.tree.makeFolder root path.parent with
    | .error fault => (s, some fault)
    | .ok made =>
      match made.write root path (Utf8.encode artifact.content) with
      | .error fault => ({ s with tree := made }, some fault)
      | .ok tree =>
        let s := { s with tree, summary := { s.summary with written := s.summary.written ++ [path] } }
        (s.info (txt "Wrote " ++ path.display), none)

/-- Writes artifacts down, up to the first fault. -/
def emit (target : Target) : State → List Artifact → State × Option Fault
  | s, [] => (s, none)
  | s, artifact :: rest =>
    match emitOne target s artifact with
    | (s, none) => emit target s rest
    | (s, some fault) => (s, some fault)

/-- Writes a failure down. -/
def fail (s : State) (path : Option Path) (kind : ConstructKind) (fault : Fault) : State :=
  let label := match path with
    | some path => path.display
    | none => kind.label ++ txt " output"
  let message := txt "Failed to migrate " ++ label
  let s := s.log ⟨.error, area, message ++ txt ": " ++ fault.message, none⟩
  let s := s.log ⟨.debug, area, message, some fault⟩
  let failure : Failure := { path, kind, fault }
  let s := { s with summary := { s.summary with failures := s.summary.failures ++ [failure] } }
  s.report (.pending (txt "Migrate " ++ bold label ++ txt " manually: " ++ inlineCode fault.message)) true

/-- Runs a step of the migration and writes its artifacts, or its failure, down. -/
def attempt (target : Target) (path : Option Path) (kind : ConstructKind) (step : Migration (List Artifact))
    (s : State) : State :=
  let (outcome, journal) := step.runFrom s.journal
  let s := { s with journal }
  match outcome with
  | .error fault => fail s path kind fault
  | .ok artifacts =>
    match emit target s artifacts with
    | (s, none) => s
    | (s, some fault) => fail s path kind fault

/-- The sources kind by kind, and within a kind in their order; sources of other kinds come last. -/
def ordered (sources : List Source) : List Source :=
  let rank (source : Source) : Nat := ConstructKind.migrationOrder.idxOf source.kind
  sources.mergeSort fun a b => rank a ≤ rank b

/-- Migrates one source of a batch; `kinds` are the kinds that are migrated. -/
def step (settings : Settings) (kinds : List ConstructKind) (target : Target) (s : State) (source : Source) :
    State :=
  if kinds.elem source.kind then
    let s := s.report (.title (source.kind.label ++ [' '] ++ source.path.name) 2 []) false
    attempt target (some source.path) source.kind (migrate settings source) s
  else
    let s := s.log (.debug area
      (txt "No mover for " ++ source.path.display ++ txt " (" ++ source.kind.label ++ txt ")"))
    { s with summary := { s.summary with skipped := s.summary.skipped ++ [source.path] } }

/-- What the last log record of a batch says. -/
def closing (target : Target) (summary : Summary) : Text :=
  txt "Migration finished: " ++ Text.ofNat summary.artifacts.length ++ txt " artifact(s), " ++
    Text.ofNat summary.failures.length ++ txt " failure(s)" ++
    (if target = .dryRun then txt " (dry-run)" else [])

/-- Runs a batch of sources from a journal and files; `kinds` are the kinds that are migrated. -/
def run (settings : Settings) (kinds : List ConstructKind) (target : Target) (journal : Journal)
    (tree : FileTree) (sources : List Source) : State :=
  let s : State := { journal, tree }
  let s := s.info (txt "Migrating " ++ Text.ofNat sources.length ++ txt " source file(s)")
  let s := (ordered sources).foldl (step settings kinds target) s
  let ends := ConstructKind.migrationOrder.filter kinds.elem
  let s := ends.foldl (fun s kind => attempt target none kind (finish settings kind) s) s
  s.info (closing target s.summary)

end Batch

end AngularUplift
