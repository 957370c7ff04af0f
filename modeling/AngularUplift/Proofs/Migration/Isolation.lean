import AngularUplift.Migration.Batch
import Mathlib.Control.Basic

/-!
# Steps that depend on nothing written before

The migration of a source writes to a journal that all sources share. For every kind but constants, it only adds to
the log and the report: its outcome does not depend on what the journal holds, and the constants that were set
aside stay as they are. Migrating constants adds to those, and its outcome does not depend on the journal either.

## Main definitions

* `Migration.Isolated`: a step whose outcome does not depend on the journal and that sets nothing aside.
* `Migration.setAside`, `Migration.constantsFile`: the constants after one more is set aside, and their file.
* `Source.outcome`, `Source.declared`: what the migration of a source gives on its own, and the constants that it
  sets aside.

## Main statements

* `Migration.Isolated.bind`: steps one after the other are isolated when each of them is.
* `isolated_migrate`: sources of other kinds than constants are migrated in isolation.
* `runFrom_migrate`: what the migration of a source does, whatever the journal holds.
-/

namespace AngularUplift

namespace Migration

variable {α β : Type}

/-! ### Running steps -/

theorem runFrom_pure (value : α) (journal : Journal) :
    (pure value : Migration α).runFrom journal = (.ok value, journal) := rfl

/-- A step that writes nothing. -/
theorem runFrom_ofExcept (outcome : Except Fault α) (journal : Journal) :
    (ofExcept outcome).runFrom journal = (outcome, journal) := by
  cases outcome <;> rfl

/-- Two steps one after the other: the second begins with the journal that the first one leaves, unless the first
one fails. -/
theorem runFrom_bind (step : Migration α) (next : α → Migration β) (journal : Journal) :
    (step >>= next).runFrom journal =
      match step.runFrom journal with
      | (.ok value, journal) => (next value).runFrom journal
      | (.error fault, journal) => (.error fault, journal) := by
  simp only [runFrom, ExceptT.run_bind, StateT.run_bind, Id.run_bind]
  obtain ⟨outcome, journal⟩ := step.run.run journal
  cases outcome <;> rfl

/-! ### Isolated steps -/

/-- A step whose outcome does not depend on the journal, and that leaves the constants set aside as they are. -/
structure Isolated (step : Migration α) : Prop where
  /-- The outcome is the same for all journals. -/
  outcome_eq : ∀ journal other : Journal, (step.runFrom journal).1 = (step.runFrom other).1
  /-- The constants stay as they are. -/
  constants_eq : ∀ journal : Journal, (step.runFrom journal).2.constants = journal.constants

namespace Isolated

protected theorem pure (value : α) : Isolated (pure value : Migration α) where
  outcome_eq := fun _ _ => rfl
  constants_eq := fun _ => rfl

protected theorem throw (fault : Fault) : Isolated (throw fault : Migration α) where
  outcome_eq := fun _ _ => rfl
  constants_eq := fun _ => rfl

/-- Steps one after the other are isolated when each of them is. -/
protected theorem bind {step : Migration α} {next : α → Migration β} (hstep : Isolated step)
    (hnext : ∀ value, Isolated (next value)) : Isolated (step >>= next) where
  outcome_eq := by
    intro journal other
    -- The first step comes to the same on both journals, and so decides in the same way what comes next.
    have hsame := hstep.outcome_eq journal other
    rw [runFrom_bind, runFrom_bind]
    generalize step.runFrom journal = first at hsame ⊢
    generalize step.runFrom other = second at hsame ⊢
    obtain ⟨outcome, middle⟩ := first
    obtain ⟨_, middle'⟩ := second
    obtain rfl := hsame
    cases outcome with
    | error fault => rfl
    | ok value => exact (hnext value).outcome_eq middle middle'
  constants_eq := by
    intro journal
    have hkept := hstep.constants_eq journal
    rw [runFrom_bind]
    generalize step.runFrom journal = first at hkept ⊢
    obtain ⟨outcome, middle⟩ := first
    cases outcome with
    | error fault => exact hkept
    | ok value => exact ((hnext value).constants_eq middle).trans hkept

/-- A step that is made only under a condition. -/
theorem onlyIf {c : Prop} [Decidable c] {step : Migration Unit} {next : Unit → Migration β}
    (hstep : Isolated step) (hnext : ∀ value, Isolated (next value)) :
    Isolated (if c then step >>= next else next ()) := by
  split
  · exact hstep.bind hnext
  · exact hnext ()

/-- A step that is made unless a condition holds. -/
theorem exceptIf {c : Prop} [Decidable c] {step : Migration Unit} {next : Unit → Migration β}
    (hstep : Isolated step) (hnext : ∀ value, Isolated (next value)) :
    Isolated (if c then next () else step >>= next) := by
  split
  · exact hnext ()
  · exact hstep.bind hnext

/-- The same isolated step for each item of a list. -/
theorem forM {step : α → Migration PUnit} (hstep : ∀ item, Isolated (step item)) (items : List α) :
    Isolated (items.forM step) := by
  induction items with
  | nil => exact .pure _
  | cons item items ih => exact (hstep item).bind fun _ => ih

/-- The values of the same isolated step for each item of a list. -/
theorem mapM {step : α → Migration β} (hstep : ∀ item, Isolated (step item)) (items : List α) :
    Isolated (items.mapM step) := by
  induction items with
  | nil => exact .pure _
  | cons item items ih =>
    rw [List.mapM_cons]
    exact (hstep item).bind fun _ => ih.bind fun _ => .pure _

/-! ### The steps of the journal -/

theorem log (records : List LogRecord) : Isolated (log records) where
  outcome_eq := fun _ _ => rfl
  constants_eq := fun _ => rfl

theorem report (node : ReportNode) (todo : Bool) : Isolated (report node todo) where
  outcome_eq := fun _ _ => rfl
  constants_eq := fun _ => rfl

theorem done (title : Text) (steps : List Text) : Isolated (done title steps) := report ..

theorem todo (text : Text) : Isolated (todo text) := report ..

theorem progress (kind : ConstructKind) (message : Text) : Isolated (progress kind message) := log _

/-- A step that writes nothing is isolated. -/
theorem ofExcept (outcome : Except Fault α) : Isolated (ofExcept outcome) := by
  cases outcome with
  | ok value => exact .pure value
  | error fault => exact .throw fault

/-- A step that writes only log records is isolated. -/
theorem ofLogged (work : Logged α) : Isolated (ofLogged work) := by
  unfold Migration.ofLogged
  refine .bind (log _) fun _ => ?_
  split
  · exact .pure _
  · exact .throw _

theorem todoMoves (source : Source) (artifacts : List Artifact) : Isolated (todoMoves source artifacts) :=
  forM (fun _ => todo _) _

theorem artifact (kind : ConstructKind) (s : OutputSettings) (key suffix content : Text) :
    Isolated (artifact kind s key suffix content) := by
  unfold Migration.artifact
  refine .bind (ofExcept _) fun name => .bind ?_ fun _ => .pure _
  unfold showGenerated
  split
  · exact progress ..
  · exact .pure _

theorem suiteOf (source : Source) (role : CompanionRole) : Isolated (suiteOf source role) := by
  unfold Migration.suiteOf
  split
  · exact .pure _
  · exact ofLogged _

end Isolated

/-! ### Components and controllers -/

theorem isolated_templateArtifacts (plan : ComponentPlan) (source : Source) (key : Text) :
    Isolated (templateArtifacts plan source key) := by
  unfold templateArtifacts
  split
  · exact .pure _
  · -- The conversion of the template is not to be unfolded.
    extract_lets converted rest
    clear_value converted
    exact .exceptIf (.done ..) fun _ => .bind (.artifact ..) fun _ => .pure _

theorem isolated_specArtifacts (plan : ComponentPlan) (source : Source) (key : Text) (context : SpecContext)
    (role : CompanionRole) (suffix : Text) : Isolated (specArtifacts plan source key context role suffix) := by
  unfold specArtifacts
  refine .bind (.suiteOf ..) fun suite => ?_
  split
  · exact .pure _
  · exact .bind (.ofExcept _) fun content => .bind (.artifact ..) fun _ => .pure _

/-- The files of a component are generated in isolation. -/
theorem isolated_emitComponent (plan : ComponentPlan) (source : Source) (component : Component) (key : Text) :
    Isolated (emitComponent plan source component key) := by
  unfold emitComponent
  refine .bind (.ofExcept _) fun componentFile => .bind (.ofExcept _) fun moduleFile => ?_
  refine .bind (.artifact ..) fun class_ => .bind (.artifact ..) fun module_ => ?_
  refine .bind (isolated_templateArtifacts ..) fun template => ?_
  refine .bind (isolated_specArtifacts ..) fun spec => .bind (isolated_specArtifacts ..) fun controllerSpec => ?_
  refine .exceptIf (.todo _) fun _ => .bind (.todo _) fun _ => ?_
  exact .bind (.todoMoves ..) fun _ => .bind (.progress ..) fun _ => .pure _

theorem isolated_controllerOf (source : Source) : Isolated (controllerOf source) := by
  unfold controllerOf
  extract_lets companion
  split
  · exact .ofExcept _
  · split
    · exact .ofExcept _
    · exact .bind (.todo _) fun _ => .pure _

/-- A component is migrated in isolation. -/
theorem isolated_component (settings : Settings) (source : Source) : Isolated (component settings source) := by
  unfold component
  refine .bind (.ofExcept _) fun legacy => .onlyIf (.throw _) fun _ => ?_
  refine .bind (isolated_controllerOf _) fun controller => .bind (.ofLogged _) fun component => ?_
  exact .bind (.done ..) fun _ => isolated_emitComponent ..

theorem isolated_controller (settings : Settings) (source : Source) : Isolated (controller settings source) := by
  unfold controller
  refine .bind (.ofExcept _) fun registered => .onlyIf (.throw _) fun _ => ?_
  exact .bind (.ofLogged _) fun component => .bind (.done ..) fun _ => isolated_emitComponent ..

/-! ### Directives -/

/-- The controller body of a directive is put together in isolation. -/
theorem isolated_controllerBody (s : DirectiveSettings) (controller : Controller) (directive : Directive)
    (shadowed : List Text) : Isolated (controllerBody s controller directive shadowed) := by
  unfold controllerBody
  refine .bind (.ofExcept _) fun link => ?_
  exact .bind (.log _) fun _ => .exceptIf (.done ..) fun _ => .pure _

/-- The wrapper of a directive is generated in isolation. -/
theorem isolated_upgradeArtifacts (s : DirectiveSettings) (source : Source) (directive : Directive)
    (bindings : List Text) : Isolated (upgradeArtifacts s source directive bindings) := by
  unfold upgradeArtifacts
  split
  · exact .bind (.ofExcept _) fun inputs => .bind (.artifact ..) fun _ => .pure _
  · exact .pure _

/-- A directive used as an element is migrated in isolation. -/
theorem isolated_directive (settings : Settings) (source : Source) : Isolated (directive settings source) := by
  unfold directive
  refine .bind (.ofLogged _) fun directive => .onlyIf (.throw _) fun _ => ?_
  refine .bind (.ofExcept _) fun controller => .bind (isolated_controllerBody ..) fun body => ?_
  refine .bind (.artifact ..) fun script => .bind (.artifact ..) fun controllerScript => ?_
  refine .bind (isolated_upgradeArtifacts ..) fun upgrade => .bind (.done ..) fun _ => ?_
  refine .bind (.forM (fun _ => .todo _) _) fun _ => .exceptIf (.todo _) fun _ => ?_
  exact .bind (.todoMoves ..) fun _ => .bind (.progress ..) fun _ => .pure _

/-- A directive used as an attribute is migrated in isolation. -/
theorem isolated_attributeDirective (settings : Settings) (source : Source) :
    Isolated (attributeDirective settings source) := by
  unfold attributeDirective
  refine .bind (.ofLogged _) fun directive => .onlyIf (.throw _) fun _ => ?_
  refine .bind (.artifact ..) fun made => .bind (.done ..) fun _ => ?_
  refine .onlyIf (.todo _) fun _ => .bind (.todo _) fun _ => ?_
  exact .bind (.todoMoves ..) fun _ => .pure _

/-! ### Services and filters -/

/-- A service is migrated in isolation. -/
theorem isolated_service (settings : Settings) (source : Source) : Isolated (service settings source) := by
  unfold service
  refine .bind (.ofExcept _) fun service => .onlyIf (.throw _) fun _ => ?_
  refine .bind (.ofLogged _) fun injectable => ?_
  refine .bind (.ofExcept _) fun serviceFile => .bind (.ofExcept _) fun moduleFile => ?_
  refine .bind (.artifact ..) fun class_ => .bind (.artifact ..) fun module_ => ?_
  refine .bind (.suiteOf ..) fun suite => ?_
  -- What comes after the spec is the same with and without one.
  extract_lets rest
  have hrest : ∀ spec, Isolated (rest spec) := fun spec =>
    .bind (.done ..) fun _ => .exceptIf (.todo _) fun _ => .onlyIf (.todo _) fun _ =>
      .bind (.todoMoves ..) fun _ => .bind (.progress ..) fun _ => .pure _
  split
  · exact .bind (.pure _) hrest
  · exact .bind (.ofExcept _) fun content => .bind (.artifact ..) fun spec => .bind (.pure _) hrest

theorem isolated_oneFilter (output : OutputSettings) (filter : Filter) : Isolated (oneFilter output filter) := by
  unfold oneFilter
  refine .bind (.artifact ..) fun made => .bind (.done ..) fun _ => ?_
  exact .onlyIf (.todo _) fun _ => .onlyIf (.todo _) fun _ => .pure _

theorem isolated_filter (settings : Settings) (source : Source) : Isolated (filter settings source) := by
  unfold filter
  refine .bind (.ofLogged _) fun filters => ?_
  split
  · exact .throw _
  · refine .bind (.mapM (isolated_oneFilter _) _) fun pipes => .bind (.suiteOf ..) fun suite => ?_
    -- As for services, what comes after the spec is stated once.
    extract_lets rest
    have hrest : ∀ spec, Isolated (rest spec) := fun spec =>
      .bind (.todoMoves ..) fun _ => .bind (.progress ..) fun _ => .pure _
    split
    · exact .bind (.pure _) hrest
    · exact .bind (.ofExcept _) fun content => .bind (.artifact ..) fun spec => .bind (.pure _) hrest

/-! ### Constants -/

/-- The constants after one more is set aside: of constants with the same name the first one stays. -/
def setAside (known : List Variable) (constant : Variable) : List Variable :=
  if known.any (·.name == constant.name) then known else known ++ [constant]

/-- Setting a constant aside does not fail. -/
theorem runFrom_gather (constant : Variable) (journal : Journal) :
    ∃ records, (gather constant).runFrom journal =
      (.ok (), { journal with records, constants := setAside journal.constants constant }) := by
  unfold gather
  rw [runFrom_bind]
  change ∃ records, (ite _ _ _ : Migration Unit).runFrom journal = _
  rw [setAside]
  split
  · exact ⟨_, rfl⟩
  · exact ⟨_, rfl⟩

/-- Setting constants aside one after the other does not fail. -/
theorem runFrom_forM_gather (constants : List Variable) (journal : Journal) :
    ∃ records, (constants.forM gather).runFrom journal =
      (.ok (), { journal with records, constants := constants.foldl setAside journal.constants }) := by
  induction constants generalizing journal with
  | nil => exact ⟨journal.records, rfl⟩
  | cons constant constants ih =>
    obtain ⟨records, hfirst⟩ := runFrom_gather constant journal
    obtain ⟨final, hrest⟩ := ih { journal with records, constants := setAside journal.constants constant }
    refine ⟨final, ?_⟩
    change (gather constant >>= fun _ => constants.forM gather).runFrom journal = _
    rw [runFrom_bind, hfirst]
    exact hrest

/-- The constants that a text registers, and none when it cannot be read. -/
def registeredConstants (text : Text) : List Variable :=
  match Constant.analyze text with
  | .ok found => found
  | .error _ => []

/-- Migrating constants gives no files. It fails when no constant is found, and otherwise sets the constants
aside. -/
theorem runFrom_constant (source : Source) (journal : Journal) :
    ((constant source).runFrom journal).1 =
        (match Constant.analyze source.text with
        | .error fault => .error fault
        | .ok [] => .error (.noRegistration (txt "constant") source.path.display)
        | .ok _ => .ok []) ∧
      ((constant source).runFrom journal).2.constants =
        (registeredConstants source.text).foldl setAside journal.constants := by
  -- Nothing is set aside before it is known that there are constants.
  rw [constant, runFrom_bind, runFrom_ofExcept, registeredConstants]
  match Constant.analyze source.text with
  | .error fault => exact ⟨rfl, rfl⟩
  | .ok [] => exact ⟨rfl, rfl⟩
  | .ok (first :: rest) =>
    obtain ⟨records, hgather⟩ := runFrom_forM_gather (first :: rest) journal
    simp only [runFrom_bind, hgather]
    exact ⟨rfl, rfl⟩

/-- The file of the constants that were set aside, if there are any. -/
def constantsFile (settings : Settings) (constants : List Variable) : List Artifact :=
  if constants.isEmpty then []
  else
    [⟨settings.constants.generatedFolder ++ ['/'] ++ settings.constants.generatedFile,
      constantsSource constants⟩]

/-- Logging a generated file does not fail and leaves the constants as they are. -/
theorem runFrom_showGenerated (kind : ConstructKind) (s : OutputSettings) (made : Artifact) (journal : Journal) :
    ∃ records, (showGenerated kind s made).runFrom journal = (.ok (), { journal with records }) := by
  unfold showGenerated
  split
  · exact ⟨_, rfl⟩
  · exact ⟨journal.records, rfl⟩

/-- Gathering constants does not fail, and afterwards no constant is set aside. -/
theorem runFrom_gatherConstants (settings : Settings) (journal : Journal) :
    ((gatherConstants settings).runFrom journal).1 = .ok (constantsFile settings journal.constants) ∧
      ((gatherConstants settings).runFrom journal).2.constants = [] := by
  unfold gatherConstants constantsFile
  rw [runFrom_bind]
  obtain ⟨records, report, constants⟩ := journal
  cases constants with
  | nil => exact ⟨rfl, rfl⟩
  | cons first rest =>
    -- The constants are taken before the file is logged.
    change ((showGenerated _ _ _ >>= _ : Migration (List Artifact)).runFrom _).1 = _ ∧
      ((showGenerated _ _ _ >>= _ : Migration (List Artifact)).runFrom _).2.constants = _
    obtain ⟨shown, hshown⟩ := runFrom_showGenerated .constant settings.constants.toOutputSettings
      ⟨settings.constants.generatedFolder ++ ['/'] ++ settings.constants.generatedFile,
        constantsSource (first :: rest)⟩ ⟨records, report, first :: rest⟩
    rw [runFrom_bind, hshown]
    exact ⟨rfl, rfl⟩

end Migration

/-! ### Any source -/

/-- What the migration of a source gives when nothing was migrated before it. -/
def Source.outcome (settings : Settings) (source : Source) : Except Fault (List Artifact) :=
  ((migrate settings source).runFrom {}).1

/-- The constants that the migration of a source sets aside. -/
def Source.declared (source : Source) : List Variable :=
  if source.kind = .constant then Migration.registeredConstants source.text else []

/-- A source of another kind than constants declares none. -/
theorem Source.declared_eq_nil {source : Source} (h : source.kind ≠ .constant) : source.declared = [] :=
  if_neg h

/-- A source of another kind than constants is migrated in isolation. -/
theorem isolated_migrate (settings : Settings) {source : Source} (h : source.kind ≠ .constant) :
    Migration.Isolated (migrate settings source) := by
  unfold migrate
  -- One case for each kind; constants are excluded, and unit tests only fail.
  split
  · exact Migration.isolated_component ..
  · exact Migration.isolated_controller ..
  · exact Migration.isolated_directive ..
  · exact Migration.isolated_attributeDirective ..
  · exact Migration.isolated_service ..
  · exact Migration.isolated_filter ..
  · next hconstant => exact absurd hconstant h
  · exact .throw _

/-- A source of constants is migrated by setting them aside. -/
theorem migrate_constant (settings : Settings) {source : Source} (h : source.kind = .constant) :
    migrate settings source = Migration.constant source := by
  rw [migrate, h]

/-- The migration of a source gives what it gives on its own, whatever the journal holds, and sets the constants
that the source declares aside. -/
theorem runFrom_migrate (settings : Settings) (source : Source) (journal : Journal) :
    ((migrate settings source).runFrom journal).1 = source.outcome settings ∧
      ((migrate settings source).runFrom journal).2.constants =
        source.declared.foldl Migration.setAside journal.constants := by
  rw [Source.outcome]
  -- Sources of constants are the only ones that change what is set aside.
  by_cases hkind : source.kind = .constant
  · rw [migrate_constant settings hkind, Source.declared, if_pos hkind]
    have hrun := Migration.runFrom_constant source
    exact ⟨(hrun journal).1.trans (hrun {}).1.symm, (hrun journal).2⟩
  · have hisolated := isolated_migrate settings hkind
    rw [Source.declared_eq_nil hkind]
    exact ⟨hisolated.outcome_eq journal {}, hisolated.constants_eq journal⟩

/-- A source of constants is migrated exactly when it declares some, and then gives no files of its own. -/
theorem Source.outcome_constant (settings : Settings) {source : Source} (h : source.kind = .constant) :
    (source.declared ≠ [] → source.outcome settings = .ok []) ∧
      (source.declared = [] → ∃ fault, source.outcome settings = .error fault) := by
  rw [Source.outcome, migrate_constant settings h, (Migration.runFrom_constant source {}).1, Source.declared,
    if_pos h, Migration.registeredConstants]
  match Constant.analyze source.text with
  | .error fault => exact ⟨fun hne => absurd rfl hne, fun _ => ⟨fault, rfl⟩⟩
  | .ok [] => exact ⟨fun hne => absurd rfl hne, fun _ => ⟨_, rfl⟩⟩
  | .ok (first :: rest) => exact ⟨fun _ => rfl, fun hnil => absurd hnil (List.cons_ne_nil first rest)⟩

end AngularUplift
