import AngularUplift.Proofs.Migration.Naming
import AngularUplift.Proofs.Suite.Printable

/-!
# Reports of migrations that are stopped

A migration adds to the report while it goes on, and what was added before a fault stays there. Services, attribute
directives and constants report only once nothing can stop them any more. The other kinds report earlier: filters,
components and controllers before the suites of their companions are read, and components, controllers and
directives before their files are named. No other fault finds anything reported.

## Main definitions

* `Report.Extends`: a report that goes on where another one ends.
* `Migration.Quiet`: a step that adds nothing to the report.
* `Migration.Reporting`: a step that may add to the report, with the faults that can stop it.
* `Migration.Orderly`: a step that has added nothing when it is stopped, certain faults apart.
* `Source.LateFault`: the faults that can stop the migration of a source after something was reported.

## Main statements

* `orderly_migrate`: the migration of a source is orderly, its late faults apart.
* `report_of_stopped`: what the report holds after a migration that was stopped.
-/

namespace AngularUplift

/-! ### Reports -/

namespace Report

/-- A report that goes on where another one ends. -/
structure Extends (report later : Report) : Prop where
  /-- What was done stays at the beginning. -/
  done : report.done <+: later.done
  /-- So does what is left to do. -/
  todo : report.todo <+: later.todo

theorem Extends.refl (report : Report) : report.Extends report :=
  ⟨List.prefix_refl _, List.prefix_refl _⟩

theorem Extends.trans {report later last : Report} (h : report.Extends later) (hlast : later.Extends last) :
    report.Extends last :=
  ⟨h.done.trans hlast.done, h.todo.trans hlast.todo⟩

theorem extends_add (report : Report) (node : ReportNode) (todo : Bool) : report.Extends (report.add node todo) := by
  rw [add]
  split
  · exact ⟨List.prefix_refl _, List.prefix_append _ _⟩
  · exact ⟨List.prefix_append _ _, List.prefix_refl _⟩

end Report

namespace Migration

variable {α β : Type} {Blamed : Fault → Prop}

/-! ### Quiet steps -/

/-- Of two steps one after the other, the second one runs where the first one has returned. -/
theorem runFrom_bind_cases (step : Migration α) (next : α → Migration β) (journal : Journal) :
    (∃ value middle, step.runFrom journal = (.ok value, middle) ∧
      (step >>= next).runFrom journal = (next value).runFrom middle) ∨
    ∃ fault middle, step.runFrom journal = (.error fault, middle) ∧
      (step >>= next).runFrom journal = (.error fault, middle) := by
  rw [runFrom_bind]
  obtain ⟨outcome, middle⟩ := step.runFrom journal
  cases outcome with
  | ok value => exact Or.inl ⟨value, middle, rfl, rfl⟩
  | error fault => exact Or.inr ⟨fault, middle, rfl, rfl⟩

/-- Two steps that each go on with the report do so one after the other. -/
theorem extends_runFrom_bind {step : Migration α} {next : α → Migration β} {journal : Journal}
    (hstep : journal.report.Extends (step.runFrom journal).2.report)
    (hnext : ∀ value middle, step.runFrom journal = (.ok value, middle) →
      middle.report.Extends ((next value).runFrom middle).2.report) :
    journal.report.Extends ((step >>= next).runFrom journal).2.report := by
  rcases runFrom_bind_cases step next journal with ⟨value, middle, hrun, hbind⟩ | ⟨fault, middle, hrun, hbind⟩
  · rw [hrun] at hstep
    rw [hbind]
    exact hstep.trans (hnext value middle hrun)
  · rw [hrun] at hstep
    rwa [hbind]

/-- A step that adds nothing to the report. -/
structure Quiet (step : Migration α) : Prop where
  /-- The report stays as it is, whether the step fails or not. -/
  report_eq : ∀ journal, (step.runFrom journal).2.report = journal.report

namespace Quiet

protected theorem pure (value : α) : Quiet (pure value : Migration α) := ⟨fun _ => rfl⟩

protected theorem throw (fault : Fault) : Quiet (throw fault : Migration α) := ⟨fun _ => rfl⟩

protected theorem bind {step : Migration α} {next : α → Migration β} (hstep : Quiet step)
    (hnext : ∀ value, Quiet (next value)) : Quiet (step >>= next) := by
  constructor
  intro journal
  have hfirst := hstep.report_eq journal
  rcases runFrom_bind_cases step next journal with ⟨value, middle, hrun, hbind⟩ | ⟨fault, middle, hrun, hbind⟩
  · rw [hrun] at hfirst
    rw [hbind, (hnext value).report_eq, hfirst]
  · rw [hrun] at hfirst
    rw [hbind, hfirst]

protected theorem extends_report {step : Migration α} (h : Quiet step) (journal : Journal) :
    journal.report.Extends (step.runFrom journal).2.report := by
  rw [h.report_eq]
  exact .refl _

theorem log (records : List LogRecord) : Quiet (log records) := ⟨fun _ => rfl⟩

theorem progress (kind : ConstructKind) (message : Text) : Quiet (progress kind message) := log _

theorem ofExcept (outcome : Except Fault α) : Quiet (ofExcept outcome) := by
  cases outcome with
  | ok value => exact .pure value
  | error fault => exact .throw fault

theorem ofLogged (work : Logged α) : Quiet (ofLogged work) := by
  unfold Migration.ofLogged
  refine .bind (log _) fun _ => ?_
  split
  · exact .pure _
  · exact .throw _

theorem showGenerated (kind : ConstructKind) (s : OutputSettings) (made : Artifact) :
    Quiet (showGenerated kind s made) := by
  unfold Migration.showGenerated
  split
  · exact progress ..
  · exact .pure _

theorem artifact (kind : ConstructKind) (s : OutputSettings) (key suffix content : Text) :
    Quiet (artifact kind s key suffix content) := by
  unfold Migration.artifact
  exact .bind (ofExcept _) fun _ => .bind (showGenerated ..) fun _ => .pure _

theorem suiteOf (source : Source) (role : CompanionRole) : Quiet (suiteOf source role) := by
  unfold Migration.suiteOf
  split
  · exact .pure _
  · exact ofLogged _

end Quiet

/-! ### Reporting steps -/

/-- A step that may add to the report, and that only the blamed faults can stop. -/
structure Reporting (Blamed : Fault → Prop) (step : Migration α) : Prop where
  /-- What was reported before stays reported. -/
  extends_report : ∀ journal : Journal, journal.report.Extends (step.runFrom journal).2.report
  /-- A fault that stops the step is blamed. -/
  blamed : ∀ journal fault, (step.runFrom journal).1 = .error fault → Blamed fault

namespace Reporting

protected theorem pure (value : α) : Reporting Blamed (pure value : Migration α) where
  extends_report := fun _ => .refl _
  blamed := by rintro journal fault ⟨⟩

/-- The second of two steps begins with a value that the first one yields. -/
theorem bindYields {P : α → Prop} {step : Migration α} {next : α → Migration β} (hstep : Reporting Blamed step)
    (hyields : Yields P step) (hnext : ∀ value, P value → Reporting Blamed (next value)) :
    Reporting Blamed (step >>= next) where
  extends_report := by
    intro journal
    apply extends_runFrom_bind (hstep.extends_report journal)
    intro value middle hrun
    exact (hnext value (hyields.of_ok journal value (by rw [hrun]))).extends_report middle
  blamed := by
    intro journal fault h
    rcases runFrom_bind_cases step next journal with ⟨value, middle, hrun, hbind⟩ | ⟨first, middle, hrun, hbind⟩
    · have hvalue := hyields.of_ok journal value (by rw [hrun])
      rw [hbind] at h
      exact (hnext value hvalue).blamed middle fault h
    · rw [hbind] at h
      obtain rfl := Except.error.inj h
      exact hstep.blamed journal first (by rw [hrun])

protected theorem bind {step : Migration α} {next : α → Migration β} (hstep : Reporting Blamed step)
    (hnext : ∀ value, Reporting Blamed (next value)) : Reporting Blamed (step >>= next) :=
  hstep.bindYields (P := fun _ => True) ⟨fun _ _ _ => trivial⟩ fun value _ => hnext value

/-- A quiet step, with what can stop it. -/
theorem ofQuiet {step : Migration α} (hquiet : Quiet step)
    (h : ∀ journal fault, (step.runFrom journal).1 = .error fault → Blamed fault) : Reporting Blamed step where
  extends_report := hquiet.extends_report
  blamed := h

/-- A step that is made only under a condition. -/
theorem onlyIf {c : Prop} [Decidable c] {step : Migration Unit} {next : Unit → Migration β}
    (hstep : Reporting Blamed step) (hnext : ∀ value, Reporting Blamed (next value)) :
    Reporting Blamed (if c then step >>= next else next ()) := by
  split
  · exact hstep.bind hnext
  · exact hnext ()

/-- A step that is made unless a condition holds. -/
theorem exceptIf {c : Prop} [Decidable c] {step : Migration Unit} {next : Unit → Migration β}
    (hstep : Reporting Blamed step) (hnext : ∀ value, Reporting Blamed (next value)) :
    Reporting Blamed (if c then next () else step >>= next) := by
  split
  · exact hnext ()
  · exact hstep.bind hnext

theorem forM {step : α → Migration PUnit} (hstep : ∀ item, Reporting Blamed (step item)) (items : List α) :
    Reporting Blamed (items.forM step) := by
  induction items with
  | nil => exact .pure _
  | cons item items ih => exact (hstep item).bind fun _ => ih

theorem mapM {step : α → Migration β} (hstep : ∀ item, Reporting Blamed (step item)) (items : List α) :
    Reporting Blamed (items.mapM step) := by
  induction items with
  | nil => exact .pure _
  | cons item items ih =>
    rw [List.mapM_cons]
    exact (hstep item).bind fun _ => ih.bind fun _ => .pure _

theorem log (records : List LogRecord) : Reporting Blamed (log records) :=
  .ofQuiet (.log _) (by rintro journal fault ⟨⟩)

theorem progress (kind : ConstructKind) (message : Text) : Reporting Blamed (progress kind message) := log _

theorem report (node : ReportNode) (todo : Bool) : Reporting Blamed (report node todo) where
  extends_report := fun journal => journal.report.extends_add node todo
  blamed := by rintro journal fault ⟨⟩

theorem done (title : Text) (steps : List Text) : Reporting Blamed (done title steps) := report ..

theorem todo (text : Text) : Reporting Blamed (todo text) := report ..

theorem todoMoves (source : Source) (artifacts : List Artifact) : Reporting Blamed (todoMoves source artifacts) :=
  forM (fun _ => todo _) _

theorem ofExcept {outcome : Except Fault α} (h : ∀ fault, outcome = .error fault → Blamed fault) :
    Reporting Blamed (ofExcept outcome) := by
  apply ofQuiet (.ofExcept _)
  intro journal fault hfault
  rw [runFrom_ofExcept] at hfault
  exact h fault hfault

/-- An outcome that is no fault stops nothing. -/
theorem ofOk {outcome : Except Fault α} (h : ∃ value, outcome = .ok value) :
    Reporting Blamed (Migration.ofExcept outcome) := by
  obtain ⟨value, rfl⟩ := h
  exact .pure value

theorem ofLogged {work : Logged α} (h : ∀ fault, work.outcome = .error fault → Blamed fault) :
    Reporting Blamed (ofLogged work) := by
  apply ofQuiet (.ofLogged _)
  intro journal fault hfault
  apply h
  unfold Migration.ofLogged at hfault
  rw [Logged.outcome]
  generalize work.runFrom [] = ran at hfault ⊢
  obtain ⟨outcome, records⟩ := ran
  cases outcome with
  | ok value => cases hfault
  | error first => exact hfault

/-- A computation that writes only log records, with the faults that it settles for. -/
theorem ofSettles {work : Logged α} {Returns : α → Prop} (h : work.Settles Blamed Returns) :
    Reporting Blamed (Migration.ofLogged work) := by
  apply ofLogged
  intro fault hfault
  have houtcome := h []
  rw [Logged.outcome] at hfault
  rw [hfault] at houtcome
  cases houtcome with
  | error hblamed => exact hblamed

/-- A file can be named unless the rule that names files was overridden. -/
theorem fileName {s : OutputSettings} (h : s.namingOverridden = true → Blamed .fileNamingOverridden)
    (key suffix : Text) : Reporting Blamed (Migration.ofExcept (s.fileName key suffix)) := by
  apply ofExcept
  intro fault hfault
  rw [OutputSettings.fileName] at hfault
  split at hfault
  · next hoverridden =>
    obtain rfl := Except.error.inj hfault
    exact h hoverridden
  · cases hfault

theorem artifact {s : OutputSettings} (h : s.namingOverridden = true → Blamed .fileNamingOverridden)
    (kind : ConstructKind) (key suffix content : Text) : Reporting Blamed (artifact kind s key suffix content) := by
  unfold Migration.artifact
  refine .bind (fileName h key suffix) fun _ => .bind ?_ fun _ => .pure _
  apply ofQuiet (.showGenerated ..)
  intro journal fault hfault
  obtain ⟨records, hrun⟩ := runFrom_showGenerated kind s _ journal
  rw [hrun] at hfault
  exact nomatch hfault

/-- The suite of a companion is found unless its text has none that can be read. -/
theorem suiteOf {source : Source} {role : CompanionRole}
    (h : ∀ fault, (Suite.analyze (source.companion role)).outcome = .error fault → Blamed fault) :
    Reporting Blamed (suiteOf source role) := by
  unfold Migration.suiteOf
  split
  · exact .pure _
  · exact ofLogged h

end Reporting

/-! ### Orderly steps -/

/-- A step that has added nothing to the report when it is stopped, unless the fault is blamed. -/
structure Orderly (Blamed : Fault → Prop) (step : Migration α) : Prop where
  /-- What was reported before stays reported. -/
  extends_report : ∀ journal : Journal, journal.report.Extends (step.runFrom journal).2.report
  /-- A fault that is not blamed finds the report as it was. -/
  report_eq : ∀ journal fault, (step.runFrom journal).1 = .error fault →
    (step.runFrom journal).2.report = journal.report ∨ Blamed fault

namespace Orderly

theorem ofQuiet {step : Migration α} (h : Quiet step) : Orderly Blamed step where
  extends_report := h.extends_report
  report_eq := fun journal _ _ => Or.inl (h.report_eq journal)

theorem ofReporting {step : Migration α} (h : Reporting Blamed step) : Orderly Blamed step where
  extends_report := h.extends_report
  report_eq := fun journal fault hfault => Or.inr (h.blamed journal fault hfault)

protected theorem throw (fault : Fault) : Orderly Blamed (throw fault : Migration α) := ofQuiet (.throw fault)

/-- Nothing is reported before a step that comes after a quiet one. -/
theorem quietly {step : Migration α} {next : α → Migration β} (hstep : Quiet step)
    (hnext : ∀ value, Orderly Blamed (next value)) : Orderly Blamed (step >>= next) where
  extends_report := by
    intro journal
    apply extends_runFrom_bind (hstep.extends_report journal)
    intro value middle _
    exact (hnext value).extends_report middle
  report_eq := by
    intro journal fault h
    have hfirst := hstep.report_eq journal
    rcases runFrom_bind_cases step next journal with ⟨value, middle, hrun, hbind⟩ | ⟨first, middle, hrun, hbind⟩
    · rw [hrun] at hfirst
      rw [hbind] at h ⊢
      rw [← hfirst]
      exact (hnext value).report_eq middle fault h
    · rw [hrun] at hfirst
      rw [hbind]
      exact Or.inl hfirst

/-- After an orderly step, only blamed faults may stop what comes next. -/
theorem followedBy {step : Migration α} {next : α → Migration β} (hstep : Orderly Blamed step)
    (hnext : ∀ value, Reporting Blamed (next value)) : Orderly Blamed (step >>= next) where
  extends_report := by
    intro journal
    apply extends_runFrom_bind (hstep.extends_report journal)
    intro value middle _
    exact (hnext value).extends_report middle
  report_eq := by
    intro journal fault h
    rcases runFrom_bind_cases step next journal with ⟨value, middle, hrun, hbind⟩ | ⟨first, middle, hrun, hbind⟩
    · rw [hbind] at h
      exact Or.inr ((hnext value).blamed middle fault h)
    · have hfirst := hstep.report_eq journal first (by rw [hrun])
      rw [hrun] at hfirst
      rw [hbind] at h ⊢
      obtain rfl := Except.error.inj h
      exact hfirst

/-- A migration begins by refusing a source without a registration. -/
theorem refuseIf {c : Prop} [Decidable c] {fault : Fault} {next : Unit → Migration β}
    (hnext : ∀ value, Orderly Blamed (next value)) :
    Orderly Blamed (if c then throw fault >>= next else next ()) := by
  split
  · exact quietly (.throw fault) hnext
  · exact hnext ()

end Orderly

/-! ### Suites that become specs -/

/-- A suite that is found has code. -/
theorem yields_suiteOf (source : Source) (role : CompanionRole) :
    Yields (fun suite? => ∀ suite ∈ suite?, suite.HasCode) (suiteOf source role) := by
  unfold suiteOf
  split
  · exact .pure fun _ hmem => nomatch hmem
  · constructor
    intro journal suite? h
    exact (Suite.settles_analyze_hasCode _).of_ok ((Yields.ofLogged _).of_ok journal suite? h)

theorem exists_componentSpec {suite : TestNode} (h : suite.HasCode) (c : SpecContext) :
    ∃ spec, componentSpec suite c = .ok spec := by
  obtain ⟨inner, hinner⟩ := h.exists_content componentTestBody
  rw [componentSpec, hinner]
  exact ⟨_, rfl⟩

theorem exists_pipeSpec {suite : TestNode} (h : suite.HasCode) (suffix : Text) (i18n : Bool) :
    ∃ spec, pipeSpec suite suffix i18n = .ok spec := by
  obtain ⟨inner, hinner⟩ := h.exists_content pipeTestBody
  rw [pipeSpec, hinner]
  exact ⟨_, rfl⟩

/-! ### Components and controllers -/

section Components

variable {plan : ComponentPlan} {source : Source}
  (hnaming : plan.settings.namingOverridden = true → Blamed .fileNamingOverridden)
  (hsuites : ∀ role ∈ [CompanionRole.spec, .controllerSpec], ∀ fault,
    (Suite.analyze (source.companion role)).outcome = .error fault → Blamed fault)

include hnaming

theorem reporting_templateArtifacts (key : Text) : Reporting Blamed (templateArtifacts plan source key) := by
  unfold templateArtifacts
  split
  · exact .pure _
  · extract_lets converted rest
    clear_value converted
    exact .exceptIf (.done ..) fun _ => .bind (.artifact hnaming ..) fun _ => .pure _

include hsuites

theorem reporting_specArtifacts (key : Text) (context : SpecContext) {role : CompanionRole}
    (hrole : role ∈ [CompanionRole.spec, .controllerSpec]) (suffix : Text) :
    Reporting Blamed (specArtifacts plan source key context role suffix) := by
  unfold specArtifacts
  refine .bindYields (.suiteOf (hsuites role hrole)) (yields_suiteOf source role) fun suite? hcode => ?_
  split
  · exact .pure _
  · next suite =>
    have hspec := exists_componentSpec (hcode suite rfl) context
    exact .bind (.ofOk hspec) fun _ => .bind (.artifact hnaming ..) fun _ => .pure _

/-- The files of a component can be generated unless their names or the suites of the companions are faulty. -/
theorem reporting_emitComponent (component : Component) (key : Text) :
    Reporting Blamed (emitComponent plan source component key) := by
  unfold emitComponent
  refine .bind (.fileName hnaming ..) fun componentFile => .bind (.fileName hnaming ..) fun moduleFile => ?_
  refine .bind (.artifact hnaming ..) fun class_ => .bind (.artifact hnaming ..) fun module_ => ?_
  refine .bind (reporting_templateArtifacts hnaming _) fun template => ?_
  refine .bind (reporting_specArtifacts hnaming hsuites _ _ (by simp) _) fun spec => ?_
  refine .bind (reporting_specArtifacts hnaming hsuites _ _ (by simp) _) fun controllerSpec => ?_
  refine .exceptIf (.todo _) fun _ => .bind (.todo _) fun _ => ?_
  exact .bind (.todoMoves ..) fun _ => .bind (.progress ..) fun _ => .pure _

end Components

/-- A component without a controller is read without a fault. -/
theorem settles_ofLegacy_unset (legacy : LegacyComponent) (key : Text) :
    (Component.ofLegacy legacy {} key).Settles Blamed (fun _ => True) := by
  unfold Component.ofLegacy
  extract_lets body inputs key
  generalize Harvester.harvest {} body = harvest
  have hinjections : Logged.Settles Blamed (fun _ => True) (.ofExcept (Variable.ofNames [])) :=
    .ofExcept (.ok trivial)
  exact (Logged.Settles.tell _).bind fun _ _ => hinjections.bind fun _ _ => .pure trivial

/-- Where a controller is missed, it is reported and what comes next goes on without one. -/
theorem orderly_controllerOf {source : Source} {next : Controller → Migration β}
    (hnext : ∀ controller, Orderly Blamed (next controller)) (hunset : Reporting Blamed (next {})) :
    Orderly Blamed (controllerOf source >>= next) := by
  unfold controllerOf
  extract_lets companion
  split
  · exact .quietly (.ofExcept _) hnext
  · split
    · exact .quietly (.ofExcept _) hnext
    · apply Orderly.ofReporting
      refine .bindYields (P := (· = {})) (.bind (.todo _) fun _ => .pure _) (.after fun _ => .pure rfl) ?_
      rintro controller rfl
      exact hunset

theorem orderly_component {settings : Settings} {source : Source}
    (hnaming : settings.components.namingOverridden = true → Blamed .fileNamingOverridden)
    (hsuites : ∀ role ∈ [CompanionRole.spec, .controllerSpec], ∀ fault,
      (Suite.analyze (source.companion role)).outcome = .error fault → Blamed fault) :
    Orderly Blamed (component settings source) := by
  unfold component
  refine .quietly (.ofExcept _) fun legacy => .refuseIf fun _ => ?_
  -- What comes after the analysis can only be stopped late, with and without a controller.
  have hemit : ∀ (title : Text) (steps : List Text) (component : Component) (key : Text),
      Reporting Blamed (done title steps >>= fun _ =>
        emitComponent ⟨.component, settings.components, settings.moduleName, settings.i18n⟩ source component key) :=
    fun title steps component key => .bind (.done ..) fun _ => reporting_emitComponent hnaming hsuites component key
  refine orderly_controllerOf (fun controller => ?_) ?_
  · exact .quietly (.ofLogged _) fun component => .ofReporting (hemit ..)
  · exact .bind (.ofSettles (settles_ofLegacy_unset _ _)) fun component => hemit ..

theorem orderly_controller {settings : Settings} {source : Source}
    (hnaming : settings.controllers.namingOverridden = true → Blamed .fileNamingOverridden)
    (hsuites : ∀ role ∈ [CompanionRole.spec, .controllerSpec], ∀ fault,
      (Suite.analyze (source.companion role)).outcome = .error fault → Blamed fault) :
    Orderly Blamed (controller settings source) := by
  unfold controller
  refine .quietly (.ofExcept _) fun registered => .refuseIf fun _ => ?_
  refine .quietly (.ofLogged _) fun component => .ofReporting ?_
  exact .bind (.done ..) fun _ => reporting_emitComponent hnaming hsuites component _

/-! ### Directives -/

/-- Only the link function can stop the controller of a directive, and it is read before watchers are reported. -/
theorem orderly_controllerBody (s : DirectiveSettings) (controller : Controller) (directive : Directive)
    (shadowed : List Text) : Orderly Blamed (controllerBody s controller directive shadowed) := by
  unfold controllerBody
  refine .quietly (.ofExcept _) fun link => .quietly (.log _) fun _ => .ofReporting ?_
  exact .exceptIf (.done ..) fun _ => .pure _

theorem blockKeys_ne_nil (block : Text) : ∀ key ∈ Registration.blockKeys block, key ≠ [] := by
  intro key hkey
  rw [Registration.blockKeys.eq_def] at hkey
  split at hkey
  · split at hkey
    · obtain ⟨entry, -, hentry⟩ := List.mem_filterMap.1 hkey
      rw [Registration.entryKey?] at hentry
      split at hentry
      · split at hentry
        · exact nomatch hentry
        · next hne => exact Option.some.inj hentry ▸ hne
      · exact nomatch hentry
    · exact absurd hkey List.not_mem_nil
  · exact absurd hkey List.not_mem_nil

/-- Names that are not empty can be the names of variables. -/
theorem exists_ofNames {names : List Text} (h : ∀ name ∈ names, name ≠ []) :
    ∃ vs, Variable.ofNames names = .ok vs := by
  have hnamed : Outcome (fun _ => False) (fun vs => ∀ v ∈ vs, True) (Variable.ofNames names) := by
    refine Outcome.mapM fun name hname => ?_
    have hfull : ¬(Variable.named name).name.isEmpty = true := fun hempty => h name hname (List.isEmpty_iff.1 hempty)
    rw [Variable.checked, if_neg hfull]
    exact .ok trivial
  generalize Variable.ofNames names = outcome at hnamed
  cases hnamed with
  | ok h => exact ⟨_, rfl⟩
  | error hfalse => exact hfalse.elim

theorem reporting_upgradeArtifacts {s : DirectiveSettings}
    (hnaming : s.namingOverridden = true → Blamed .fileNamingOverridden) (source : Source) (directive : Directive)
    (block : Text) : Reporting Blamed (upgradeArtifacts s source directive (Registration.blockKeys block)) := by
  unfold upgradeArtifacts
  split
  · refine .bind (.ofOk (exists_ofNames (blockKeys_ne_nil block))) fun inputs => ?_
    exact .bind (.artifact hnaming ..) fun _ => .pure _
  · exact .pure _

theorem orderly_directive {settings : Settings} {source : Source}
    (hnaming : settings.directives.namingOverridden = true → Blamed .fileNamingOverridden) :
    Orderly Blamed (directive settings source) := by
  unfold directive
  refine .quietly (.ofLogged _) fun directive => .refuseIf fun _ => .quietly (.ofExcept _) fun controller => ?_
  refine .followedBy (orderly_controllerBody ..) fun body => ?_
  refine .bind (.artifact hnaming ..) fun script => .bind (.artifact hnaming ..) fun controllerScript => ?_
  refine .bind (reporting_upgradeArtifacts hnaming ..) fun upgrade => .bind (.done ..) fun _ => ?_
  refine .bind (.forM (fun _ => .todo _) _) fun _ => .exceptIf (.todo _) fun _ => ?_
  exact .bind (.todoMoves ..) fun _ => .bind (.progress ..) fun _ => .pure _

theorem orderly_attributeDirective (settings : Settings) (source : Source) :
    Orderly Blamed (attributeDirective settings source) := by
  unfold attributeDirective
  refine .quietly (.ofLogged _) fun directive => .refuseIf fun _ => .quietly (.artifact ..) fun made => ?_
  apply Orderly.ofReporting
  refine .bind (.done ..) fun _ => .onlyIf (.todo _) fun _ => .bind (.todo _) fun _ => ?_
  exact .bind (.todoMoves ..) fun _ => .pure _

/-! ### Services, filters and constants -/

/-- A service is reported after its files were generated, its spec among them. -/
theorem orderly_service (settings : Settings) (source : Source) : Orderly Blamed (service settings source) := by
  unfold service
  refine .quietly (.ofExcept _) fun service => .refuseIf fun _ => .quietly (.ofLogged _) fun injectable => ?_
  refine .quietly (.ofExcept _) fun serviceFile => .quietly (.ofExcept _) fun moduleFile => ?_
  refine .quietly (.artifact ..) fun class_ => .quietly (.artifact ..) fun module_ => ?_
  refine .quietly (.suiteOf ..) fun suite => ?_
  extract_lets rest
  have hrest : ∀ spec, Orderly Blamed (rest spec) := fun spec => .ofReporting <|
    .bind (.done ..) fun _ => .exceptIf (.todo _) fun _ => .onlyIf (.todo _) fun _ =>
      .bind (.todoMoves ..) fun _ => .bind (.progress ..) fun _ => .pure _
  split
  · exact .quietly (.pure _) hrest
  · exact .quietly (.ofExcept _) fun content => .quietly (.artifact ..) fun spec => .quietly (.pure _) hrest

/-- With its naming overridden, not even the first file is generated. -/
theorem artifact_overridden {s : OutputSettings} (h : s.namingOverridden = true) (kind : ConstructKind)
    (key suffix content : Text) : artifact kind s key suffix content = throw .fileNamingOverridden := by
  rw [artifact, OutputSettings.fileName, if_pos h]
  rfl

theorem reporting_oneFilter {output : OutputSettings}
    (hnaming : output.namingOverridden = true → Blamed .fileNamingOverridden) (filter : Filter) :
    Reporting Blamed (oneFilter output filter) := by
  unfold oneFilter
  refine .bind (.artifact hnaming ..) fun made => .bind (.done ..) fun _ => ?_
  exact .onlyIf (.todo _) fun _ => .onlyIf (.todo _) fun _ => .pure _

/-- The filters of a file are reported one after the other, and only then is the suite of the companion read. -/
theorem orderly_filter {settings : Settings} {source : Source}
    (hsuite : ∀ fault, (Suite.analyze (source.companion .spec)).outcome = .error fault → Blamed fault) :
    Orderly Blamed (filter settings source) := by
  unfold filter
  refine .quietly (.ofLogged _) fun filters => ?_
  split
  · exact .throw _
  · next first rest =>
    by_cases hoverridden : settings.filters.namingOverridden = true
    · -- Naming fails already for the first filter, before it is reported.
      rw [List.mapM_cons, oneFilter, artifact_overridden hoverridden]
      exact .throw _
    · have hnaming : settings.filters.namingOverridden = true → Blamed .fileNamingOverridden :=
        fun h => absurd h hoverridden
      apply Orderly.ofReporting
      refine .bind (.mapM (reporting_oneFilter hnaming) _) fun pipes => ?_
      refine .bindYields (.suiteOf hsuite) (yields_suiteOf source .spec) fun suite? hcode => ?_
      extract_lets rest
      have hrest : ∀ spec, Reporting Blamed (rest spec) := fun spec =>
        .bind (.todoMoves ..) fun _ => .bind (.progress ..) fun _ => .pure _
      split
      · exact .bind (.pure _) hrest
      · next suite =>
        have hspec := exists_pipeSpec (hcode suite rfl) settings.filters.generatedPrefix settings.i18n
        exact .bind (.ofOk hspec) fun _ => .bind (.artifact hnaming ..) fun _ => .bind (.pure _) hrest

theorem reporting_gather (constant : Variable) : Reporting Blamed (gather constant) := by
  have hrun := runFrom_gather constant
  apply Reporting.ofQuiet
  · constructor
    intro journal
    obtain ⟨records, hgather⟩ := hrun journal
    rw [hgather]
  · intro journal fault h
    obtain ⟨records, hgather⟩ := hrun journal
    rw [hgather] at h
    exact nomatch h

/-- Constants are set aside without a fault once they are found. -/
theorem orderly_constant (source : Source) : Orderly Blamed (constant source) := by
  unfold constant
  refine .quietly (.ofExcept _) fun found => ?_
  split
  · exact .throw _
  · exact .ofReporting <| .bind (.forM reporting_gather _) fun _ => .bind (.done ..) fun _ => .pure _

end Migration

/-! ### Any source -/

/-- The companions whose suites are read only after something was reported. -/
def ConstructKind.lateCompanions : ConstructKind → List CompanionRole
  | .filter => [.spec]
  | .component | .controller => [.spec, .controllerSpec]
  | _ => []

/-- The kinds whose files are named only after something was reported. -/
def ConstructKind.namesLate : ConstructKind → Bool
  | .component | .controller | .directive => true
  | _ => false

/-- The faults that can stop the migration of a source after something was reported. -/
inductive Source.LateFault (settings : Settings) (source : Source) : Fault → Prop
  /-- The suite of a companion cannot be read. -/
  | suite {role : CompanionRole} {fault : Fault} (hrole : role ∈ source.kind.lateCompanions)
      (h : (Suite.analyze (source.companion role)).outcome = .error fault) : LateFault settings source fault
  /-- The rule that names files was overridden. -/
  | naming {s : OutputSettings} (hkind : source.kind.namesLate = true)
      (hsection : settings.section? source.kind = some s) (h : s.namingOverridden = true) :
      LateFault settings source .fileNamingOverridden

/-- The migration of a source has reported nothing when it is stopped, late faults apart. -/
theorem orderly_migrate (settings : Settings) (source : Source) :
    Migration.Orderly (source.LateFault settings) (migrate settings source) := by
  have hsuite : ∀ role ∈ source.kind.lateCompanions, ∀ fault,
      (Suite.analyze (source.companion role)).outcome = .error fault → source.LateFault settings fault :=
    fun _ hrole _ h => .suite hrole h
  unfold migrate
  split
  · next hkind =>
    refine Migration.orderly_component (fun h => .naming ?_ ?_ h) fun role hrole => hsuite role ?_
    all_goals rw [hkind]
    · rfl
    · rfl
    · exact hrole
  · next hkind =>
    refine Migration.orderly_controller (fun h => .naming ?_ ?_ h) fun role hrole => hsuite role ?_
    all_goals rw [hkind]
    · rfl
    · rfl
    · exact hrole
  · next hkind =>
    refine Migration.orderly_directive fun h => .naming ?_ ?_ h
    all_goals rw [hkind]
    all_goals rfl
  · exact Migration.orderly_attributeDirective ..
  · exact Migration.orderly_service ..
  · next hkind =>
    refine Migration.orderly_filter (hsuite .spec ?_)
    rw [hkind]
    exact List.mem_singleton_self _
  · exact Migration.orderly_constant _
  · exact .throw _

/-- The report after a migration that was stopped goes on where the one before ends, and it is the one before unless
the fault is a late one. -/
theorem report_of_stopped (settings : Settings) (source : Source) (journal : Journal) {fault : Fault}
    (h : ((migrate settings source).runFrom journal).1 = .error fault) :
    journal.report.Extends ((migrate settings source).runFrom journal).2.report ∧
      (¬source.LateFault settings fault →
        ((migrate settings source).runFrom journal).2.report = journal.report) := by
  have horderly := orderly_migrate settings source
  refine ⟨horderly.extends_report journal, fun hearly => ?_⟩
  exact (horderly.report_eq journal fault h).resolve_right hearly

/-- A file that registers something under a keyword, with a companion whose suite is not closed. -/
def sourceWithOpenSuite (kind : ConstructKind) (registration : Text) : Source :=
  .make (Path.parse (txt "on." ++ kind.label ++ txt ".js"))
    (txt "angular.module('shop')." ++ kind.label ++ txt "('on', " ++ registration ++ txt ");") kind
    [(.spec, txt "describe('on', function () \x7b")] []

/-- A service whose companion cannot be read leaves a report as it was. -/
theorem report_of_stopped_service :
    let source := sourceWithOpenSuite .service (txt "function () \x7b this.count = 1; \x7d")
    let journal : Journal := { report := { done := [.chip (txt "Earlier")] } }
    ((migrate { root := {} } source).runFrom journal).1 = .error (.unbalanced '(' 8) ∧
      ((migrate { root := {} } source).runFrom journal).2.report = journal.report := by
  intro source journal
  have hstopped : ((migrate { root := {} } source).runFrom journal).1 = .error (.unbalanced '(' 8) := by
    decide +kernel
  refine ⟨hstopped, (report_of_stopped _ source journal hstopped).2 ?_⟩
  rintro ⟨⟩
  next hrole _ => exact absurd hrole List.not_mem_nil

/-- A filter is reported as migrated before the suite of its companion is read, and stays so when that fails. -/
theorem filter_reported_before_suite :
    let source := sourceWithOpenSuite .filter (txt "function () \x7b return function (x) \x7b return x; \x7d; \x7d")
    ((migrate { root := {} } source).runFrom {}).1 = .error (.unbalanced '(' 8) ∧
      ((migrate { root := {} } source).runFrom {}).2.report.done.map ReportNode.markdown =
        [txt "### Migrate filter on\n\n- Create pipe : `OnPipe`\n- Extract injections : ``\n"] := by
  decide +kernel

end AngularUplift
