import AngularUplift.Construct.Analysis
import AngularUplift.Proofs.Harvest.Accounting

/-!
# Analyses of arbitrary texts

An analysis takes any text. It finds a model, or it stops where a delimiter is not closed, and every variable of a
model has a name: parameters come from lists without empty entries, members from heads that are read with their
names. The one exception are constants, whose names are trimmed only after they were found not to be empty.

## Main definitions

* `Outcome`, `Logged.Settles`: what a computation may return, and which faults may stop it.
* `Named`, `Model.variables`: variables with names, and the variables of a model.
* `Constant.HasBlankName`: the registration of a constant whose name has only white space.

## Main statements

* `Outcome.bind`, `Logged.Settles.bind`: two steps one after the other.
* `Factory.outcome_registered`: the parameters of a callback have names.
* `Harvester.named_harvest_properties`, `Harvester.named_harvest_functions`: so do harvested members.
* `analyze_total`: the outcome of an analysis of any kind.
-/

namespace AngularUplift

variable {α β : Type}

/-! ### Outcomes -/

/-- An outcome that is a value with one property, or a fault with another. -/
inductive Outcome (Fails : Fault → Prop) (Returns : α → Prop) : Except Fault α → Prop
  /-- A value is returned. -/
  | ok {value : α} (h : Returns value) : Outcome Fails Returns (.ok value)
  /-- There is a fault. -/
  | error {fault : Fault} (h : Fails fault) : Outcome Fails Returns (.error fault)

/-- The faults of delimiters that are not there or are not closed. -/
def Fault.IsUnbalanced (fault : Fault) : Prop := ∃ opening start, fault = .unbalanced opening start

namespace Outcome

variable {Fails Allowed : Fault → Prop} {Returns : α → Prop} {Then : β → Prop}

/-- More faults may be allowed. -/
theorem mono {outcome : Except Fault α} (h : Outcome Fails Returns outcome)
    (hallowed : ∀ fault, Fails fault → Allowed fault) : Outcome Allowed Returns outcome := by
  cases h with
  | ok h => exact .ok h
  | error h => exact .error (hallowed _ h)

protected theorem map {outcome : Except Fault α} {f : α → β} (h : Outcome Fails Returns outcome)
    (hf : ∀ value, Returns value → Then (f value)) : Outcome Fails Then (f <$> outcome) := by
  cases h with
  | ok h => exact .ok (hf _ h)
  | error h => exact .error h

/-- The second of two steps begins with a value that the first one returns. -/
protected theorem bind {step : Except Fault α} {next : α → Except Fault β} (hstep : Outcome Fails Returns step)
    (hnext : ∀ value, Returns value → Outcome Fails Then (next value)) : Outcome Fails Then (step >>= next) := by
  cases hstep with
  | ok h => exact hnext _ h
  | error h => exact .error h

/-- The same step for each item of a list. -/
theorem mapM {step : α → Except Fault β} {items : List α}
    (hstep : ∀ item ∈ items, Outcome Fails Then (step item)) :
    Outcome Fails (fun values => ∀ value ∈ values, Then value) (items.mapM step) := by
  induction items with
  | nil => exact .ok fun _ hmem => absurd hmem List.not_mem_nil
  | cons item items ih =>
    rw [List.mapM_cons]
    refine (hstep item List.mem_cons_self).bind fun value hvalue => ?_
    refine (ih fun later hlater => hstep later (List.mem_cons_of_mem _ hlater)).bind fun values hvalues => ?_
    exact .ok (List.forall_mem_cons.2 ⟨hvalue, hvalues⟩)

end Outcome

namespace Logged

/-- A computation with such an outcome, whatever was written before it. -/
def Settles (Fails : Fault → Prop) (Returns : α → Prop) (work : Logged α) : Prop :=
  ∀ records, Outcome Fails Returns (work.runFrom records).1

/-- Two computations one after the other: the second writes after the first, unless the first one fails. -/
theorem runFrom_bind (work : Logged α) (next : α → Logged β) (records : List LogRecord) :
    (work >>= next).runFrom records =
      match work.runFrom records with
      | (.ok value, records) => (next value).runFrom records
      | (.error fault, records) => (.error fault, records) := by
  simp only [runFrom, ExceptT.run_bind, StateT.run_bind, Id.run_bind]
  obtain ⟨outcome, records⟩ := work.run.run records
  cases outcome <;> rfl

namespace Settles

variable {Fails : Fault → Prop} {Returns : α → Prop} {Then : β → Prop}

protected theorem pure {value : α} (h : Returns value) : Settles Fails Returns (pure value) := fun _ => .ok h

theorem ofExcept {outcome : Except Fault α} (h : Outcome Fails Returns outcome) :
    Settles Fails Returns (ofExcept outcome) := by
  intro records
  cases h with
  | ok h => exact .ok h
  | error h => exact .error h

/-- Writing records always succeeds. -/
theorem tell (records : List LogRecord) : Settles Fails (fun _ => True) (tell records) := fun _ => .ok trivial

protected theorem bind {work : Logged α} {next : α → Logged β} (hwork : Settles Fails Returns work)
    (hnext : ∀ value, Returns value → Settles Fails Then (next value)) : Settles Fails Then (work >>= next) := by
  intro records
  have hfirst := hwork records
  rw [runFrom_bind]
  generalize work.runFrom records = first at hfirst ⊢
  obtain ⟨outcome, written⟩ := first
  cases hfirst with
  | ok h => exact hnext _ h written
  | error h => exact .error h

/-- What such a computation returns, if it does. -/
theorem of_ok {work : Logged α} {value : α} (h : Settles Fails Returns work) (hvalue : work.outcome = .ok value) :
    Returns value := by
  have hsettles := h []
  rw [← outcome, hvalue] at hsettles
  cases hsettles with
  | ok hreturns => exact hreturns

end Settles

end Logged

/-! ### Delimiters, registrations and callbacks -/

theorem outcome_close (d : Delimiter) (text : Text) (start : Int) :
    Outcome Fault.IsUnbalanced (fun _ => True) (d.close text start) := by
  rcases d.close_cases text start with ⟨stop, hclose⟩ | hclose
  · rw [hclose]
    exact .ok trivial
  · rw [hclose]
    exact .error ⟨_, _, rfl⟩

theorem outcome_objectProperty (text key : Text) :
    Outcome Fault.IsUnbalanced (fun _ => True) (Registration.objectProperty text key) := by
  rw [Registration.objectProperty]
  split
  · exact .ok trivial
  · exact (outcome_close ..).bind fun _ _ => .ok trivial

theorem outcome_call (text keyword : Text) :
    Outcome Fault.IsUnbalanced (fun _ => True) (Registration.call text keyword) := by
  rw [Registration.call]
  split
  · exact .ok trivial
  · exact (outcome_close ..).bind fun _ _ => .ok trivial

namespace Factory

/-- No parameter of a callback that was found is without a name. -/
def ParametersNamed (factory? : Option Factory) : Prop := ∀ factory ∈ factory?, ∀ name ∈ factory.params, name ≠ []

theorem parameterNames_ne_nil (text : Text) : ∀ name ∈ parameterNames text, name ≠ [] := by
  intro name hname
  simpa using (List.mem_filter.1 hname).2

theorem parametersNamed_none : ParametersNamed none := fun _ hmem => nomatch hmem

theorem outcome_parseAt (text : Text) (start : Int) :
    Outcome Fault.IsUnbalanced ParametersNamed (parseAt text start) := by
  rw [parseAt]
  split
  · exact .ok parametersNamed_none
  · refine (outcome_close ..).bind fun paramsClose _ => ?_
    split
    · exact .ok parametersNamed_none
    · refine (outcome_close ..).bind fun stop _ => ?_
      refine .ok fun factory hfactory => ?_
      obtain rfl := Option.mem_some.1 hfactory
      exact parameterNames_ne_nil _

theorem outcome_declared (text name : Text) : Outcome Fault.IsUnbalanced ParametersNamed (declared text name) := by
  rw [declared]
  split
  · exact .ok parametersNamed_none
  · split
    · exact .ok parametersNamed_none
    · exact outcome_parseAt ..

theorem outcome_ofCall (text : Text) (start stop : Nat) :
    Outcome Fault.IsUnbalanced ParametersNamed (ofCall text start stop) := by
  rw [ofCall]
  split
  · exact .ok parametersNamed_none
  · split
    · exact outcome_declared ..
    · split
      · exact .ok parametersNamed_none
      · exact outcome_parseAt ..

theorem outcome_registered (text keyword : Text) :
    Outcome Fault.IsUnbalanced ParametersNamed (registered text keyword) := by
  rw [registered]
  refine (outcome_call ..).bind fun found _ => ?_
  split
  · exact .ok parametersNamed_none
  · exact outcome_ofCall ..

end Factory

/-! ### Harvested members -/

/-- No variable of a list is without a name. -/
def Named (vs : List Variable) : Prop := ∀ v ∈ vs, v.name ≠ []

theorem named_nil : Named [] := fun _ hmem => absurd hmem List.not_mem_nil

theorem named_map {names : List Text} (h : ∀ name ∈ names, name ≠ []) : Named (names.map Variable.named) := by
  intro v hv
  obtain ⟨name, hname, rfl⟩ := List.mem_map.1 hv
  exact h name hname

theorem Named.append {vs others : List Variable} (h : Named vs) (hothers : Named others) : Named (vs ++ others) :=
  List.forall_mem_append.2 ⟨h, hothers⟩

/-- Every piece that passes cut out is of the given form. -/
theorem Passes.exists_form {Form : MemberHead → Text → Cut β → Prop} {heads : List MemberHead} {before after : Text}
    {cuts : List (List (Cut β))} (h : Passes Form heads before cuts after) :
    ∀ cut ∈ cuts.flatten, ∃ head text, Form head text cut := by
  induction h with
  | done => simp
  | @pass head _ before _ _ _ _ _ hform _ ih =>
    rw [List.flatten_cons]
    exact List.forall_mem_append.2 ⟨fun cut hcut => ⟨head, before, hform cut hcut⟩, ih⟩

theorem MemberHead.Written.name_ne_nil {head : MemberHead} {name source : Text} (h : head.Written name source) :
    name ≠ [] := by
  cases h with
  | receiver _ hname _ => exact hname
  | declaration _ _ _ _ hname _ => exact hname

theorem MemberHead.AssignmentHead.name_ne_nil {head : MemberHead} {name rest source : Text}
    (h : head.AssignmentHead name rest source) : name ≠ [] := by
  cases h with
  | intro hleft => exact hleft.name_ne_nil

theorem assignmentTo_ne_nil {receiver text name rest : Text} (h : assignmentTo receiver text = some (name, rest)) :
    name ≠ [] := by
  simp only [assignmentTo, Reader.bind_eq_some_iff, Reader.pure_eq_some_iff] at h
  obtain ⟨-, _, -, found, _, hfound, -, _, -, -, _, -, -, _, -, rfl, -⟩ := h
  exact (Reader.run1_eq_some hfound).2.1

/-- A member that is assigned to somewhere in a body has a name. -/
theorem memberAssignment_ne_nil {receivers : List Text} {text : Text} {found : Occurrence Text}
    (h : found ∈ (memberAssignment receivers).occurrences text) : found.value ≠ [] := by
  obtain ⟨-, -, rest, hread, -⟩ := Pattern.read_of_mem_occurrences h
  obtain ⟨reader, hreader, hfound⟩ := Reader.firstOf_eq_some hread
  obtain ⟨receiver, -, rfl⟩ := List.mem_map.1 hreader
  exact assignmentTo_ne_nil hfound

namespace Harvester

theorem mem_of_mem_newNames {known names : List Text} {name : Text} (h : name ∈ newNames known names) :
    name ∈ names := by
  induction names generalizing known with
  | nil => exact h
  | cons first rest ih =>
    rw [newNames] at h
    split at h
    · exact List.mem_cons_of_mem _ (ih h)
    · rcases List.mem_cons.1 h with rfl | hrest
      · exact List.mem_cons_self
      · exact List.mem_cons_of_mem _ (ih hrest)

theorem named_recordProperties {assignments : List (Text × Text)} (h : ∀ entry ∈ assignments, entry.1 ≠ [])
    (seen : List Text) : Named (recordProperties seen assignments) := by
  induction assignments generalizing seen with
  | nil => exact named_nil
  | cons entry rest ih =>
    obtain ⟨hentry, hrest⟩ := List.forall_mem_cons.1 h
    rw [recordProperties]
    split
    · exact ih hrest seen
    · exact List.forall_mem_cons.2 ⟨hentry, ih hrest _⟩

/-- No parameter of a harvested function is without a name. -/
theorem named_harvest_functions (h : Harvester) (body : Text) :
    ∀ f ∈ (h.harvest body).1.functions, Named f.parameters := by
  obtain ⟨cuts, hpasses, hfunctions, -⟩ := passes_functionPasses body.blockComments h.heads (reachable_prepare body)
  intro f hf
  rw [harvest_fst, hfunctions] at hf
  obtain ⟨cut, hcut, rfl⟩ := List.mem_map.1 hf
  obtain ⟨_, _, parts, hform⟩ := hpasses.exists_form cut hcut
  rw [hform.value]
  exact named_map (Factory.parameterNames_ne_nil _)

/-- No harvested property is without a name. -/
theorem named_harvest_properties (h : Harvester) (body : Text) : Named (h.harvest body).1.properties := by
  obtain ⟨cuts, hpasses, hassignments⟩ := passes_propertyPasses h.heads (h.reachable_unassigned body)
  rw [(h.harvest_assigned body).1]
  refine Named.append (named_recordProperties ?_ _) (named_map ?_)
  · rw [assigned, hassignments]
    intro entry hentry
    obtain ⟨cut, hcut, rfl⟩ := List.mem_map.1 hentry
    obtain ⟨_, _, parts, hform⟩ := hpasses.exists_form cut hcut
    exact hform.head.name_ne_nil
  · -- The others are members that are first assigned to in the body of a function.
    intro name hname
    obtain ⟨f, -, hf⟩ := List.mem_flatMap.1 (mem_of_mem_newNames hname)
    obtain ⟨found, hfound, rfl⟩ := List.mem_map.1 hf
    exact memberAssignment_ne_nil hfound

end Harvester

/-! ### Analyses -/

/-- What is registered under a keyword bears the name that is found for the keyword. -/
theorem outcome_registeredAnalyze (keyword text : Text) :
    Outcome Fault.IsUnbalanced (fun found => found.name = Registration.name text keyword)
      (Registered.analyze keyword text) := by
  rw [Registered.analyze]
  split
  · next hname => exact .ok hname.symm
  · refine (Factory.outcome_registered ..).bind fun factory _ => ?_
    split <;> exact .ok rfl

theorem outcome_componentAnalyze (text : Text) :
    Outcome Fault.IsUnbalanced (fun component => component.name = Registration.name text (txt "component"))
      (LegacyComponent.analyze text) := by
  rw [LegacyComponent.analyze]
  split
  · next hname => exact .ok hname.symm
  · exact (outcome_objectProperty ..).bind fun _ _ => .ok rfl

theorem settles_linkText (text : Text) : (Directive.linkText text).Settles Fault.IsUnbalanced (fun _ => True) := by
  rw [Directive.linkText]
  split
  · exact .pure trivial
  · exact .pure trivial
  · exact (Logged.Settles.tell _).bind fun _ _ => .pure trivial

theorem settles_directiveAnalyze (text : Text) :
    (Directive.analyze text).Settles Fault.IsUnbalanced
      fun directive => directive.name = Registration.name text (txt "directive") := by
  rw [Directive.analyze]
  split
  · next hname => exact .pure hname.symm
  · refine (Logged.Settles.ofExcept (outcome_objectProperty ..)).bind fun _ _ => ?_
    exact (settles_linkText text).bind fun _ _ => .pure rfl

theorem outcome_linkFunction (d : Directive) :
    Outcome Fault.IsUnbalanced Factory.ParametersNamed d.linkFunction := by
  rw [Directive.linkFunction]
  split
  · exact .ok Factory.parametersNamed_none
  · exact Factory.outcome_parseAt ..

/-- The variables of an attribute directive, those of its functions among them. -/
def AttributeDirective.variables (d : AttributeDirective) : List Variable :=
  d.properties ++ d.injects ++ d.functions.flatMap (·.parameters)

theorem named_linkFunctions {link : Factory} {harvest : Harvest} (hlink : ∀ name ∈ link.params, name ≠ [])
    (hharvest : ∀ f ∈ harvest.functions, Named f.parameters) :
    ∀ f ∈ AttributeDirective.linkFunctions link harvest, Named f.parameters := by
  have hparameters := named_map hlink
  rw [AttributeDirective.linkFunctions]
  split
  · exact List.forall_mem_singleton.2 hparameters
  · split
    · exact hharvest
    · exact List.forall_mem_append.2 ⟨hharvest, List.forall_mem_singleton.2 hparameters⟩

theorem settles_attributeDirectiveAnalyze (text : Text) :
    (AttributeDirective.analyze text).Settles Fault.IsUnbalanced
      fun d => d.name = Registration.name text (txt "directive") ∧ Named d.variables := by
  rw [AttributeDirective.analyze]
  refine (settles_directiveAnalyze text).bind fun directive hname => ?_
  split
  · next hempty => exact .pure ⟨(List.isEmpty_iff.1 hempty).symm.trans hname, named_nil⟩
  · refine (Logged.Settles.ofExcept (Factory.outcome_registered ..)).bind fun factory hfactory => ?_
    have hinjects : Named (((factory.map (·.params)).getD []).map Variable.named) := by
      cases factory with
      | none => exact named_nil
      | some found => exact named_map (hfactory found rfl)
    refine (Logged.Settles.ofExcept (outcome_linkFunction directive)).bind fun link? hlink => ?_
    split
    · refine .pure ⟨hname, ?_⟩
      simpa [AttributeDirective.variables] using hinjects
    · next link =>
      -- From here on only the names in the harvest count, not how it was made.
      have hproperties := Harvester.named_harvest_properties ⟨[txt "scope", txt "ctrl", txt "this"], true⟩ link.body
      have hfunctions := Harvester.named_harvest_functions ⟨[txt "scope", txt "ctrl", txt "this"], true⟩ link.body
      generalize Harvester.harvest _ link.body = found at hproperties hfunctions ⊢
      refine (Logged.Settles.tell _).bind fun _ _ => .pure ⟨hname, ?_⟩
      refine (hproperties.append hinjects).append fun v hv => ?_
      obtain ⟨f, hf, hvf⟩ := List.mem_flatMap.1 hv
      exact named_linkFunctions (hlink link rfl) hfunctions f hf v hvf

/-- The variables of a filter. -/
def Filter.variables (f : Filter) : List Variable := f.params ++ f.injections

theorem settles_transform (name : Text) (factory : Factory) :
    (Filter.transform? name factory).Settles Fault.IsUnbalanced Factory.ParametersNamed := by
  rw [Filter.transform?]
  split
  · exact (Logged.Settles.tell _).bind fun _ _ => .pure Factory.parametersNamed_none
  · next found _ =>
    have hparse := Factory.outcome_parseAt factory.body (found.stop - (txt "function").length : Nat)
    -- A fault of the inner callback goes no further than into the log.
    split
    · next transform htransform =>
      rw [htransform] at hparse
      cases hparse with
      | ok hnamed => exact .pure hnamed
    · exact (Logged.Settles.tell _).bind fun _ _ => .pure Factory.parametersNamed_none

theorem settles_filterOfCall (name text : Text) (start stop : Nat) :
    (Filter.ofCall name text start stop).Settles Fault.IsUnbalanced fun f => Named f.variables := by
  rw [Filter.ofCall]
  refine (Logged.Settles.ofExcept (Factory.outcome_ofCall ..)).bind fun factory hfactory => ?_
  split
  · exact .pure named_nil
  · next factory =>
    have hinjections := named_map (hfactory factory rfl)
    refine (settles_transform name factory).bind fun transform htransform => ?_
    split
    · exact .pure hinjections
    · next transform => exact .pure ((named_map (htransform transform rfl)).append hinjections)

theorem settles_filterOfOccurrences (text : Text) (least : Nat) (occurrences : List (Occurrence Unit)) :
    (Filter.ofOccurrences text least occurrences).Settles Fault.IsUnbalanced
      fun filters => Named (filters.flatMap Filter.variables) := by
  -- The position up to which calls were read grows with every call, so it is general in the induction.
  induction occurrences generalizing least with
  | nil => exact .pure named_nil
  | cons found rest ih =>
    rw [Filter.ofOccurrences]
    split
    · exact ih least
    · refine (Logged.Settles.ofExcept (outcome_close ..)).bind fun stop _ => ?_
      dsimp only
      split
      · exact ih stop
      · refine (settles_filterOfCall _ text _ stop).bind fun filter hfilter => ?_
        refine (ih stop).bind fun filters hfilters => .pure ?_
        rw [List.flatMap_cons]
        exact hfilter.append hfilters

theorem outcome_readBlock (category : TestCategory) (text : Text) (found : Occurrence Nat) :
    Outcome Fault.IsUnbalanced (fun _ => True) (Block.read category text found) := by
  rw [Block.read]
  generalize precedingComment text (found.start + found.value) = comment
  refine (outcome_close ..).bind fun closeIndex _ => ?_
  dsimp only
  split
  · exact .ok trivial
  · split
    · exact .ok trivial
    · exact (outcome_close ..).bind fun _ _ => .ok trivial

theorem settles_suiteAnalyze (text : Text) : (Suite.analyze text).Settles Fault.IsUnbalanced (fun _ => True) := by
  rw [Suite.analyze]
  split
  · exact .pure trivial
  · refine (Logged.Settles.ofExcept (outcome_readBlock ..)).bind fun block _ => ?_
    exact (Logged.Settles.tell _).bind fun _ _ => .pure trivial

/-- A variable whose name is given is refused only when nothing is left of the name once it is trimmed. -/
theorem outcome_ofLiteral (name source : Text) :
    Outcome (fun fault => fault = .emptyVariableName ∧ Text.trim name = []) (fun v => v.name ≠ [])
      (Variable.ofLiteral name source) := by
  have hname : (Variable.assigned (Text.trim name) source).name = Text.trim name := rfl
  rw [Variable.ofLiteral, ← hname]
  generalize Variable.assigned (Text.trim name) source = v
  rw [Variable.checked]
  split
  · next hempty => exact .error ⟨rfl, List.isEmpty_iff.1 hempty⟩
  · next hfull => exact .ok fun hempty => hfull (List.isEmpty_iff.2 hempty)

namespace Constant

/-- A registration in a text whose name, without its quotation marks, is not empty but has only white space. -/
def HasBlankName (text : Text) (found : Occurrence Unit) : Prop :=
  ∃ stop, Delimiter.paren.close text (Registration.parenAfter text found.start) = .ok stop ∧
    let arguments := Text.splitArguments (text.slice (Registration.parenAfter text found.start + 1) stop)
    Text.unquote (arguments.headD []) ≠ [] ∧ Text.trim (Text.unquote (arguments.headD [])) = []

theorem outcome_ofOccurrence (text : Text) (found : Occurrence Unit) :
    Outcome (fun fault => fault.IsUnbalanced ∨ fault = .emptyVariableName ∧ HasBlankName text found)
      (fun constant? => ∀ v ∈ constant?, v.name ≠ []) (ofOccurrence text found) := by
  rw [ofOccurrence]
  -- A blank name is said with the end of its call, so the end has to stay known: `Outcome.bind` would forget it.
  have hclose := outcome_close .paren text (Registration.parenAfter text found.start)
  cases hstop : Delimiter.paren.close text (Registration.parenAfter text found.start) with
  | error fault =>
    rw [hstop] at hclose
    cases hclose with
    | error hunbalanced => exact .error (.inl hunbalanced)
  | ok stop =>
    simp only [bind, Except.bind]
    split
    · exact .ok fun _ hmem => nomatch hmem
    · next hname =>
      refine ((outcome_ofLiteral _ _).mono ?_).map fun v hv => ?_
      · rintro fault ⟨hfault, hblank⟩
        exact .inr ⟨hfault, stop, hstop, by simpa using hname, hblank⟩
      · intro other hother
        rwa [← Option.mem_some.1 hother]

/-- The constants of a text are named. Only a registration with a blank name is refused by anything but its
delimiters. -/
theorem outcome_constantAnalyze (text : Text) :
    Outcome (fun fault => fault.IsUnbalanced ∨ fault = .emptyVariableName ∧
        ∃ found ∈ signature.occurrences (inlineLocals text).1, HasBlankName (inlineLocals text).1 found)
      Named (analyze text) := by
  rw [analyze]
  obtain ⟨inlined, locals⟩ := inlineLocals text
  have hfound : Outcome (fun fault => fault.IsUnbalanced ∨ fault = .emptyVariableName ∧
        ∃ found ∈ signature.occurrences inlined, HasBlankName inlined found)
      (fun constants => ∀ constant? ∈ constants, ∀ v ∈ constant?, v.name ≠ [])
      ((signature.occurrences inlined).mapM (ofOccurrence inlined)) := by
    refine Outcome.mapM fun found hfound => (outcome_ofOccurrence inlined found).mono ?_
    rintro fault (hunbalanced | ⟨hname, hblank⟩)
    · exact .inl hunbalanced
    · exact .inr ⟨hname, found, hfound, hblank⟩
  refine hfound.bind fun constants hconstants => .ok fun v hv => ?_
  obtain ⟨constant?, hmem, hsome⟩ := List.mem_filterMap.1 hv
  exact hconstants constant? hmem v hsome

end Constant

/-! ### All kinds -/

/-- The variables of a model, those of its functions among them. -/
def Model.variables : Model → List Variable
  | .component _ | .controller _ | .directive _ | .service _ | .suite _ => []
  | .attributeDirective model => model.variables
  | .filters models => models.flatMap Filter.variables
  | .constants models => models

/-- The analyses of all kinds but constants. -/
theorem settles_analyze {kind : ConstructKind} (hkind : kind ≠ .constant) (text : Text) :
    (kind.analyze text).Settles Fault.IsUnbalanced fun model => Named model.variables := by
  cases kind with
  | component => exact (Logged.Settles.ofExcept (outcome_componentAnalyze text)).bind fun _ _ => .pure named_nil
  | controller => exact (Logged.Settles.ofExcept (outcome_registeredAnalyze _ text)).bind fun _ _ => .pure named_nil
  | directive => exact (settles_directiveAnalyze text).bind fun _ _ => .pure named_nil
  | attributeDirective => exact (settles_attributeDirectiveAnalyze text).bind fun _ hfound => .pure hfound.2
  | service => exact (Logged.Settles.ofExcept (outcome_registeredAnalyze _ text)).bind fun _ _ => .pure named_nil
  | filter => exact (settles_filterOfOccurrences text 0 _).bind fun _ hnamed => .pure hnamed
  | constant => exact absurd rfl hkind
  | spec => exact (settles_suiteAnalyze text).bind fun _ _ => .pure named_nil

/-- The analyses of all kinds. -/
theorem outcome_analyze (kind : ConstructKind) (text : Text) :
    Outcome (fun fault => fault.IsUnbalanced ∨ kind = .constant ∧ fault = .emptyVariableName ∧
        ∃ found ∈ Constant.signature.occurrences (inlineLocals text).1,
          Constant.HasBlankName (inlineLocals text).1 found)
      (fun model => Named model.variables) (kind.analyze text).outcome := by
  -- Only constants have a second way to fail.
  by_cases hkind : kind = .constant
  · subst hkind
    have hconstants : (ConstructKind.constant.analyze text).Settles _ fun model => Named model.variables :=
      (Logged.Settles.ofExcept (Constant.outcome_constantAnalyze text)).bind fun _ hnamed => .pure hnamed
    refine (hconstants []).mono ?_
    rintro fault (hunbalanced | hblank)
    · exact .inl hunbalanced
    · exact .inr ⟨rfl, hblank⟩
  · exact (settles_analyze hkind text []).mono fun _ => .inl

/-- Whatever the text, an analysis of any kind finds a model whose variables all have names, or it stops at a
delimiter that is not closed. Only constants stop elsewhere, at a registration with a blank name. -/
theorem analyze_total (kind : ConstructKind) (text : Text) :
    (∃ model, (kind.analyze text).outcome = .ok model ∧ ∀ v ∈ model.variables, v.name ≠ []) ∨
    (∃ opening start, (kind.analyze text).outcome = .error (.unbalanced opening start)) ∨
    kind = .constant ∧ (kind.analyze text).outcome = .error .emptyVariableName ∧
      ∃ found ∈ Constant.signature.occurrences (inlineLocals text).1,
        Constant.HasBlankName (inlineLocals text).1 found := by
  have houtcome := outcome_analyze kind text
  generalize (kind.analyze text).outcome = outcome at houtcome ⊢
  cases houtcome with
  | ok hnamed => exact .inl ⟨_, rfl, hnamed⟩
  | error hfault =>
    rcases hfault with ⟨opening, start, rfl⟩ | ⟨hkind, rfl, hblank⟩
    · exact .inr (.inl ⟨opening, start, rfl⟩)
    · exact .inr (.inr ⟨hkind, rfl, hblank⟩)

/-- A name of one space is not empty, but nothing is left of it once it is trimmed. -/
theorem analyze_blank_constant :
    (ConstructKind.constant.analyze (txt "angular.module('a').constant(' ', 1);")).outcome =
      .error .emptyVariableName := by
  -- Equality of faults can be evaluated, that of models cannot.
  have hfault : (match (ConstructKind.constant.analyze (txt "angular.module('a').constant(' ', 1);")).outcome with
      | .ok _ => false
      | .error fault => decide (fault = .emptyVariableName)) = true := by
    decide +kernel
  revert hfault
  generalize (ConstructKind.constant.analyze (txt "angular.module('a').constant(' ', 1);")).outcome = outcome
  intro hfault
  cases outcome with
  | ok model => exact absurd hfault Bool.false_ne_true
  | error fault => rw [of_decide_eq_true hfault]

end AngularUplift
