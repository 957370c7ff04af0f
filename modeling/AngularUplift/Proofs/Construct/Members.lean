import AngularUplift.Construct.Component
import AngularUplift.Proofs.Construct.Totality
import AngularUplift.Proofs.Harvest.Declaring
import AngularUplift.Proofs.Harvest.Recording

/-!
# The members of a component

A component has its bindings as inputs, and its properties and functions from its controller. Each property is declared
once and is no input, and whatever the functions assign through the component is an input, a property or a function.

## Main definitions

* `Component.DeclaresMembers`: a component whose members are declared once and completely.

## Main statements

* `Component.members_declared`: so is every component that a legacy component and a controller become.
-/

namespace AngularUplift

namespace Component

/-- A component with the members of a body, each declared once, and none of those that its functions assign missing. -/
structure DeclaresMembers (component : Component) (body : Text) : Prop where
  /-- The functions are those of the body. -/
  functions_eq : component.functions = (Harvester.harvest {} body).1.functions
  /-- No two properties have the same name. -/
  nodup : (component.properties.map (·.name)).Nodup
  /-- No property has the name of an input. -/
  not_input : ∀ v ∈ component.properties, v.name ∉ component.inputs.map (·.name)
  /-- A property that is not assigned in the body itself is declared because a function assigns it, and has no
  function's name. -/
  not_function : ∀ v ∈ component.properties,
    v ∈ Harvester.recordProperties [] (Harvester.assigned {} body) ∨ v.name ∉ component.functions.map (·.name)
  /-- What a function assigns through the component is an input, a property or a function. -/
  complete : ∀ f ∈ component.functions, ∀ name, Assigns [txt "ctrl", txt "this"] name f.body →
    name ∈ component.inputs.map (·.name) ∨ name ∈ component.properties.map (·.name) ∨
      name ∈ component.functions.map (·.name)

/-- The members of a body without the inputs are declared once and completely. -/
theorem declaresMembers_of_harvest {component : Component} {body : Text}
    (hfunctions : component.functions = (Harvester.harvest {} body).1.functions)
    (hproperties : component.properties =
      (Harvester.harvest {} body).1.properties.filter fun p => !(component.inputs.any (·.name == p.name))) :
    component.DeclaresMembers body := by
  obtain ⟨hdeclared, -⟩ := Harvester.harvest_assigned {} body
  set recorded := Harvester.recordProperties [] (Harvester.assigned {} body) with hrecorded
  obtain ⟨added, hadded, hnodup, hnew, hcomplete⟩ :=
    Harvester.declareAssigned_spec {} (by decide) (Harvester.harvest {} body).1.functions recorded
  rw [hadded] at hdeclared
  rw [← hfunctions] at hnew hcomplete
  have hmem : ∀ v, v ∈ component.properties ↔ v ∈ recorded ++ added ∧ v.name ∉ component.inputs.map (·.name) := by
    intro v
    rw [hproperties, hdeclared, List.mem_filter]
    simp
  refine ⟨hfunctions, ?_, fun v hv => ((hmem v).1 hv).2, fun v hv => ?_, fun f hf name hassigns => ?_⟩
  · -- A filter leaves names in their order, and the two parts share none.
    have hall : ((recorded ++ added).map (·.name)).Nodup := by
      rw [List.map_append]
      refine List.nodup_append.2 ⟨(Harvester.nodup_recordProperties [] _).1, hnodup, ?_⟩
      rintro name hrecord other hadd rfl
      obtain ⟨v, hv, rfl⟩ := List.mem_map.1 hadd
      exact (hnew v hv).1 hrecord
    rw [hproperties, hdeclared]
    exact hall.sublist (List.filter_sublist.map _)
  · rcases List.mem_append.1 ((hmem v).1 hv).1 with hrecord | hadd
    · exact .inl hrecord
    · exact .inr (hnew v hadd).2
  · rcases hcomplete f hf name hassigns with hproperty | hfunction
    · refine or_iff_not_imp_left.2 fun hinput => .inl ?_
      obtain ⟨v, hv, rfl⟩ := List.mem_map.1 hproperty
      exact List.mem_map_of_mem ((hmem v).2 ⟨hv, hinput⟩)
    · exact .inr (.inr hfunction)

/-- The input for a binding has its name. -/
theorem name_input (body name : Text) : (input body name).name = name := by
  rw [input]
  split <;> rfl

/-- A legacy component and a controller become a component whose inputs are the bindings and whose other members are
declared once and completely. The only thing that stops them is an injected token without a name. -/
theorem members_declared (legacy : LegacyComponent) (controller : Controller) (key : Text) :
    (ofLegacy legacy controller key).Settles (fun fault => fault = .emptyVariableName ∧ [] ∈ controller.inject)
      fun component => component.inputs.map (·.name) = Registration.blockKeys legacy.bindings ∧
        component.DeclaresMembers (normaliseBody controller.body) := by
  -- Only an injection can be faulty, and only because it is empty.
  have hinjections : Outcome (fun fault => fault = .emptyVariableName ∧ [] ∈ controller.inject)
      (fun vs => ∀ v ∈ vs, True) (Variable.ofNames controller.inject) := by
    refine Outcome.mapM fun name hname => ?_
    rw [Variable.checked]
    split
    · next hempty => exact .error ⟨rfl, List.isEmpty_iff.1 hempty ▸ hname⟩
    · exact .ok trivial
  unfold ofLegacy
  extract_lets body inputs key
  have hnames : inputs.map (·.name) = Registration.blockKeys legacy.bindings := by
    rw [List.map_map]
    exact List.map_id'' (fun name => name_input body name) _
  have hmembers := fun component => @declaresMembers_of_harvest component body
  generalize Harvester.harvest {} body = harvest at hmembers
  refine (Logged.Settles.tell _).bind fun _ _ => (Logged.Settles.ofExcept hinjections).bind fun _ _ => ?_
  exact .pure ⟨hnames, hmembers _ rfl rfl⟩

end Component

end AngularUplift
