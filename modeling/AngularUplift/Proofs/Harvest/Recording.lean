import AngularUplift.Proofs.Harvest.Accounting
import AngularUplift.Proofs.Harvest.Unmigrated

/-!
# What is recorded of assignments

The property passes of a harvest consume assignments, and the first assignment to each name that does not stand for
the receiver becomes a property. Whatever the passes do not consume is left and goes into the comment that keeps
leftover code. An assignment that repeats a name is consumed like the first one, but nothing keeps its right-hand side.

## Main definitions

* `Harvester.FirstAssigned`: the first right-hand side that a name is assigned.
* `Harvester.Records`: a property with a name and a right-hand side.

## Main statements

* `Harvester.mem_recordProperties_iff`: the properties are made of the first assignments.
* `Harvester.records_iff`: an assignment is recorded exactly when the first one to its name has the same expression.
* `Harvester.assignments_recorded`: what becomes of everything that the property passes consume, and of the rest.
* `Harvester.repeated_assignment_lost`: the second assignment to a name leaves no trace.
-/

namespace AngularUplift

namespace Harvester

/-! ### Recorded assignments -/

/-- The first of a sequence of assignments to a name has this right-hand side, apart from those that let the name stand
for the receiver. -/
def FirstAssigned (assignments : List (Text × Text)) (name source : Text) : Prop :=
  ∃ front back, assignments = front ++ (name, source) :: back ∧ source ≠ txt "this" ∧
    ∀ earlier ∈ front, earlier.1 = name → earlier.2 = txt "this"

variable {assignments : List (Text × Text)} {name source : Text}

/-- An assignment to another name, or one that makes the name stand for the receiver, changes nothing in front. -/
theorem firstAssigned_cons_of_ne {entry : Text × Text} (h : entry.1 = name → entry.2 = txt "this") :
    FirstAssigned (entry :: assignments) name source ↔ FirstAssigned assignments name source := by
  constructor
  · rintro ⟨front, back, heq, hsource, hfront⟩
    cases front with
    | nil =>
      obtain ⟨rfl, -⟩ := List.cons.inj heq
      exact absurd (h rfl) hsource
    | cons first front =>
      obtain ⟨-, rfl⟩ := List.cons.inj heq
      exact ⟨front, back, rfl, hsource, fun earlier hmem => hfront earlier (List.mem_cons_of_mem _ hmem)⟩
  · rintro ⟨front, back, rfl, hsource, hfront⟩
    exact ⟨entry :: front, back, rfl, hsource, List.forall_mem_cons.2 ⟨h, hfront⟩⟩

/-- An assignment is the first one to its name in front of any others. -/
theorem firstAssigned_cons_self {first : Text} (h : first ≠ txt "this") :
    FirstAssigned ((name, first) :: assignments) name source ↔ source = first := by
  constructor
  · rintro ⟨front, back, heq, -, hfront⟩
    cases front with
    | nil => exact (Prod.mk.inj (List.cons.inj heq).1).2.symm
    | cons entry front =>
      obtain ⟨rfl, -⟩ := List.cons.inj heq
      exact absurd (hfront _ List.mem_cons_self rfl) h
  · rintro rfl
    exact ⟨[], assignments, rfl, h, List.forall_mem_nil _⟩

/-- Among the right-hand sides of a name at most one is the first. -/
theorem FirstAssigned.unique {other : Text} (h : FirstAssigned assignments name source)
    (hother : FirstAssigned assignments name other) : source = other := by
  induction assignments with
  | nil =>
    obtain ⟨front, back, heq, -⟩ := h
    simp at heq
  | cons entry rest ih =>
    by_cases hentry : entry.1 = name → entry.2 = txt "this"
    · exact ih ((firstAssigned_cons_of_ne hentry).1 h) ((firstAssigned_cons_of_ne hentry).1 hother)
    · obtain ⟨rfl, hsource⟩ := Classical.not_imp.1 hentry
      rw [(firstAssigned_cons_self hsource).1 h, (firstAssigned_cons_self hsource).1 hother]

/-- A name that is assigned anything but the receiver has a first assignment. -/
theorem exists_firstAssigned (h : (name, source) ∈ assignments) (hsource : source ≠ txt "this") :
    ∃ first, FirstAssigned assignments name first := by
  induction assignments with
  | nil => exact absurd h List.not_mem_nil
  | cons entry rest ih =>
    by_cases hentry : entry.1 = name → entry.2 = txt "this"
    · have hrest : (name, source) ∈ rest := by
        refine (List.mem_cons.1 h).resolve_left ?_
        rintro rfl
        exact hsource (hentry rfl)
      obtain ⟨first, hfirst⟩ := ih hrest
      exact ⟨first, (firstAssigned_cons_of_ne hentry).2 hfirst⟩
    · obtain ⟨rfl, hfirst⟩ := Classical.not_imp.1 hentry
      exact ⟨entry.2, (firstAssigned_cons_self hfirst).2 rfl⟩

/-- The properties are the first assignments to the names that were not seen before. -/
theorem mem_recordProperties_iff {seen : List Text} {v : Variable} :
    v ∈ recordProperties seen assignments ↔
      ∃ name source, name ∉ seen ∧ FirstAssigned assignments name source ∧ v = Variable.assigned name source := by
  induction assignments generalizing seen with
  | nil =>
    refine iff_of_false List.not_mem_nil ?_
    rintro ⟨name, source, -, ⟨front, back, heq, -⟩, -⟩
    simp at heq
  | cons entry rest ih =>
    obtain ⟨first, value⟩ := entry
    rw [recordProperties]
    split
    · next hskip =>
      -- An entry that is passed over is about a name that was seen, or is none of the first assignments.
      rw [ih]
      refine exists_congr fun name => exists_congr fun source => and_congr_right fun hname => and_congr_left fun _ => ?_
      refine (firstAssigned_cons_of_ne ?_).symm
      rintro rfl
      exact hskip.resolve_right hname
    · next hrecord =>
      obtain ⟨hvalue, hfirst⟩ := not_or.1 hrecord
      rw [List.mem_cons, ih]
      constructor
      · rintro (rfl | ⟨name, source, hname, hassigned, rfl⟩)
        · exact ⟨first, value, hfirst, (firstAssigned_cons_self hvalue).2 rfl, rfl⟩
        · obtain ⟨hne, hseen⟩ := not_or.1 (mt List.mem_cons.2 hname)
          exact ⟨name, source, hseen, (firstAssigned_cons_of_ne fun heq => absurd heq.symm hne).2 hassigned, rfl⟩
      · rintro ⟨name, source, hseen, hassigned, rfl⟩
        by_cases hname : name = first
        · subst hname
          rw [(firstAssigned_cons_self hvalue).1 hassigned]
          exact .inl rfl
        · refine .inr ⟨name, source, ?_, (firstAssigned_cons_of_ne fun heq => absurd heq.symm hname).1 hassigned, rfl⟩
          exact fun hmem => (List.mem_cons.1 hmem).elim hname hseen

/-- No two properties have the same name, and none has a name that was seen before. -/
theorem nodup_recordProperties (seen : List Text) (assignments : List (Text × Text)) :
    ((recordProperties seen assignments).map (·.name)).Nodup ∧
      ∀ v ∈ recordProperties seen assignments, v.name ∉ seen := by
  induction assignments generalizing seen with
  | nil => exact ⟨List.nodup_nil, List.forall_mem_nil _⟩
  | cons entry rest ih =>
    rw [recordProperties]
    split
    · exact ih seen
    · next hrecord =>
      obtain ⟨hnodup, hnew⟩ := ih (entry.1 :: seen)
      refine ⟨List.nodup_cons.2 ⟨fun hmem => ?_, hnodup⟩, List.forall_mem_cons.2 ⟨(not_or.1 hrecord).2, fun v hv => ?_⟩⟩
      · obtain ⟨v, hv, hname⟩ := List.mem_map.1 hmem
        exact hnew v hv (hname ▸ List.mem_cons_self)
      · exact fun hmem => hnew v hv (List.mem_cons_of_mem _ hmem)

/-- Some property has the name, and the right-hand side as its expression. -/
def Records (properties : List Variable) (name source : Text) : Prop :=
  ∃ v ∈ properties, v.name = name ∧ v.expression = trimExpression source

/-- Whether a right-hand side is recorded is decidable. -/
instance (properties : List Variable) (name source : Text) : Decidable (Records properties name source) :=
  inferInstanceAs (Decidable (∃ v ∈ properties, _))

/-- An assignment is recorded exactly when the first assignment to its name has the same expression. -/
theorem records_iff {first : Text} (h : FirstAssigned assignments name first) (source : Text) :
    Records (recordProperties [] assignments) name source ↔ trimExpression source = trimExpression first := by
  constructor
  · rintro ⟨v, hv, rfl, hexpression⟩
    obtain ⟨name, other, -, hother, rfl⟩ := mem_recordProperties_iff.1 hv
    rw [h.unique hother, ← hexpression]
    rfl
  · intro hsame
    exact ⟨Variable.assigned name first, mem_recordProperties_iff.2 ⟨name, first, List.not_mem_nil, h, rfl⟩, rfl,
      hsame.symm⟩

/-! ### The property passes of a harvest -/

/-- The property passes of a harvest cut assignments out of what is left before them, and leave the residual. Each of
these assignments makes its name stand for the receiver, or is recorded exactly when the first assignment to its name
has the same expression. Every line of the residual that is more than spaces, tabs and semicolons stands, apart from
white space, in the comment that keeps leftover code. -/
theorem assignments_recorded (h : Harvester) (body : Text) :
    let harvest := (h.harvest body).1
    let properties := recordProperties [] (h.assigned body)
    (∃ cuts, Passes (fun head text cut => ∃ parts, PropertyCut head text cut parts) h.heads
        (h.unassigned body).residual cuts harvest.residual ∧ h.assigned body = cuts.flatten.map (·.value)) ∧
      harvest.properties = h.declareAssigned harvest.functions properties ∧
      (∀ entry ∈ h.assigned body, entry.2 = txt "this" ∨
        ∃ first, FirstAssigned (h.assigned body) entry.1 first ∧ Records properties entry.1 first ∧
          (Records properties entry.1 entry.2 ↔ trimExpression entry.2 = trimExpression first)) ∧
      ∀ line ∈ codeLines harvest.residual, Text.ink line <:+: Text.ink harvest.todo := by
  obtain ⟨hproperties, hresidual⟩ := harvest_assigned h body
  obtain ⟨cuts, hpasses, hassigned⟩ := passes_propertyPasses h.heads (reachable_unassigned h body)
  rw [← assigned] at hassigned
  rw [← hresidual] at hpasses
  -- The harvest need not run for any of this.
  generalize (h.harvest body).1 = harvest at hproperties hpasses ⊢
  refine ⟨⟨cuts, hpasses, hassigned⟩, hproperties, fun entry hentry => ?_, fun line hline => ?_⟩
  · refine or_iff_not_imp_left.2 fun hsource => ?_
    obtain ⟨first, hfirst⟩ := exists_firstAssigned hentry hsource
    exact ⟨first, hfirst, (records_iff hfirst first).2 rfl, records_iff hfirst entry.2⟩
  · exact ink_infix_unmigratedBlock hline harvest.preserved

/-- The second of two assignments to a name is consumed, and its right-hand side is neither among the properties nor
in what is left. -/
theorem repeated_assignment_lost :
    let h : Harvester := {}
    let body := txt "ctrl.a = 1;\nctrl.a = 2;"
    let harvest := (h.harvest body).1
    h.assigned body = [(txt "a", txt "1"), (txt "a", txt "2")] ∧ ¬Records harvest.properties (txt "a") (txt "2") ∧
      harvest.residual = txt "\n" ∧ harvest.todo = [] := by
  decide +kernel

end Harvester

end AngularUplift
