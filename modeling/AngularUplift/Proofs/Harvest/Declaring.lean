import AngularUplift.Harvest.Basic
import AngularUplift.Proofs.Text.Line
import AngularUplift.Proofs.Text.Occurrence
import AngularUplift.Proofs.Text.Token

/-!
# Members that functions assign

After the properties of a body its harvest declares the members that are first assigned inside a function. An
assignment in the body of a function is found wherever it stands: what is found before it ends with an equals sign,
and so before the receiver begins. Each name is declared once, and only if it is neither a property nor a function.

## Main definitions

* `Assigns`: a text in which a member of a receiver is assigned.

## Main statements

* `assignmentTo_eq_some_iff`: the reader of assignments reads what is written as one, and nothing else.
* `Assigns.mem_occurrences`: every assignment to a member of a receiver is found.
* `Harvester.declareAssigned_spec`: which members are declared after the properties.
-/

namespace AngularUplift

/-! ### Assignments in a text -/

/-- A text in which a member with this name is assigned through one of the receivers. The receiver is a whole name and
no member of anything else, and the equals sign is no part of a comparison. -/
inductive Assigns (receivers : List Text) (name : Text) : (text : Text) → Prop
  /-- The receiver, a point, the name, white space and an equals sign, and what stands around them. -/
  | intro {front receiver space back : Text} (hreceiver : receiver ∈ receivers)
      (hfront : ∀ c ∈ front.getLast?, isMemberContext c = false) (hname : IsName name)
      (hspace : ∀ c ∈ space, isBlank c) (hback : back.head? ≠ some '=') :
      Assigns receivers name (front ++ (receiver ++ (['.'] ++ (name ++ (space ++ (['='] ++ back))))))

variable {receivers : List Text} {receiver name text rest : Text}

/-- Neither white space nor an equals sign goes on a name. -/
theorem isName_head_assignment {space : Text} (hspace : ∀ c ∈ space, isBlank c) (rest : Text) :
    ∀ c ∈ (space ++ (['='] ++ rest)).head?, isName c = false := by
  intro c hc
  cases space with
  | nil =>
    obtain rfl : '=' = c := by simpa using hc
    decide
  | cons d space =>
    obtain rfl : d = c := by simpa using hc
    exact isName_of_isBlank (hspace d List.mem_cons_self)

/-- The reader of assignments reads what is written as one, and nothing else. -/
theorem assignmentTo_eq_some_iff :
    assignmentTo receiver text = some (name, rest) ↔ IsName name ∧ rest.head? ≠ some '=' ∧
      ∃ space, (∀ c ∈ space, isBlank c) ∧ text = receiver ++ (['.'] ++ (name ++ (space ++ (['='] ++ rest)))) := by
  constructor
  · intro h
    simp only [assignmentTo, Reader.bind_eq_some_iff, Reader.exactly_eq_some_iff, Reader.pure_eq_some_iff] at h
    obtain ⟨-, _, rfl, found, _, hname, space, _, hspace, -, _, rfl, _, _, hnext, rfl, rfl⟩ := h
    obtain ⟨rfl, hne, hchars⟩ := Reader.run1_eq_some hname
    obtain ⟨rfl, hblank⟩ := Reader.run_eq_some hspace
    obtain ⟨rfl, hsign⟩ := Reader.notNext_eq_some hnext
    refine ⟨⟨hne, hchars⟩, fun hhead => hsign '=' hhead rfl, space, hblank, ?_⟩
    rw [List.append_assoc]
  · rintro ⟨⟨hne, hchars⟩, hsign, space, hspace, rfl⟩
    have hequals : ∀ c ∈ (['='] ++ rest).head?, isBlank c = false := by
      intro c hc
      obtain rfl : '=' = c := by simpa using hc
      decide
    refine Reader.bind_eq_some_iff.2 ⟨(), _, Reader.exactly_eq_some_iff.2 (List.append_assoc ..).symm, ?_⟩
    refine Reader.bind_eq_some_iff.2 ⟨name, _, Reader.run1_append hne hchars (isName_head_assignment hspace rest), ?_⟩
    refine Reader.bind_eq_some_iff.2 ⟨space, _, Reader.run_append hspace hequals, ?_⟩
    refine Reader.bind_eq_some_iff.2 ⟨(), rest, Reader.exactly_eq_some_iff.2 rfl, ?_⟩
    refine Reader.bind_eq_some_iff.2 ⟨(), rest, Reader.notNext_eq fun c hc => ?_, rfl⟩
    exact beq_eq_false_iff_ne.2 fun heq => hsign (heq ▸ hc)

/-- An assignment to a member of one of several receivers is read by the reader for one of them. -/
theorem read_memberAssignment_eq (hne : receivers ≠ []) :
    (memberAssignment receivers).read = Reader.firstOf (receivers.map assignmentTo) := by
  have hnonempty : receivers.isEmpty = false := List.isEmpty_eq_false_iff.2 hne
  rw [memberAssignment, hnonempty]
  rfl

/-- Among receivers that are names, the text decides which one is read. -/
theorem read_memberAssignment (hreceivers : ∀ r ∈ receivers, IsName r) (hreceiver : receiver ∈ receivers)
    (h : assignmentTo receiver text = some (name, rest)) :
    (memberAssignment receivers).read text = some (name, rest) := by
  have hsome : (Reader.firstOf (receivers.map assignmentTo) text).isSome :=
    Reader.isSome_firstOf (List.mem_map_of_mem hreceiver) (by rw [h]; rfl)
  obtain ⟨⟨found, left⟩, hfound⟩ := Option.isSome_iff_exists.1 hsome
  obtain ⟨r, hr, hother⟩ := Reader.firstOf_eq_some hfound
  obtain ⟨other, hmem, rfl⟩ := List.mem_map.1 hr
  obtain ⟨-, -, space, -, htext⟩ := assignmentTo_eq_some_iff.1 h
  obtain ⟨-, -, gap, -, hsame⟩ := assignmentTo_eq_some_iff.1 hother
  -- Both receivers end at the first point, so that they are the same.
  have hpoint : ∀ tail : Text, ∀ c ∈ (['.'] ++ tail).head?, isName c = false := by
    intro tail c hc
    obtain rfl : '.' = c := by simpa using hc
    decide
  obtain ⟨rfl, -⟩ :=
    (hreceivers receiver hreceiver).append_inj (hreceivers other hmem) (hpoint _) (hpoint _) (htext.symm.trans hsame)
  rw [read_memberAssignment_eq (List.ne_nil_of_mem hreceiver), hfound, ← hother, h]

/-- No assignment that begins before a name goes on into it. -/
theorem length_le_of_at? (hreceivers : ∀ r ∈ receivers, IsName r) (hne : receivers ≠ [])
    {before late back found : Text} {n : Nat} (hnonempty : late ≠ [])
    (hlate : ∀ c ∈ late.getLast?, isMemberContext c = false) (hback : ∀ c ∈ back.head?, isName c)
    (h : (memberAssignment receivers).at? before (late ++ back) = some (n, found)) : n ≤ late.length := by
  obtain ⟨rest, hread, rfl⟩ := Pattern.read_of_at? h
  rw [read_memberAssignment_eq hne] at hread
  obtain ⟨r, hr, hassigned⟩ := Reader.firstOf_eq_some hread
  obtain ⟨receiver, hreceiver, rfl⟩ := List.mem_map.1 hr
  obtain ⟨hname, -, space, hspace, htext⟩ := assignmentTo_eq_some_iff.1 hassigned
  -- An assignment is a member, which is all names and a point, and then white space and a sign, without a name.
  have hmember : ∀ c ∈ receiver ++ (['.'] ++ found), isMemberContext c = true := by
    have hnames : ∀ c, isName c = true → isMemberContext c = true := by
      intro c hc
      rw [isMemberContext, hc, Bool.true_or]
    refine List.forall_mem_append.2 ⟨fun c hc => hnames c ((hreceivers receiver hreceiver).2 c hc), ?_⟩
    exact List.forall_mem_append.2 ⟨List.forall_mem_singleton.2 (by decide), fun c hc => hnames c (hname.2 c hc)⟩
  have hsign : ∀ c ∈ space ++ ['='], isName c = false :=
    List.forall_mem_append.2
      ⟨fun c hc => isName_of_isBlank (hspace c hc), List.forall_mem_singleton.2 (by decide)⟩
  have hsplit : late ++ back = (receiver ++ (['.'] ++ found)) ++ ((space ++ ['=']) ++ rest) := by
    rw [htext]
    simp only [List.append_assoc]
  have hlength := congrArg List.length hsplit
  simp only [List.length_append] at hlength ⊢
  rcases List.append_eq_append_iff.1 hsplit with ⟨more, hmore, -⟩ | ⟨more, rfl, hmore⟩
  · have hlast := List.getLast?_eq_getLast_of_ne_nil hnonempty
    have hinside := hmember _ (hmore ▸ List.mem_append_left more (List.getLast_mem hnonempty))
    rw [hlate _ hlast] at hinside
    exact absurd hinside (by decide)
  · rcases List.append_eq_append_iff.1 hmore with ⟨tail, rfl, -⟩ | ⟨tail, htail, rfl⟩
    · simp only [List.length_append] at hlength ⊢
      omega
    · cases tail with
      | nil =>
        have hend := congrArg List.length htail
        simp only [List.length_append, List.length_nil] at hlength hend ⊢
        omega
      | cons c tail =>
        have hc := hsign c (htail ▸ List.mem_append_right more List.mem_cons_self)
        rw [hback c rfl] at hc
        exact absurd hc (by decide)

/-- Every assignment to a member of a receiver is found. -/
theorem Assigns.mem_occurrences (hreceivers : ∀ r ∈ receivers, IsName r) (h : Assigns receivers name text) :
    name ∈ ((memberAssignment receivers).occurrences text).map (·.value) := by
  obtain @⟨front, receiver, space, back, hreceiver, hfront, hname, hspace, hback⟩ := h
  have hread := read_memberAssignment hreceivers hreceiver
    (assignmentTo_eq_some_iff.2 ⟨hname, hback, space, hspace, rfl⟩)
  have hleft : (memberAssignment receivers).left front.reverse
      (receiver ++ (['.'] ++ (name ++ (space ++ (['='] ++ back))))) = true := by
    show (!front.reverse.head?.any isMemberContext) = true
    rw [List.head?_reverse]
    cases hlast : front.getLast? with
    | none => rfl
    | some c => rw [Option.any_some, hfront c hlast, Bool.not_false]
  have hbegins : ∀ c ∈ (receiver ++ (['.'] ++ (name ++ (space ++ (['='] ++ back))))).head?, isName c := by
    obtain ⟨hne, hchars⟩ := hreceivers receiver hreceiver
    obtain ⟨d, tail, rfl⟩ := List.exists_cons_of_ne_nil hne
    rintro c ⟨⟩
    exact hchars d List.mem_cons_self
  refine List.mem_map.2 ⟨_, Pattern.mem_occurrences_of_at? (by rw [Pattern.at?, if_pos hleft, hread]; rfl) ?_, rfl⟩
  rintro early late rfl hne m other hother
  refine length_le_of_at? hreceivers (List.ne_nil_of_mem hreceiver) hne (fun c hc => hfront c ?_) hbegins hother
  rw [List.getLast?_append, Option.mem_def.1 hc, Option.some_or]
  rfl

namespace Harvester

/-! ### Declared names -/

/-- The new names are those that are not known. -/
theorem mem_newNames_iff {known names : List Text} : name ∈ newNames known names ↔ name ∈ names ∧ name ∉ known := by
  induction names generalizing known with
  | nil => simp [newNames]
  | cons first rest ih =>
    rw [newNames]
    split
    · next hknown =>
      rw [ih, List.mem_cons]
      refine and_congr_left fun hname => (or_iff_right ?_).symm
      rintro rfl
      exact hname hknown
    · next hknown =>
      rw [List.mem_cons, ih, List.mem_cons, List.mem_cons]
      by_cases hname : name = first
      · subst hname
        simp [hknown]
      · simp [hname]

/-- Each new name is declared once. -/
theorem nodup_newNames (known names : List Text) : (newNames known names).Nodup := by
  induction names generalizing known with
  | nil => exact List.nodup_nil
  | cons first rest ih =>
    rw [newNames]
    split
    · exact ih known
    · exact List.nodup_cons.2 ⟨fun hmem => (mem_newNames_iff.1 hmem).2 List.mem_cons_self, ih _⟩

/-- After the properties, the members that functions assign are declared, each once and none that is a property or a
function already. Whatever is assigned in the body of a function through a receiver is then declared. -/
theorem declareAssigned_spec (h : Harvester) (hreceivers : ∀ r ∈ h.receivers, IsName r) (functions : List Function)
    (properties : List Variable) :
    ∃ added, h.declareAssigned functions properties = properties ++ added ∧ (added.map (·.name)).Nodup ∧
      (∀ v ∈ added, v.name ∉ properties.map (·.name) ∧ v.name ∉ functions.map (·.name)) ∧
      ∀ f ∈ functions, ∀ name, Assigns h.receivers name f.body →
        name ∈ (properties ++ added).map (·.name) ∨ name ∈ functions.map (·.name) := by
  set known := properties.map (·.name) ++ functions.map (·.name) with hknown
  set names := functions.flatMap fun f => ((memberAssignment h.receivers).occurrences f.body).map (·.value) with hnames
  have hadded : ((newNames known names).map Variable.named).map (·.name) = newNames known names := by
    rw [List.map_map]
    exact List.map_id _
  refine ⟨(newNames known names).map Variable.named, rfl, ?_, ?_, ?_⟩
  · rw [hadded]
    exact nodup_newNames known names
  · intro v hv
    obtain ⟨name, hname, rfl⟩ := List.mem_map.1 hv
    exact not_or.1 (mt List.mem_append.2 (mem_newNames_iff.1 hname).2)
  · intro f hf name hassigns
    have hmem : name ∈ names := List.mem_flatMap.2 ⟨f, hf, hassigns.mem_occurrences hreceivers⟩
    rw [List.map_append, hadded, List.mem_append, or_right_comm, ← List.mem_append, ← hknown, mem_newNames_iff]
    exact or_iff_not_imp_left.2 fun hnew => ⟨hmem, hnew⟩

end Harvester

end AngularUplift
