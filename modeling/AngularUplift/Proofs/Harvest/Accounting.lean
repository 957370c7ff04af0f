import AngularUplift.Proofs.Buffer.View
import AngularUplift.Proofs.Harvest.Form

/-!
# What a harvest takes and what it leaves

Every pass of a harvest cuts disjoint pieces out of what the passes before it have left, and nothing else goes
away. Each piece is a function, a call, a declaration or an assignment, and what is harvested is what these pieces
hold, in the order in which they were cut out.

## Main definitions

* `Removes`: what is left of a text when disjoint pieces of it are cut out.
* `Passes`: passes over a text, one for each left-hand side, each on what the last one left.
* `Harvester.unassigned`, `Harvester.assigned`: the buffer that the property passes of a harvest begin with, and the
  assignments that they consume.

## Main statements

* `removes_of_sweep`: a pass cuts out disjoint pieces of the form that its reader reads.
* `Harvester.harvest_accounts`: the pieces account for the whole harvest.
-/

namespace AngularUplift

/-- What is left of a text when pieces of it are cut out: the pieces are not empty, lie in the text, follow each
other without overlap, and everything outside them stays. -/
structure Removes {β : Type} (cuts : List (Cut β)) (before after : Text) : Prop where
  /-- Each piece ends before the next one begins. -/
  disjoint : cuts.Pairwise fun first second => first.stop ≤ second.start
  /-- No piece is empty or goes beyond the text. -/
  bounded : ∀ cut ∈ cuts, cut.start < cut.stop ∧ cut.stop ≤ before.length
  /-- What is left is the text without the pieces. -/
  after_eq : after = before.without fun index => ∃ cut ∈ cuts, cut.start ≤ index ∧ index < cut.stop

/-- Passes over a text, one for each left-hand side. Each pass cuts out pieces of the given form, and the next one
works on what is left. -/
inductive Passes {β : Type} (Form : MemberHead → Text → Cut β → Prop) :
    List MemberHead → Text → List (List (Cut β)) → Text → Prop
  /-- No pass leaves the text as it is. -/
  | done (text : Text) : Passes Form [] text [] text
  /-- One pass, and then the others. -/
  | pass {head : MemberHead} {heads : List MemberHead} {before middle after : Text} {cuts : List (Cut β)}
      {more : List (List (Cut β))} (hremoves : Removes cuts before middle)
      (hform : ∀ cut ∈ cuts, Form head before cut) (hmore : Passes Form heads middle more after) :
      Passes Form (head :: heads) before (cuts :: more) after

/-! ### One pass -/

variable {α β ε : Type}

/-- Every cut of a pass comes from an occurrence that its reader accepts, at or after the least position. -/
theorem exists_of_mem_sweep {read : Occurrence α → Except ε (Nat × β)} {least : Nat}
    {occurrences : List (Occurrence α)}
    (hread : ∀ found ∈ occurrences, ∀ stop value, read found = .ok (stop, value) → found.start < stop)
    {cut : Cut β} (hcut : cut ∈ cutsOf (sweep read least occurrences)) :
    least ≤ cut.start ∧
      ∃ found ∈ occurrences, found.start = cut.start ∧ read found = .ok (cut.stop, cut.value) := by
  induction occurrences generalizing least with
  | nil => exact absurd hcut (by simp [sweep, cutsOf])
  | cons found rest ih =>
    have hrest := fun later hlater => hread later (List.mem_cons_of_mem _ hlater)
    rw [sweep] at hcut
    split at hcut
    · obtain ⟨hle, later, hlater, hcutLater⟩ := ih hrest hcut
      exact ⟨hle, later, List.mem_cons_of_mem _ hlater, hcutLater⟩
    · next hleast =>
      split at hcut
      · obtain ⟨hle, later, hlater, hcutLater⟩ := ih hrest hcut
        exact ⟨hle, later, List.mem_cons_of_mem _ hlater, hcutLater⟩
      · next stop value hok =>
        -- A cut ends after it begins, so the least position of the later cuts is past this occurrence.
        have hlt := hread found List.mem_cons_self stop value hok
        rcases List.mem_cons.1 hcut with rfl | hmem
        · exact ⟨Nat.le_of_not_lt hleast, found, List.mem_cons_self, rfl, hok⟩
        · obtain ⟨hle, later, hlater, hcutLater⟩ := ih hrest hmem
          exact ⟨by omega, later, List.mem_cons_of_mem _ hlater, hcutLater⟩

/-- The cuts of a pass follow each other without overlap. -/
theorem pairwise_cutsOf_sweep {read : Occurrence α → Except ε (Nat × β)} {least : Nat}
    {occurrences : List (Occurrence α)}
    (hread : ∀ found ∈ occurrences, ∀ stop value, read found = .ok (stop, value) → found.start < stop) :
    (cutsOf (sweep read least occurrences)).Pairwise fun first second => first.stop ≤ second.start := by
  induction occurrences generalizing least with
  | nil => exact List.Pairwise.nil
  | cons found rest ih =>
    have hrest := fun later hlater => hread later (List.mem_cons_of_mem _ hlater)
    rw [sweep]
    split
    · exact ih hrest
    · split
      · exact ih hrest
      · -- The pass goes on from the end of the cut, so every later cut begins there or after it.
        refine List.pairwise_cons.2 ⟨fun later hlater => ?_, ih hrest⟩
        exact (exists_of_mem_sweep hrest hlater).1

/-- Consuming cuts is consuming their spans. -/
theorem SourceBuffer.consumeCuts_eq (buffer : SourceBuffer) (view : SourceView) (cuts : List (Cut β)) :
    buffer.consumeCuts view cuts =
      buffer.consumeSpans view (cuts.map fun cut => ((cut.start : Int), (cut.stop : Int))) := by
  rw [SourceBuffer.consumeCuts, SourceBuffer.consumeSpans, List.foldl_map]

/-- A pass over a buffer cuts out disjoint pieces, each of the form that its reader reads, and leaves the rest. -/
theorem removes_of_sweep {buffer : SourceBuffer} (hbuffer : buffer.Reachable)
    (read : Occurrence α → Except ε (Nat × β)) (occurrences : List (Occurrence α)) (Form : Cut β → Prop)
    (hread : ∀ found ∈ occurrences, ∀ stop value, read found = .ok (stop, value) →
      found.start < stop ∧ stop ≤ buffer.residual.length ∧ Form ⟨found.start, stop, value⟩) :
    let cuts := cutsOf (sweep read 0 occurrences)
    Removes cuts buffer.residual (buffer.consumeCuts buffer.view cuts).residual ∧
      (∀ cut ∈ cuts, Form cut) ∧ (buffer.consumeCuts buffer.view cuts).Reachable := by
  intro cuts
  have hcuts : ∀ cut ∈ cuts, (cut.start < cut.stop ∧ cut.stop ≤ buffer.residual.length) ∧ Form cut := by
    intro cut hcut
    obtain ⟨-, found, hfound, hstart, hok⟩ := exists_of_mem_sweep
      (fun found hfound stop value hok => (hread found hfound stop value hok).1) hcut
    obtain ⟨hlt, hle, hform⟩ := hread found hfound _ _ hok
    rw [hstart] at hlt hform
    exact ⟨⟨hlt, hle⟩, hform⟩
  refine ⟨⟨?_, fun cut hcut => (hcuts cut hcut).1, ?_⟩, fun cut hcut => (hcuts cut hcut).2, ?_⟩
  · exact pairwise_cutsOf_sweep fun found hfound stop value hok => (hread found hfound stop value hok).1
  · -- All cuts of a pass go through the one view that the pass looked at.
    rw [SourceBuffer.consumeCuts_eq, SourceBuffer.residual_consumeSpans hbuffer.consistent.canonical]
    refine Text.without_congr fun index _ => ?_
    simp
  · rw [SourceBuffer.consumeCuts_eq]
    exact hbuffer.consumeSpans _ _

/-! ### The run -/

namespace Harvester

/-- The function passes cut functions out of what is left of the buffer, and give these functions in order. -/
theorem passes_functionPasses (comments : List Text) (heads : List MemberHead) {buffer : SourceBuffer}
    (hbuffer : buffer.Reachable) :
    ∃ cuts, Passes (fun head text cut => ∃ parts, FunctionCut comments head text cut parts) heads
        buffer.residual cuts (functionPasses comments heads buffer).2.1.residual ∧
      (functionPasses comments heads buffer).1 = cuts.flatten.map (·.value) ∧
      (functionPasses comments heads buffer).2.1.Reachable := by
  -- Each pass begins with the buffer that the one before it left.
  induction heads generalizing buffer with
  | nil => exact ⟨[], .done _, rfl, hbuffer⟩
  | cons head heads ih =>
    obtain ⟨hremoves, hform, hnext⟩ := removes_of_sweep hbuffer
      (readFunction comments buffer.view.text) (head.functionHead.occurrences buffer.view.text)
      (fun cut => ∃ parts, FunctionCut comments head buffer.residual cut parts)
      fun _ hfound _ _ => functionCut_of_readFunction hfound
    obtain ⟨cuts, hpasses, hfunctions, hreachable⟩ := ih hnext
    refine ⟨_ :: cuts, .pass hremoves hform hpasses, ?_, hreachable⟩
    rw [List.flatten_cons, List.map_append, ← hfunctions]
    rfl

/-- A pass over calls cuts them out of what is left of the buffer, and gives their texts in order. -/
theorem removes_blockPass (isFunction : Bool) (head : Pattern Unit) {buffer : SourceBuffer}
    (hbuffer : buffer.Reachable) :
    ∃ cuts, Removes cuts buffer.residual (blockPass isFunction head buffer).2.1.residual ∧
      (∀ cut ∈ cuts, BlockCut buffer.residual cut) ∧
      (blockPass isFunction head buffer).1 = cuts.map (·.value) ∧
      (blockPass isFunction head buffer).2.1.Reachable := by
  obtain ⟨hremoves, hform, hnext⟩ := removes_of_sweep hbuffer
    (readBlock isFunction buffer.view.text) (head.occurrences buffer.view.text)
    (BlockCut buffer.residual) fun _ hfound _ _ => blockCut_of_readBlock hfound
  exact ⟨_, hremoves, hform, rfl, hnext⟩

/-- The passes over the other assignments cut assignments out of what is left of the buffer, and give their names
and right-hand sides in order. -/
theorem passes_propertyPasses (heads : List MemberHead) {buffer : SourceBuffer}
    (hbuffer : buffer.Reachable) :
    ∃ cuts, Passes (fun head text cut => ∃ parts, PropertyCut head text cut parts) heads
        buffer.residual cuts (propertyPasses heads buffer).2.residual ∧
      (propertyPasses heads buffer).1 = cuts.flatten.map (·.value) := by
  induction heads generalizing buffer with
  | nil => exact ⟨[], .done _, rfl⟩
  | cons head heads ih =>
    obtain ⟨hremoves, hform, hnext⟩ := removes_of_sweep hbuffer
      (readProperty buffer.view.text) (head.propertyHead.occurrences buffer.view.text)
      (fun cut => ∃ parts, PropertyCut head buffer.residual cut parts)
      fun _ hfound _ _ => propertyCut_of_readProperty hfound
    obtain ⟨cuts, hpasses, hassignments⟩ := ih hnext
    refine ⟨_ :: cuts, .pass hremoves hform hpasses, ?_⟩
    rw [List.flatten_cons, List.map_append, ← hassignments]
    rfl

/-- The prepared text is a buffer of which nothing was consumed. -/
theorem reachable_prepare (body : Text) : (prepare body).Reachable := SourceBuffer.Reachable.ofText _

/-- Before anything is harvested, all of the prepared text is left. -/
theorem residual_prepare (body : Text) :
    (prepare body).residual = Text.removeBindThis body.stripComments :=
  SourceBuffer.residual_ofText _

/-- The outcome of a harvest in terms of its passes. -/
theorem harvest_fst (h : Harvester) (body : Text) :
    let first := functionPasses body.blockComments h.heads (prepare body)
    let second := blockPass false (eventHead h.receivers) first.2.1
    let third := blockPass true namedFunctionHead second.2.1
    let last := propertyPasses h.heads third.2.1
    (h.harvest body).1 =
      { functions := first.1
        properties := h.declareAssigned first.1 (recordProperties [] last.1)
        preserved := second.1 ++ third.1
        residual := last.2.residual } := by
  unfold harvest
  -- The passes need not run for this, only the pairs they return are taken apart.
  generalize functionPasses body.blockComments h.heads (prepare body) = first
  obtain ⟨functions, buffer, records⟩ := first
  simp only

/-- The buffer that the property passes of a harvest begin with. -/
def unassigned (h : Harvester) (body : Text) : SourceBuffer :=
  let first := functionPasses body.blockComments h.heads (prepare body)
  let second := blockPass false (eventHead h.receivers) first.2.1
  (blockPass true namedFunctionHead second.2.1).2.1

theorem reachable_unassigned (h : Harvester) (body : Text) : (h.unassigned body).Reachable := by
  obtain ⟨-, -, -, hfirst⟩ := passes_functionPasses body.blockComments h.heads (reachable_prepare body)
  obtain ⟨-, -, -, -, hsecond⟩ := removes_blockPass false (eventHead h.receivers) hfirst
  obtain ⟨-, -, -, -, hthird⟩ := removes_blockPass true namedFunctionHead hsecond
  exact hthird

/-- The assignments that the property passes of a harvest consume: the names and the right-hand sides, in order. -/
def assigned (h : Harvester) (body : Text) : List (Text × Text) := (propertyPasses h.heads (h.unassigned body)).1

/-- The assigned properties of a harvest are the recorded assignments, and its residual is what the property passes
leave. -/
theorem harvest_assigned (h : Harvester) (body : Text) :
    (h.harvest body).1.properties =
        h.declareAssigned (h.harvest body).1.functions (recordProperties [] (h.assigned body)) ∧
      (h.harvest body).1.residual = (propertyPasses h.heads (h.unassigned body)).2.residual := by
  rw [harvest_fst]
  exact ⟨rfl, rfl⟩

/-- A harvest takes the prepared text apart. The function passes, the pass over event calls, the pass over named
functions and the passes over other assignments cut disjoint pieces out of what is left before them, and the
residual is what is left after them. The functions, the preserved texts and the assigned properties are what the
pieces hold, one for each piece and in their order. -/
theorem harvest_accounts (h : Harvester) (body : Text) :
    ∃ (functionCuts : List (List (Cut Function))) (eventCuts namedCuts : List (Cut Text))
      (propertyCuts : List (List (Cut (Text × Text)))) (afterFunctions afterEvents afterNamed : Text),
      Passes (fun head text cut => ∃ parts, FunctionCut body.blockComments head text cut parts) h.heads
        (Text.removeBindThis body.stripComments) functionCuts afterFunctions ∧
      (Removes eventCuts afterFunctions afterEvents ∧ ∀ cut ∈ eventCuts, BlockCut afterFunctions cut) ∧
      (Removes namedCuts afterEvents afterNamed ∧ ∀ cut ∈ namedCuts, BlockCut afterEvents cut) ∧
      Passes (fun head text cut => ∃ parts, PropertyCut head text cut parts) h.heads afterNamed propertyCuts
        (h.harvest body).1.residual ∧
      (h.harvest body).1.functions = functionCuts.flatten.map (·.value) ∧
      (h.harvest body).1.preserved = (eventCuts ++ namedCuts).map (·.value) ∧
      (h.harvest body).1.properties = h.declareAssigned (h.harvest body).1.functions
        (recordProperties [] (propertyCuts.flatten.map (·.value))) := by
  obtain ⟨functionCuts, hfunctionPasses, hfunctions, hfunctionBuffer⟩ :=
    passes_functionPasses body.blockComments h.heads (reachable_prepare body)
  obtain ⟨eventCuts, heventRemoves, heventForm, hevents, heventBuffer⟩ :=
    removes_blockPass false (eventHead h.receivers) hfunctionBuffer
  obtain ⟨namedCuts, hnamedRemoves, hnamedForm, hnamed, hnamedBuffer⟩ :=
    removes_blockPass true namedFunctionHead heventBuffer
  obtain ⟨propertyCuts, hpropertyPasses, hassignments⟩ := passes_propertyPasses h.heads hnamedBuffer
  rw [residual_prepare] at hfunctionPasses
  rw [harvest_fst]
  refine ⟨functionCuts, eventCuts, namedCuts, propertyCuts, _, _, _, hfunctionPasses,
    ⟨heventRemoves, heventForm⟩, ⟨hnamedRemoves, hnamedForm⟩, hpropertyPasses, hfunctions, ?_, ?_⟩
  · rw [List.map_append, ← hevents, ← hnamed]
  · rw [← hassignments]

end Harvester

end AngularUplift
