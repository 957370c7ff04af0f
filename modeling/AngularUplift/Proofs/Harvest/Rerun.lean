import AngularUplift.Proofs.Buffer.Correspondence
import AngularUplift.Proofs.Harvest.Standing

/-!
# Harvesting a second time

A run of the function passes leaves no function in a text that stood in it whole at the beginning of a line. It can
still leave a text in which functions stand: what it cuts out was between pieces that come together, so a statement may
begin a line that did not before, and parts may join into a function. A second run takes these, and it takes nothing
exactly when there are none.

## Main definitions

* `MemberHead.Stands`: a function that stands whole at the beginning of a line, character by character.
* `Harvester.Holds`: a function of a harvester stands in what is left of a buffer.
* `Harvester.leftover`: the buffer after a harvest.
* `SourceBuffer.Extends`: a buffer of which more was consumed.

## Main statements

* `MemberHead.Stands.consumeCuts`: a function of which a pass takes nothing stands there after the pass.
* `Harvester.exists_covers_of_stands`: of every function that stands before the passes they take a character.
* `Harvester.functionPasses_eq_nil_iff`: the passes find nothing exactly when no function stands.
* `Harvester.second_run`: what a second run finds.
-/

namespace AngularUplift

/-! ### Consumed buffers -/

namespace SourceBuffer

variable {β : Type} {buffer : SourceBuffer}

/-- The same text, of which no less was consumed. -/
structure Extends (buffer later : SourceBuffer) : Prop where
  /-- The text is the same. -/
  text_eq : later.text = buffer.text
  /-- What was consumed stays consumed. -/
  covers : ∀ index : Nat, Covers buffer.spans index → Covers later.spans index

theorem Extends.refl (buffer : SourceBuffer) : buffer.Extends buffer := ⟨rfl, fun _ h => h⟩

theorem Extends.trans {middle later : SourceBuffer} (h : buffer.Extends middle) (hlater : middle.Extends later) :
    buffer.Extends later where
  text_eq := hlater.text_eq.trans h.text_eq
  covers index hcovers := hlater.covers index (h.covers index hcovers)

/-- The characters that are open in the end are those that were open before and are not covered in the end. -/
theorem Extends.openPlaces_eq {later : SourceBuffer} (h : buffer.Extends later) :
    later.openPlaces = buffer.openPlaces.filter fun place => ¬Covers later.spans place.2 := by
  rw [openPlaces, openPlaces, h.text_eq, List.filter_filter]
  apply List.filter_congr
  intro place _
  by_cases hlater : Covers later.spans place.2
  · simp [hlater]
  · have hopen : ¬Covers buffer.spans place.2 := fun hcovers => hlater (h.covers _ hcovers)
    simp [hlater, hopen]

/-- An open character is not covered. -/
theorem not_covers_of_mem {place : Char × Nat} (h : place ∈ buffer.openPlaces) : ¬Covers buffer.spans place.2 :=
  (mem_openPlaces.1 h).2

/-- What is left of a buffer are its open characters. -/
theorem Reachable.residual_eq (h : buffer.Reachable) : buffer.residual = buffer.openPlaces.map Prod.fst :=
  (view_eq_openPlaces h.consistent.canonical).1

/-- A buffer is reachable after cuts of its view are consumed. -/
theorem Reachable.consumeCuts (h : buffer.Reachable) (cuts : List (Cut β)) :
    (buffer.consumeCuts buffer.view cuts).Reachable := by
  rw [consumeCuts_eq]
  exact h.consumeSpans _ _

/-- Consuming cuts goes on from a buffer. -/
theorem extends_consumeCuts (h : buffer.Reachable) (cuts : List (Cut β)) :
    buffer.Extends (buffer.consumeCuts buffer.view cuts) := by
  have hcanonical := h.consistent.canonical
  rw [consumeCuts_eq]
  obtain ⟨htext, -, hcovers⟩ := covers_consumeSpans hcanonical buffer.view
    (cuts.map fun cut => ((cut.start : Int), (cut.stop : Int)))
  refine ⟨htext, fun index hcovered => ?_⟩
  -- Covered positions lie in the text.
  have hindex : index < buffer.text.length := by
    obtain ⟨span, hspan, hcontains⟩ := hcovered
    have hbounded := hcanonical.bounded span hspan
    simp only [Span.Contains] at hcontains
    omega
  exact (hcovers index hindex).2 (Or.inl hcovered)

/-- The open character of a number is covered by the cuts that have its number in them. -/
theorem covers_consumeCuts_iff (h : buffer.Reachable) (cuts : List (Cut β)) {number : Nat} {place : Char × Nat}
    (hplace : buffer.openPlaces[number]? = some place) :
    Covers (buffer.consumeCuts buffer.view cuts).spans place.2 ↔
      ∃ cut ∈ cuts, cut.start ≤ number ∧ number < cut.stop := by
  have hcanonical := h.consistent.canonical
  obtain ⟨hsource, -⟩ := toSource_eq_of_openPlaces hcanonical hplace
  obtain ⟨hchar, hopen⟩ := mem_openPlaces.1 (List.mem_of_getElem? hplace)
  obtain ⟨hindex, -⟩ := List.getElem?_eq_some_iff.1 hchar
  obtain ⟨-, -, hcovers⟩ := covers_consumeSpans hcanonical buffer.view
    (cuts.map fun cut => ((cut.start : Int), (cut.stop : Int)))
  rw [consumeCuts_eq, hcovers _ hindex, or_iff_right hopen]
  have hspan : ∀ cut : Cut β, ((buffer.view.sourceSpan cut.start cut.stop).1 ≤ (place.2 : Int) ∧
      (place.2 : Int) < (buffer.view.sourceSpan cut.start cut.stop).2) ↔ cut.start ≤ number ∧ number < cut.stop := by
    intro cut
    have hcontains : ((buffer.view.sourceSpan cut.start cut.stop).1 ≤ buffer.view.toSource number ∧
        buffer.view.toSource number < (buffer.view.sourceSpan cut.start cut.stop).2) ↔
        (cut.start : Int) ≤ number ∧ (number : Int) < cut.stop :=
      SourceView.sourceSpan_contains_iff buffer.view.text (linked_view hcanonical) ..
    rw [hsource] at hcontains
    omega
  simp [hspan]

end SourceBuffer

/-! ### Functions that stand in a buffer -/

namespace MemberHead

/-- A function stands whole at the beginning of a line. The characters are given with their places. -/
def Stands (head : MemberHead) (places code : List (Char × Nat)) : Prop :=
  ∃ front rest, places = front ++ (code ++ rest) ∧ (∀ c ∈ (front.map Prod.fst).getLast?, c = '\n') ∧
    WholeFunction head (code.map Prod.fst)

variable {head : MemberHead} {places code : List (Char × Nat)}

/-- Whether a function stands anywhere can be told from the text. -/
theorem exists_stands_iff (head : MemberHead) (places : List (Char × Nat)) :
    (∃ code, head.Stands places code) ↔
      ∃ front source rest, places.map Prod.fst = front ++ (source ++ rest) ∧ (∀ c ∈ front.getLast?, c = '\n') ∧
        WholeFunction head source := by
  constructor
  · rintro ⟨code, front, rest, rfl, hline, hcode⟩
    exact ⟨front.map Prod.fst, code.map Prod.fst, rest.map Prod.fst, by simp, hline, hcode⟩
  · rintro ⟨front, source, rest, htext, hline, hsource⟩
    obtain ⟨before, after, rfl, rfl, hafter⟩ := List.map_eq_append_iff.1 htext
    obtain ⟨code, tail, rfl, rfl, rfl⟩ := List.map_eq_append_iff.1 hafter
    exact ⟨code, before, tail, rfl, hline, hsource⟩

/-- A function that stands somewhere is not empty. -/
theorem Stands.exists_cons (h : head.Stands places code) : ∃ first tail, code = first :: tail := by
  obtain ⟨-, -, -, -, hcode⟩ := h
  apply List.exists_cons_of_ne_nil
  rintro rfl
  exact hcode.ne_nil rfl

/-- The characters of a function are characters of the text it stands in. -/
theorem Stands.mem (h : head.Stands places code) {place : Char × Nat} (hplace : place ∈ code) : place ∈ places := by
  obtain ⟨front, rest, rfl, -⟩ := h
  simp [hplace]

/-- A function pass takes no line break when it leaves the character after it. -/
theorem not_covers_break {buffer : SourceBuffer} (hbuffer : buffer.Reachable) {comments : List Text}
    {cuts : List (Cut Function)}
    (hcuts : ∀ cut ∈ cuts, (cut.start < cut.stop ∧ cut.stop ≤ buffer.residual.length) ∧
      ∃ parts, FunctionCut comments head buffer.residual cut parts)
    {number : Nat} {last first : Char × Nat} (hlast : buffer.openPlaces[number]? = some last)
    (hbreak : last.1 = '\n') (hfirst : buffer.openPlaces[number + 1]? = some first)
    (hkept : ¬Covers (buffer.consumeCuts buffer.view cuts).spans first.2) :
    ¬Covers (buffer.consumeCuts buffer.view cuts).spans last.2 := by
  rw [SourceBuffer.covers_consumeCuts_iff hbuffer cuts hfirst] at hkept
  rw [SourceBuffer.covers_consumeCuts_iff hbuffer cuts hlast]
  rintro ⟨cut, hcut, hstart, hstop⟩
  obtain ⟨⟨hlt, hle⟩, parts, hform⟩ := hcuts cut hcut
  -- The cut has the line break in it and not the next character, so it would end with the line break.
  have hend : cut.stop = number + 1 := by
    have hnone : ¬(cut.start ≤ number + 1 ∧ number + 1 < cut.stop) := fun h => hkept ⟨cut, hcut, h⟩
    omega
  apply hform.getElem_stop hlt hle
  rw [hend, Nat.add_sub_cancel, hbuffer.residual_eq, List.getElem?_map, hlast, Option.map_some, hbreak]

/-- A function of which a function pass takes nothing stands there after the pass. -/
theorem Stands.consumeCuts {buffer : SourceBuffer} (hbuffer : buffer.Reachable) {comments : List Text}
    {other : MemberHead} {cuts : List (Cut Function)}
    (hcuts : ∀ cut ∈ cuts, (cut.start < cut.stop ∧ cut.stop ≤ buffer.residual.length) ∧
      ∃ parts, FunctionCut comments other buffer.residual cut parts)
    (h : head.Stands buffer.openPlaces code)
    (hkept : ∀ place ∈ code, ¬Covers (buffer.consumeCuts buffer.view cuts).spans place.2) :
    head.Stands (buffer.consumeCuts buffer.view cuts).openPlaces code := by
  obtain ⟨first, tail, rfl⟩ := h.exists_cons
  obtain ⟨front, rest, hplaces, hline, hcode⟩ := h
  -- Its characters stay next to each other, since none of them is taken out.
  have hextends := SourceBuffer.extends_consumeCuts hbuffer cuts
  have hafter := hextends.openPlaces_eq
  rw [hplaces, List.filter_append, List.filter_append,
    List.filter_eq_self.2 fun place hplace => decide_eq_true (hkept place hplace)] at hafter
  refine ⟨_, _, hafter, ?_, hcode⟩
  rcases List.eq_nil_or_concat' front with rfl | ⟨init, last, rfl⟩
  · exact hline
  · have hbreak : last.1 = '\n' := hline last.1 (by simp)
    have hlast : buffer.openPlaces[init.length]? = some last := by simp [hplaces]
    have hfirst : buffer.openPlaces[init.length + 1]? = some first := by simp [hplaces]
    have hopen := not_covers_break hbuffer hcuts hlast hbreak hfirst (hkept first List.mem_cons_self)
    have hstays : [last].filter (fun place => ¬Covers (buffer.consumeCuts buffer.view cuts).spans place.2) = [last] :=
      List.filter_eq_self.2 fun place hplace => decide_eq_true (List.mem_singleton.1 hplace ▸ hopen)
    rw [List.filter_append, hstays]
    simpa using hbreak

end MemberHead

/-! ### The passes -/

namespace Harvester

variable {heads : List MemberHead} {buffer : SourceBuffer}

/-- The cuts of one function pass over a buffer. -/
def functionCuts (comments : List Text) (head : MemberHead) (buffer : SourceBuffer) : List (Cut Function) :=
  cutsOf (sweep (readFunction comments buffer.view.text) 0 (head.functionHead.occurrences buffer.view.text))

/-- The buffer after one function pass. -/
def afterPass (comments : List Text) (head : MemberHead) (buffer : SourceBuffer) : SourceBuffer :=
  buffer.consumeCuts buffer.view (functionCuts comments head buffer)

/-- The function passes begin with one pass and go on with what it leaves. -/
theorem functionPasses_cons (comments : List Text) (head : MemberHead) (heads : List MemberHead)
    (buffer : SourceBuffer) :
    (functionPasses comments (head :: heads) buffer).1 =
        (functionCuts comments head buffer).map (·.value) ++
          (functionPasses comments heads (afterPass comments head buffer)).1 ∧
      (functionPasses comments (head :: heads) buffer).2.1 =
        (functionPasses comments heads (afterPass comments head buffer)).2.1 :=
  ⟨rfl, rfl⟩

/-- What a function pass cuts out are functions, and the buffer after it is reachable. -/
theorem functionCuts_spec (comments : List Text) (head : MemberHead) (hbuffer : buffer.Reachable) :
    (∀ cut ∈ functionCuts comments head buffer, (cut.start < cut.stop ∧ cut.stop ≤ buffer.residual.length) ∧
        ∃ parts, FunctionCut comments head buffer.residual cut parts) ∧
      (afterPass comments head buffer).Reachable := by
  obtain ⟨hremoves, hform, hnext⟩ := removes_of_sweep hbuffer
    (readFunction comments buffer.view.text) (head.functionHead.occurrences buffer.view.text)
    (fun cut => ∃ parts, FunctionCut comments head buffer.residual cut parts)
    fun _ hfound _ _ => functionCut_of_readFunction hfound
  exact ⟨fun cut hcut => ⟨hremoves.bounded cut hcut, hform cut hcut⟩, hnext⟩

/-- The function passes go on from a buffer. -/
theorem extends_functionPasses (comments : List Text) (heads : List MemberHead) (hbuffer : buffer.Reachable) :
    buffer.Extends (functionPasses comments heads buffer).2.1 := by
  induction heads generalizing buffer with
  | nil => exact .refl buffer
  | cons head heads ih =>
    exact (SourceBuffer.extends_consumeCuts hbuffer _).trans (ih (functionCuts_spec comments head hbuffer).2)

/-- The pass for its kind takes the beginning of a function that stands in a buffer. -/
theorem covers_afterPass (comments : List Text) {head : MemberHead} (hplain : head.Plain) (hbuffer : buffer.Reachable)
    {first : Char × Nat} {tail : List (Char × Nat)} (h : head.Stands buffer.openPlaces (first :: tail)) :
    Covers (afterPass comments head buffer).spans first.2 := by
  obtain ⟨front, rest, hplaces, hline, hcode⟩ := h
  have htext : buffer.view.text = front.map Prod.fst ++ ((first :: tail).map Prod.fst ++ rest.map Prod.fst) := by
    show buffer.residual = _
    rw [hbuffer.residual_eq, hplaces, List.map_append, List.map_append]
  obtain ⟨cut, hcut, hcovers⟩ := exists_cut_of_stands comments hplain hcode hline (rest.map Prod.fst)
  rw [← htext] at hcut
  rw [List.length_map] at hcovers
  have hplace : buffer.openPlaces[front.length]? = some first := by simp [hplaces]
  exact (SourceBuffer.covers_consumeCuts_iff hbuffer _ hplace).2 ⟨cut, hcut, hcovers⟩

/-- Of every function that stands in a buffer the function passes take a character. -/
theorem exists_covers_of_stands (comments : List Text) (hplain : ∀ head ∈ heads, head.Plain)
    (hbuffer : buffer.Reachable) {head : MemberHead} (hhead : head ∈ heads) {code : List (Char × Nat)}
    (h : head.Stands buffer.openPlaces code) :
    ∃ place ∈ code, Covers (functionPasses comments heads buffer).2.1.spans place.2 := by
  induction heads generalizing buffer with
  | nil => exact absurd hhead List.not_mem_nil
  | cons first heads ih =>
    obtain ⟨hcuts, hnext⟩ := functionCuts_spec comments first hbuffer
    by_cases hkept : ∀ place ∈ code, ¬Covers (afterPass comments first buffer).spans place.2
    · -- A function of which the first pass takes nothing is of another kind, and is left to the other passes.
      have hother : head ∈ heads := by
        rcases List.mem_cons.1 hhead with rfl | hmem
        · obtain ⟨c, tail, rfl⟩ := h.exists_cons
          exact absurd (covers_afterPass comments (hplain _ List.mem_cons_self) hbuffer h)
            (hkept c List.mem_cons_self)
        · exact hmem
      exact ih (fun other hmem => hplain other (List.mem_cons_of_mem _ hmem)) hnext hother
        (h.consumeCuts hbuffer hcuts hkept)
    · -- What the first pass has taken stays taken.
      simp only [not_forall, not_not] at hkept
      obtain ⟨place, hplace, hcovers⟩ := hkept
      exact ⟨place, hplace, (extends_functionPasses comments heads hnext).covers _ hcovers⟩

/-- Passes that find no function leave the buffer as it is. -/
theorem functionPasses_buffer (comments : List Text) (h : (functionPasses comments heads buffer).1 = []) :
    (functionPasses comments heads buffer).2.1 = buffer := by
  induction heads generalizing buffer with
  | nil => rfl
  | cons head heads ih =>
    obtain ⟨hfunctions, hbuffer⟩ := functionPasses_cons comments head heads buffer
    rw [hfunctions, List.append_eq_nil_iff, List.map_eq_nil_iff] at h
    have hsame : afterPass comments head buffer = buffer := by
      rw [afterPass, h.1]
      rfl
    rw [hsame] at h
    rw [hbuffer, hsame]
    exact ih h.2

/-- The passes find nothing where no function stands. -/
theorem functionPasses_eq_nil (comments : List Text) (hbuffer : buffer.Reachable)
    (h : ∀ head ∈ heads, ∀ code, ¬head.Stands buffer.openPlaces code) :
    (functionPasses comments heads buffer).1 = [] := by
  induction heads with
  | nil => rfl
  | cons head heads ih =>
    obtain ⟨hnone, hothers⟩ := List.forall_mem_cons.1 h
    have hcuts : functionCuts comments head buffer = [] := by
      apply List.eq_nil_iff_forall_not_mem.2
      intro cut hcut
      obtain ⟨⟨hstart, -⟩, parts, hform⟩ := (functionCuts_spec comments head hbuffer).1 cut hcut
      have hwhole := hform.exists_whole hstart
      rw [hbuffer.residual_eq, ← MemberHead.exists_stands_iff] at hwhole
      obtain ⟨code, hcode⟩ := hwhole
      exact hnone code hcode
    have hsame : afterPass comments head buffer = buffer := by
      rw [afterPass, hcuts]
      rfl
    rw [(functionPasses_cons comments head heads buffer).1, hcuts, hsame, ih hothers]
    rfl

/-- A function of a harvester stands in what is left of a buffer. -/
def Holds (h : Harvester) (buffer : SourceBuffer) (code : List (Char × Nat)) : Prop :=
  ∃ head ∈ h.heads, head.Stands buffer.openPlaces code

variable {h : Harvester}

/-- What a harvester finds in a buffer is not among the consumed characters. -/
theorem Holds.not_covers {code : List (Char × Nat)} (hholds : h.Holds buffer code) :
    ∀ place ∈ code, ¬Covers buffer.spans place.2 := by
  obtain ⟨head, -, hstands⟩ := hholds
  exact fun place hplace => SourceBuffer.not_covers_of_mem (hstands.mem hplace)

/-- The receivers of a harvester have no white space and no parentheses in them. -/
def PlainReceivers (h : Harvester) : Prop := ∀ receiver ∈ h.receivers, ∀ c ∈ receiver, isBlank c = false ∧ c ≠ '('

theorem PlainReceivers.plain (hplain : h.PlainReceivers) : ∀ head ∈ h.heads, head.Plain := by
  intro head hhead
  cases head with
  | declaration => exact trivial
  | receiver name =>
    apply hplain
    simp only [heads, List.mem_append, List.mem_map, MemberHead.receiver.injEq, exists_eq_right] at hhead
    rcases hhead with hmem | hmem
    · exact hmem
    · split at hmem <;> simp at hmem

/-- The function passes find nothing exactly when no function stands in the buffer. -/
theorem functionPasses_eq_nil_iff (comments : List Text) (hplain : h.PlainReceivers) (hbuffer : buffer.Reachable) :
    (functionPasses comments h.heads buffer).1 = [] ↔ ∀ code, ¬h.Holds buffer code := by
  constructor
  · -- Of a function that stands a character would be taken, but then the buffer would not be as it was.
    intro hnone code hholds
    obtain ⟨head, hhead, hstands⟩ := id hholds
    obtain ⟨place, hplace, hcovers⟩ := exists_covers_of_stands comments hplain.plain hbuffer hhead hstands
    rw [functionPasses_buffer comments hnone] at hcovers
    exact hholds.not_covers place hplace hcovers
  · intro hnone
    apply functionPasses_eq_nil comments hbuffer
    exact fun head hhead code hstands => hnone code ⟨head, hhead, hstands⟩

/-- No function stands before the passes and, with all its characters, in a buffer that goes on from them. -/
theorem not_holds_of_extends (comments : List Text) (hplain : h.PlainReceivers) (hbuffer : buffer.Reachable)
    {later : SourceBuffer} (hlater : (functionPasses comments h.heads buffer).2.1.Extends later)
    {code : List (Char × Nat)} (hholds : h.Holds later code) : ¬h.Holds buffer code := by
  rintro ⟨head, hhead, hstands⟩
  obtain ⟨place, hplace, hcovers⟩ := exists_covers_of_stands comments hplain.plain hbuffer hhead hstands
  exact hholds.not_covers place hplace (hlater.covers _ hcovers)

/-! ### The whole harvest -/

/-- The buffer after a harvest. -/
def leftover (h : Harvester) (body : Text) : SourceBuffer :=
  let first := functionPasses body.blockComments h.heads (prepare body)
  let second := blockPass false (eventHead h.receivers) first.2.1
  let third := blockPass true namedFunctionHead second.2.1
  (propertyPasses h.heads third.2.1).2

/-- The residual of a harvest is what is left of the buffer. -/
theorem residual_leftover (h : Harvester) (body : Text) :
    (h.leftover body).residual = (h.harvest body).1.residual := by
  rw [harvest_fst]
  rfl

/-- The functions of a harvest are those of its function passes. -/
theorem functions_harvest (h : Harvester) (body : Text) :
    (h.harvest body).1.functions = (functionPasses body.blockComments h.heads (prepare body)).1 := by
  rw [harvest_fst]

/-- A pass over calls goes on from a buffer. -/
theorem extends_blockPass (isFunction : Bool) (head : Pattern Unit) (hbuffer : buffer.Reachable) :
    buffer.Extends (blockPass isFunction head buffer).2.1 :=
  SourceBuffer.extends_consumeCuts hbuffer _

/-- The property passes go on from a buffer that was consumed. -/
theorem extends_propertyPasses (heads : List MemberHead) (hbuffer : buffer.Reachable) :
    buffer.Extends (propertyPasses heads buffer).2 ∧ (propertyPasses heads buffer).2.Reachable := by
  induction heads generalizing buffer with
  | nil => exact ⟨.refl buffer, hbuffer⟩
  | cons head heads ih =>
    obtain ⟨hextends, hreachable⟩ := ih (hbuffer.consumeCuts (cutsOf (sweep (readProperty buffer.view.text) 0
      (head.propertyHead.occurrences buffer.view.text))))
    exact ⟨(SourceBuffer.extends_consumeCuts hbuffer _).trans hextends, hreachable⟩

/-- A harvest goes on from its function passes. -/
theorem extends_leftover (h : Harvester) (body : Text) :
    (functionPasses body.blockComments h.heads (prepare body)).2.1.Extends (h.leftover body) ∧
      (h.leftover body).Reachable := by
  obtain ⟨-, -, -, hfirst⟩ := passes_functionPasses body.blockComments h.heads (reachable_prepare body)
  obtain ⟨-, -, -, -, hsecond⟩ := removes_blockPass false (eventHead h.receivers) hfirst
  obtain ⟨-, -, -, -, hthird⟩ := removes_blockPass true namedFunctionHead hsecond
  obtain ⟨hextends, hreachable⟩ := extends_propertyPasses h.heads hthird
  have hevents := extends_blockPass false (eventHead h.receivers) hfirst
  have hnamed := extends_blockPass true namedFunctionHead hsecond
  exact ⟨(hevents.trans hnamed).trans hextends, hreachable⟩

/-- Whether a harvester finds a function in a buffer can be told from what is left of it. -/
theorem exists_holds_congr (h : Harvester) {other : SourceBuffer} (hbuffer : buffer.Reachable)
    (hother : other.Reachable) (hsame : buffer.residual = other.residual) :
    (∃ code, h.Holds buffer code) ↔ ∃ code, h.Holds other code := by
  have hiff : ∀ {buffer : SourceBuffer}, buffer.Reachable → ((∃ code, h.Holds buffer code) ↔
      ∃ head ∈ h.heads, ∃ front source rest, buffer.residual = front ++ (source ++ rest) ∧
        (∀ c ∈ front.getLast?, c = '\n') ∧ WholeFunction head source) := by
    intro buffer hbuffer
    simp only [Holds, hbuffer.residual_eq, ← MemberHead.exists_stands_iff]
    exact ⟨fun ⟨code, head, hhead, hcode⟩ => ⟨head, hhead, code, hcode⟩,
      fun ⟨head, hhead, code, hcode⟩ => ⟨code, head, hhead, hcode⟩⟩
  rw [hiff hbuffer, hiff hother, hsame]

/-- A second run of the function passes over a buffer finds nothing, and consumes nothing, exactly when no function
stands in what the first run has left. No function that stands there stood in the buffer before, with the same
characters: what a second run finds was brought together by the cuts of the first. The same is true of a harvest of
what another harvest has left, but for the comments and calls of `bind` that come together and are taken out when the
residual is prepared. -/
theorem second_run (h : Harvester) (hplain : h.PlainReceivers) :
    (∀ (comments others : List Text) (buffer : SourceBuffer), buffer.Reachable →
      let first := functionPasses comments h.heads buffer
      let second := functionPasses others h.heads first.2.1
      (second.1 = [] ↔ ∀ code, ¬h.Holds first.2.1 code) ∧
        (second.1 = [] ↔ second.2.1 = first.2.1) ∧
        ∀ code, h.Holds first.2.1 code → ¬h.Holds buffer code) ∧
    ∀ body,
      let residual := (h.harvest body).1.residual
      let second := (h.harvest residual).1
      (h.leftover body).residual = residual ∧
        (second.functions = [] ↔ ∀ code, ¬h.Holds (prepare residual) code) ∧
        (Text.removeBindThis residual.stripComments = residual →
          (second.functions = [] ↔ ∀ code, ¬h.Holds (h.leftover body) code)) ∧
        ∀ code, h.Holds (h.leftover body) code → ¬h.Holds (prepare body) code := by
  constructor
  · intro comments others buffer hbuffer first second
    obtain ⟨-, -, -, hfirst⟩ := passes_functionPasses comments h.heads hbuffer
    have hnone := functionPasses_eq_nil_iff others hplain hfirst
    refine ⟨hnone, ⟨functionPasses_buffer others, fun hsame => hnone.2 fun code hholds => ?_⟩, fun code hholds => ?_⟩
    · obtain ⟨head, hhead, hstands⟩ := id hholds
      obtain ⟨place, hplace, hcovers⟩ := exists_covers_of_stands others hplain.plain hfirst hhead hstands
      exact hholds.not_covers place hplace (hsame ▸ hcovers)
    · exact not_holds_of_extends comments hplain hbuffer (.refl _) hholds
  · intro body residual second
    obtain ⟨hextends, hreachable⟩ := extends_leftover h body
    have hnone : second.functions = [] ↔ ∀ code, ¬h.Holds (prepare residual) code := by
      rw [functions_harvest h residual]
      exact functionPasses_eq_nil_iff residual.blockComments hplain (reachable_prepare residual)
    refine ⟨residual_leftover h body, hnone, fun hsame => ?_, fun code hholds => ?_⟩
    · have hcongr := exists_holds_congr h (reachable_prepare residual) hreachable
        (by rw [residual_prepare, hsame, residual_leftover])
      rw [hnone, ← not_exists, ← not_exists, hcongr]
    · exact not_holds_of_extends _ hplain (reachable_prepare body) hextends hholds

/-- The second of two functions on a line begins the line when the first one is gone. It did not before. -/
theorem second_run_joined :
    let h : Harvester := {}
    let body := txt "ctrl.a = function () \x7b\x7d; ctrl.b = function () \x7b\x7d;"
    ∃ code, h.Holds (h.leftover body) code ∧ ¬h.Holds (prepare body) code := by
  intro h body
  have hplain : h.PlainReceivers := by
    have hall : h.receivers.all (·.all fun c => !isBlank c && c != '(') = true := by decide
    intro receiver hreceiver c hc
    simpa using List.all_eq_true.1 (List.all_eq_true.1 hall receiver hreceiver) c hc
  obtain ⟨-, hbodies⟩ := second_run h hplain
  obtain ⟨-, -, hleft, hbefore⟩ := hbodies body
  have hsame : Text.removeBindThis (h.harvest body).1.residual.stripComments = (h.harvest body).1.residual := by
    decide +kernel
  have hfound : (h.harvest (h.harvest body).1.residual).1.functions.map (·.name) ≠ [] := by decide +kernel
  rw [ne_eq, List.map_eq_nil_iff, hleft hsame, not_forall_not] at hfound
  obtain ⟨code, hcode⟩ := hfound
  exact ⟨code, hcode, hbefore code hcode⟩

/-- A second run over a line with two functions finds the one that the first run has left. -/
theorem second_run_finds :
    let h : Harvester := {}
    let body := txt "ctrl.a = function () \x7b\x7d; ctrl.b = function () \x7b\x7d;"
    let first := functionPasses [] h.heads (prepare body)
    let second := functionPasses [] h.heads first.2.1
    let residual := (h.harvest body).1.residual
    first.1.map (·.name) = [txt "a"] ∧ second.1.map (·.name) = [txt "b"] ∧
      residual = txt "ctrl.b = function () \x7b\x7d;" ∧
      (h.harvest residual).1.functions.map (·.name) = [txt "b"] := by
  decide +kernel

end Harvester

end AngularUplift
