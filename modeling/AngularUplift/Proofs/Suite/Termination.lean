import AngularUplift.Proofs.Suite.Rounds

/-!
# The analysis of every text ends

The search for the blocks of a suite goes on as long as it finds a head, and goes into the body of every nested suite.
Here it is described without a bound on its rounds, so that only a search that ends has an outcome. It always ends:
every round leaves less of its buffer, and every body is shorter than the text it is cut from. So the bound of the
reader is never reached, and the reader gives the outcome of the unbounded search.

## Main definitions

* `Suite.Searches`, `Suite.Decomposes`: a search for the blocks of one category, and the decomposition of a body.
* `Suite.Analyzes`: the analysis of a text.
* `Suite.SearchesWithin`, `Suite.DecomposesWithin`: a bounded search gives the outcome of the unbounded one.

## Main statements

* `Suite.rounds_le`: a search leaves no more than there was.
* `Suite.search_within`: with any fuel the bounded searches of what is shorter than it give the unbounded outcomes.
* `Suite.analyzes_iff`: the analysis has the outcome of the reader and no other.
* `Suite.analyze_ends`: the analysis of every text ends, with progress in every round.
-/

namespace AngularUplift

namespace Suite

/-! ### Searches without a bound -/

mutual

/-- The search for the blocks of a category in a buffer ends with these nodes, this buffer and these records. In each
round of it, and of the searches inside the suites that it finds, something holds of the category, the buffer and the
head. -/
inductive Searches (Each : TestCategory → SourceBuffer → Occurrence Nat → Prop) :
    TestCategory → (base : Int) → SourceBuffer → List TestNode × SourceBuffer × List LogRecord → Prop
  /-- There is no further head. -/
  | finish {category : TestCategory} {base : Int} {buffer : SourceBuffer}
      (hfind : category.head.find? buffer.residual = none) : Searches Each category base buffer ([], buffer, [])
  /-- The block of the next head is not balanced. -/
  | skip {category : TestCategory} {base : Int} {buffer rest : SourceBuffer} {found : Occurrence Nat} {fault : Fault}
      {nodes : List TestNode} {records : List LogRecord} (hfind : category.head.find? buffer.residual = some found)
      (heach : Each category buffer found) (hread : Block.read category buffer.residual found = .error fault)
      (hnext : Searches Each category base (after category buffer found) (nodes, rest, records)) :
      Searches Each category base buffer (nodes, rest, .debug area (txt "Leaving unbalanced " ++ category.label ++
        txt " block in place: " ++ fault.message) :: records)
  /-- The next head begins a block that is no suite. -/
  | leaf {category : TestCategory} {base : Int} {buffer rest : SourceBuffer} {found : Occurrence Nat} {block : Block}
      {nodes : List TestNode} {records : List LogRecord} (hcategory : category ≠ .describe)
      (hfind : category.head.find? buffer.residual = some found) (heach : Each category buffer found)
      (hread : Block.read category buffer.residual found = .ok block)
      (hnext : Searches Each category base (after category buffer found) (nodes, rest, records)) :
      Searches Each category base buffer
        (leaf category block (base + buffer.view.toSource block.keywordStart) :: nodes, rest, records)
  /-- The next head begins a suite. -/
  | suite {base : Int} {buffer rest : SourceBuffer} {found : Occurrence Nat} {block : Block} {residual : Text}
      {children nodes : List TestNode} {inner records : List LogRecord}
      (hfind : TestCategory.describe.head.find? buffer.residual = some found) (heach : Each .describe buffer found)
      (hread : Block.read .describe buffer.residual found = .ok block)
      (hbody : Decomposes Each block.body (base + buffer.view.toSource block.bodyStart) (children, residual, inner))
      (hnext : Searches Each .describe base (after .describe buffer found) (nodes, rest, records)) :
      Searches Each .describe base buffer
        (.describe block.title (Text.trim residual) block.comment (base + buffer.view.toSource block.keywordStart)
          children :: nodes, rest, inner ++ records)

/-- The decomposition of the body of a suite ends with these nodes, this rest of the body and these records. -/
inductive Decomposes (Each : TestCategory → SourceBuffer → Occurrence Nat → Prop) :
    (body : Text) → (base : Int) → List TestNode × Text × List LogRecord → Prop
  /-- The searches for the four categories, one after the other in one buffer. -/
  | intro {body : Text} {base : Int} {suites hooks skipped tests : List TestNode}
      {afterSuites afterHooks afterSkipped afterTests : SourceBuffer}
      {suiteRecords hookRecords skippedRecords testRecords : List LogRecord}
      (hsuites : Searches Each .describe base (.ofText body) (suites, afterSuites, suiteRecords))
      (hhooks : Searches Each .beforeEach base afterSuites (hooks, afterHooks, hookRecords))
      (hskipped : Searches Each .xit base afterHooks (skipped, afterSkipped, skippedRecords))
      (htests : Searches Each .it base afterSkipped (tests, afterTests, testRecords)) :
      Decomposes Each body base (suites ++ hooks ++ skipped ++ tests, afterTests.residual,
        suiteRecords ++ hookRecords ++ skippedRecords ++ testRecords)

end

/-- The analysis of a text ends with this outcome and these records. -/
inductive Analyzes (Each : TestCategory → SourceBuffer → Occurrence Nat → Prop) (text : Text) :
    Except Fault (Option TestNode) × List LogRecord → Prop
  /-- There is no suite. -/
  | absent (hfind : TestCategory.describe.head.find? text = none) : Analyzes Each text (.ok none, [])
  /-- The first suite is not balanced. -/
  | broken {found : Occurrence Nat} {fault : Fault} (hfind : TestCategory.describe.head.find? text = some found)
      (hread : Block.read .describe text found = .error fault) : Analyzes Each text (.error fault, [])
  /-- The first suite. Its body is cut from the text. -/
  | suite {found : Occurrence Nat} {block : Block} {nodes : List TestNode} {residual : Text}
      {records : List LogRecord} (hfind : TestCategory.describe.head.find? text = some found)
      (heach : Each .describe (.ofText text) found) (hread : Block.read .describe text found = .ok block)
      (hbody : Decomposes Each block.body block.bodyStart (nodes, residual, records)) :
      Analyzes Each text
        (.ok (some (.describe block.title (Text.trim residual) block.comment block.keywordStart nodes)), records)

/-! ### Enough fuel -/

variable {Each : TestCategory → SourceBuffer → Occurrence Nat → Prop}

/-- A search leaves no more of a buffer than there was. -/
theorem rounds_le (fuel : Nat) (category : TestCategory) (base : Int) {buffer : SourceBuffer} (h : buffer.Reachable) :
    (rounds fuel category buffer base).2.1.Reachable ∧
      (rounds fuel category buffer base).2.1.residual.length ≤ buffer.residual.length := by
  induction fuel generalizing buffer with
  | zero => exact ⟨h, le_rfl⟩
  | succ fuel ih =>
    cases hfind : category.head.find? buffer.residual with
    | none =>
      rw [rounds_of_find?_eq_none hfind]
      exact ⟨h, le_rfl⟩
    | some found =>
      have hafter : (after category buffer found).Reachable := reachable_after h
      obtain ⟨hreachable, hle⟩ := ih hafter
      have hlt := (progress h hfind).length_after_lt
      suffices hround : (rounds (fuel + 1) category buffer base).2.1 =
          (rounds fuel category (after category buffer found) base).2.1 by
        rw [hround]
        exact ⟨hreachable, hle.trans hlt.le⟩
      cases hread : Block.read category buffer.residual found with
      | error fault => rw [rounds_skip hfind hread, after_of_error hread]
      | ok block =>
        rw [after_of_ok hread]
        by_cases hcategory : category = .describe
        · subst hcategory
          rw [rounds_suite hfind hread rfl]
        · rw [rounds_leaf hcategory hfind hread]

/-- The bounded decomposition of a body searches for the four categories one after the other. -/
theorem children_succ (fuel : Nat) (body : Text) (base : Int) :
    children (fuel + 1) body base =
      let suites := rounds fuel .describe (.ofText body) base
      let hooks := rounds fuel .beforeEach suites.2.1 base
      let skipped := rounds fuel .xit hooks.2.1 base
      let tests := rounds fuel .it skipped.2.1 base
      (suites.1 ++ hooks.1 ++ skipped.1 ++ tests.1, tests.2.1.residual,
        suites.2.2 ++ hooks.2.2 ++ skipped.2.2 ++ tests.2.2) := by
  rw [children]

/-- With this fuel, the bounded search of a buffer with fewer characters gives the outcome of the unbounded one, and
nothing else does. -/
def SearchesWithin (Each : TestCategory → SourceBuffer → Occurrence Nat → Prop) (fuel : Nat) : Prop :=
  ∀ category base buffer result, buffer.Reachable → buffer.residual.length < fuel →
    (Searches Each category base buffer result ↔ result = rounds fuel category buffer base)

/-- With this fuel, the bounded decomposition of a body gives the outcome of the unbounded one, and nothing else does.
The searches in the body have one step less of the fuel. -/
def DecomposesWithin (Each : TestCategory → SourceBuffer → Occurrence Nat → Prop) (fuel : Nat) : Prop :=
  ∀ body base result, body.length + 1 < fuel →
    (Decomposes Each body base result ↔ result = children fuel body base)

/-- The four searches in a body begin with no more than the body, because each leaves no more than it begins with. -/
theorem decomposesWithin_succ {fuel : Nat} (hsearches : SearchesWithin Each fuel) :
    DecomposesWithin Each (fuel + 1) := by
  intro body base result hfuel
  have hsearch : ∀ category {buffer : SourceBuffer}, buffer.Reachable → buffer.residual.length < fuel →
      ((rounds fuel category buffer base).2.1.Reachable ∧
        (rounds fuel category buffer base).2.1.residual.length < fuel) ∧
      ∀ result, Searches Each category base buffer result ↔ result = rounds fuel category buffer base := by
    intro category buffer hbuffer hlength
    obtain ⟨hreachable, hle⟩ := rounds_le fuel category base hbuffer
    exact ⟨⟨hreachable, hle.trans_lt hlength⟩, fun result => hsearches _ _ _ _ hbuffer hlength⟩
  have hlength : (SourceBuffer.ofText body).residual.length < fuel := by
    rw [SourceBuffer.residual_ofText]
    omega
  obtain ⟨⟨hafterSuites, hsuitesLt⟩, hsuites⟩ := hsearch .describe (.ofText body) hlength
  obtain ⟨⟨hafterHooks, hhooksLt⟩, hhooks⟩ := hsearch .beforeEach hafterSuites hsuitesLt
  obtain ⟨⟨hafterSkipped, hskippedLt⟩, hskipped⟩ := hsearch .xit hafterHooks hhooksLt
  obtain ⟨-, htests⟩ := hsearch .it hafterSkipped hskippedLt
  rw [children_succ]
  constructor
  · rintro ⟨hfirst, hsecond, hthird, hfourth⟩
    have hsuitesEq := (hsuites _).1 hfirst
    rw [← hsuitesEq] at hhooks hskipped htests
    have hhooksEq := (hhooks _).1 hsecond
    rw [← hhooksEq] at hskipped htests
    have hskippedEq := (hskipped _).1 hthird
    rw [← hskippedEq] at htests
    have htestsEq := (htests _).1 hfourth
    simp only [← hsuitesEq, ← hhooksEq, ← hskippedEq, ← htestsEq]
  · rintro rfl
    exact .intro ((hsuites _).2 rfl) ((hhooks _).2 rfl) ((hskipped _).2 rfl) ((htests _).2 rfl)

section Rounds

variable (hEach : ∀ {category buffer found}, buffer.Reachable →
  category.head.find? buffer.residual = some found → Each category buffer found)

include hEach

/-- A round takes one step of the fuel. What is left of it is enough for the buffer that the round leaves, and for the
body that it finds. -/
theorem searchesWithin_succ {fuel : Nat} (hsearches : SearchesWithin Each fuel)
    (hdecomposes : DecomposesWithin Each fuel) : SearchesWithin Each (fuel + 1) := by
  intro category base buffer result hbuffer hfuel
  have hnext : ∀ {found}, category.head.find? buffer.residual = some found → ∀ result,
      (Searches Each category base (after category buffer found) result ↔
        result = rounds fuel category (after category buffer found) base) := by
    intro found hfind result
    have hlt := (progress hbuffer hfind).length_after_lt
    exact hsearches _ _ _ _ (reachable_after hbuffer) (by omega)
  have hbody : ∀ {found block}, category.head.find? buffer.residual = some found →
      Block.read category buffer.residual found = .ok block → ∀ base result,
        (Decomposes Each block.body base result ↔ result = children fuel block.body base) := by
    intro found block hfind hread base result
    have hlength := (Block.Fits.of_read hfind hread).length_body_le
    exact hdecomposes _ _ _ (by omega)
  constructor
  · intro h
    cases h with
    | finish hfind => exact (rounds_of_find?_eq_none hfind base).symm
    | skip hfind heach hread hrest =>
      rw [rounds_skip hfind hread, ← after_of_error hread, ← (hnext hfind _).1 hrest]
    | leaf hcategory hfind heach hread hrest =>
      rw [rounds_leaf hcategory hfind hread, ← after_of_ok hread, ← (hnext hfind _).1 hrest]
    | suite hfind heach hread hinner hrest =>
      rw [rounds_suite hfind hread ((hbody hfind hread _ _).1 hinner).symm, ← after_of_ok hread,
        ← (hnext hfind _).1 hrest]
  · rintro rfl
    cases hfind : category.head.find? buffer.residual with
    | none =>
      rw [rounds_of_find?_eq_none hfind]
      exact .finish hfind
    | some found =>
      have heach := hEach hbuffer hfind
      have hrest := (hnext hfind _).2 rfl
      cases hread : Block.read category buffer.residual found with
      | error fault =>
        rw [rounds_skip hfind hread, ← after_of_error hread]
        exact .skip hfind heach hread hrest
      | ok block =>
        by_cases hcategory : category = .describe
        · subst hcategory
          rw [rounds_suite hfind hread rfl, ← after_of_ok hread]
          exact .suite hfind heach hread ((hbody hfind hread _ _).2 rfl) hrest
        · rw [rounds_leaf hcategory hfind hread, ← after_of_ok hread]
          exact .leaf hcategory hfind heach hread hrest

/-- With any fuel, the bounded searches of what is shorter than it give the outcomes of the unbounded ones. -/
theorem search_within (fuel : Nat) : SearchesWithin Each fuel ∧ DecomposesWithin Each fuel := by
  -- Both searches call each other with less fuel, so that they are dealt with together.
  induction fuel with
  | zero =>
    refine ⟨fun _ _ _ _ _ hfuel => ?_, fun _ _ _ hfuel => ?_⟩
    · exact absurd hfuel (Nat.not_lt_zero _)
    · exact absurd hfuel (Nat.not_lt_zero _)
  | succ fuel ih => exact ⟨searchesWithin_succ hEach ih.1 ih.2, decomposesWithin_succ ih.1⟩

/-! ### The analysis of a text -/

/-- The fuel that the bounded analysis begins with is enough: it gives the outcome of the unbounded one, and nothing
else does. -/
theorem analyzes_iff (text : Text) (result : Except Fault (Option TestNode) × List LogRecord) :
    Analyzes Each text result ↔ result = (analyze text).runFrom [] := by
  have hbody : ∀ (block : Block) result, Decomposes Each block.body block.bodyStart result ↔
      result = children (block.body.length + 2) block.body block.bodyStart :=
    fun block result => (search_within hEach _).2 _ _ result (Nat.lt_succ_self _)
  constructor
  · rintro (hfind | ⟨hfind, hread⟩ | ⟨hfind, -, hread, hinner⟩)
    · exact (runFrom_analyze_absent hfind).symm
    · exact (runFrom_analyze_broken hfind hread).symm
    · exact (runFrom_analyze hfind hread ((hbody _ _).1 hinner).symm).symm
  · rintro rfl
    cases hfind : TestCategory.describe.head.find? text with
    | none =>
      rw [runFrom_analyze_absent hfind]
      exact .absent hfind
    | some found =>
      cases hread : Block.read .describe text found with
      | error fault =>
        rw [runFrom_analyze_broken hfind hread]
        exact .broken hfind hread
      | ok block =>
        rw [runFrom_analyze hfind hread rfl]
        have heach : Each .describe (.ofText text) found := by
          refine hEach (.ofText text) ?_
          rwa [SourceBuffer.residual_ofText]
        exact .suite hfind heach hread ((hbody _ _).2 rfl)

end Rounds

/-- The analysis of every text ends, and every round of it makes progress: what it consumes is not empty, it leaves less
of its buffer, and the body that it goes into is shorter than the text it is cut from. The outcome is that of the
reader, and the analysis has no other, whatever holds of its rounds. -/
theorem analyze_ends (text : Text) :
    Analyzes Progress text ((analyze text).runFrom []) ∧
      ∀ result, Analyzes (fun _ _ _ => True) text result → result = (analyze text).runFrom [] := by
  constructor
  · exact (analyzes_iff progress text _).2 rfl
  · intro result hresult
    exact (analyzes_iff (fun _ _ => trivial) text result).1 hresult

end Suite

end AngularUplift
