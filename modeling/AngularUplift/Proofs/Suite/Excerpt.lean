import AngularUplift.Proofs.Construct.Totality
import AngularUplift.Proofs.Suite.Termination

/-!
# What is cut out of the body of a suite

The search for blocks cuts one piece after the other out of the body of a suite, each out of what the pieces before it
have left. A block is cut out whole, with the comment above it and its trailer, and becomes a node. Of a block that is
not balanced only the head is cut out: its keyword, the white space after it and its parenthesis. Nothing else goes away,
so that the rest of the block stays in what is left, where later rounds may find further heads.

## Main definitions

* `Suite.Makes`: the node that a block becomes.
* `Suite.Excerpt`: a piece that is cut out, with its node or without one.
* `Suite.Cuts`, `Suite.CutsAll`, `Suite.CutsBody`: one round of a search, a whole search, and the searches in a body.

## Main statements

* `Suite.cuts_of_ok`, `Suite.cuts_of_error`: what the two kinds of round cut out.
* `Suite.cutsAll_rounds`: the pieces of a search.
* `Suite.body_accounted`: the pieces of a body and what is left of it.
* `Suite.unbalanced_head_lost`: a block that is not balanced does not stay as it was.
-/

namespace AngularUplift

namespace Suite

/-- The node that a block becomes. What is inside a suite is cut up in its turn; what is left of it is the suite's own
body. -/
inductive Makes : TestCategory → Block → TestNode → Prop
  /-- A hook or a test. -/
  | leaf {category : TestCategory} {block : Block} (offset : Int) (hcategory : category ≠ .describe) :
      Makes category block (leaf category block offset)
  /-- A suite. -/
  | suite {block : Block} (offset base : Int) (spare : Nat) {nodes : List TestNode} {residual : Text}
      {records : List LogRecord}
      (hbody : children (block.body.length + 2 + spare) block.body base = (nodes, residual, records)) :
      Makes .describe block (.describe block.title (Text.trim residual) block.comment offset nodes)

/-- A piece that is cut out of the body of a suite. -/
structure Excerpt where
  /-- Its characters. -/
  text : Text
  /-- The node that it becomes, if it is a block. -/
  node? : Option TestNode

/-- One round of the search for the blocks of a category: what it cuts out of a text, and what is left. -/
inductive Cuts (category : TestCategory) : (before : Text) → Excerpt → (after : Text) → Prop
  /-- The first block, with the comment above it, becomes a node. -/
  | block {front piece back : Text} {found : Occurrence Nat} {block : Block} {node : TestNode}
      (hfind : category.head.find? (front ++ (piece ++ back)) = some found)
      (hread : Block.read category (front ++ (piece ++ back)) found = .ok block)
      (hstart : block.start = front.length) (hstop : block.stop = front.length + piece.length)
      (hnode : Makes category block node) :
      Cuts category (front ++ (piece ++ back)) ⟨piece, some node⟩ (front ++ back)
  /-- The first block is not balanced. Only its head goes away, and no node comes of it. -/
  | head {front space back : Text} {found : Occurrence Nat} {fault : Fault}
      (hfind : category.head.find? (front ++ (category.keyword ++ (space ++ '(' :: back))) = some found)
      (hread : Block.read category (front ++ (category.keyword ++ (space ++ '(' :: back))) found = .error fault)
      (hfault : fault.IsUnbalanced) (hstart : found.start + found.value = front.length)
      (hspace : ∀ c ∈ space, isBlank c) :
      Cuts category (front ++ (category.keyword ++ (space ++ '(' :: back)))
        ⟨category.keyword ++ (space ++ ['(']), none⟩ (front ++ back)

/-- A whole search: it goes on with what each round leaves until there is no further head. -/
inductive CutsAll (category : TestCategory) : (before : Text) → List Excerpt → (after : Text) → Prop
  /-- There is no head. -/
  | done {text : Text} (hnone : category.head.find? text = none) : CutsAll category text [] text
  /-- One round, and then the others. -/
  | round {before middle after : Text} {excerpt : Excerpt} {excerpts : List Excerpt}
      (hround : Cuts category before excerpt middle) (hmore : CutsAll category middle excerpts after) :
      CutsAll category before (excerpt :: excerpts) after

/-- The four searches in the body of a suite, one after the other. -/
inductive CutsBody : (body : Text) → List Excerpt → (residual : Text) → Prop
  /-- The pieces of the four categories. -/
  | intro {body afterSuites afterHooks afterSkipped residual : Text} {suites hooks skipped tests : List Excerpt}
      (hsuites : CutsAll .describe body suites afterSuites) (hhooks : CutsAll .beforeEach afterSuites hooks afterHooks)
      (hskipped : CutsAll .xit afterHooks skipped afterSkipped) (htests : CutsAll .it afterSkipped tests residual) :
      CutsBody body (suites ++ hooks ++ skipped ++ tests) residual

/-! ### One round -/

section Round

variable {category : TestCategory} {buffer : SourceBuffer} {found : Occurrence Nat}

/-- A block is refused only where a delimiter is not closed. -/
theorem isUnbalanced_of_read {text : Text} {fault : Fault} (h : Block.read category text found = .error fault) :
    fault.IsUnbalanced := by
  have houtcome := outcome_readBlock category text found
  rw [h] at houtcome
  obtain _ | hfault := houtcome
  exact hfault

/-- What a round consumes is one piece of what is left of the buffer, and the rest stays. -/
theorem exists_piece (hbuffer : buffer.Reachable) (hfind : category.head.find? buffer.residual = some found) :
    ∃ front piece back, buffer.residual = front ++ (piece ++ back) ∧
      (after category buffer found).residual = front ++ back ∧
      (consumed category buffer.residual found).start = front.length ∧
      (consumed category buffer.residual found).stop = front.length + piece.length := by
  obtain ⟨hlt, hstop, hresidual, -, -⟩ := progress hbuffer hfind
  generalize consumed category buffer.residual found = span at hlt hstop hresidual ⊢
  refine ⟨_, buffer.residual.slice span.start span.stop, _, ?_, hresidual, ?_, ?_⟩
  · rw [← Text.slice_eq_append hlt.le hstop le_rfl,
      ← Text.slice_eq_append (Nat.zero_le _) (hlt.le.trans hstop) le_rfl, Text.slice_length, List.drop_zero]
  · rw [Text.length_slice (hlt.le.trans hstop), Nat.sub_zero]
  · rw [Text.length_slice (hlt.le.trans hstop), Text.length_slice hstop]
    omega

/-- A round that reads a block cuts it out. -/
theorem cuts_of_ok {block : Block} {node : TestNode} (hbuffer : buffer.Reachable)
    (hfind : category.head.find? buffer.residual = some found)
    (hread : Block.read category buffer.residual found = .ok block) (hnode : Makes category block node) :
    ∃ piece, Cuts category buffer.residual ⟨piece, some node⟩ (after category buffer found).residual := by
  obtain ⟨front, piece, back, htext, hafter, hstart, hstop⟩ := exists_piece hbuffer hfind
  have hconsumed : consumed category buffer.residual found = ⟨block.start, block.stop⟩ := by rw [consumed, hread]
  rw [hconsumed] at hstart hstop
  rw [htext] at hfind hread ⊢
  rw [hafter]
  exact ⟨piece, .block hfind hread hstart hstop hnode⟩

/-- A round that finds a block that is not balanced cuts its head out. -/
theorem cuts_of_error {fault : Fault} (hbuffer : buffer.Reachable)
    (hfind : category.head.find? buffer.residual = some found)
    (hread : Block.read category buffer.residual found = .error fault) :
    ∃ piece, Cuts category buffer.residual ⟨piece, none⟩ (after category buffer found).residual := by
  have hfault := isUnbalanced_of_read hread
  obtain ⟨front, piece, back, htext, hafter, hstart, hstop⟩ := exists_piece hbuffer hfind
  have hconsumed : consumed category buffer.residual found = ⟨found.start + found.value, found.stop⟩ := by
    rw [consumed, hread]
  rw [hconsumed] at hstart hstop
  dsimp only at hstart hstop
  rw [htext] at hfind hread ⊢
  rw [hafter]
  -- The piece is what was read as the head, without the spaces before it.
  obtain ⟨hle, -, rest, hhead, hend⟩ := Pattern.read_of_find? hfind
  obtain ⟨spaces, space, hshape, hvalue, -, hspace⟩ := TestCategory.read_head_eq_some hhead
  have hsplit : front ++ (piece ++ back) = (front ++ (piece ++ back)).take found.start ++ spaces ++
      (category.keyword ++ (space ++ '(' :: rest)) := by
    rw [List.append_assoc, ← hshape, List.take_append_drop]
  obtain ⟨-, hpiece⟩ := List.append_inj hsplit (by
    rw [List.length_append, List.length_take_of_le hle, hvalue]
    exact hstart.symm)
  have hlength := congrArg List.length hshape
  obtain ⟨rfl, rfl⟩ : piece = category.keyword ++ (space ++ ['(']) ∧ back = rest := by
    have hassoc : piece ++ back = category.keyword ++ (space ++ ['(']) ++ rest := by simpa using hpiece
    refine List.append_inj hassoc ?_
    simp only [List.length_append, List.length_cons, List.length_nil] at hlength ⊢
    omega
  simp only [List.append_assoc, List.cons_append, List.nil_append] at hfind hread ⊢
  exact ⟨_, .head hfind hread hfault hstart hspace⟩

end Round

/-! ### A whole search -/

/-- The pieces that a search cuts out, and the nodes that it makes of them. -/
theorem cutsAll_rounds {fuel : Nat} {category : TestCategory} {buffer : SourceBuffer} (hbuffer : buffer.Reachable)
    (hfuel : buffer.residual.length < fuel) (base : Int) :
    ∃ excerpts, CutsAll category buffer.residual excerpts (rounds fuel category buffer base).2.1.residual ∧
      (rounds fuel category buffer base).1 = excerpts.filterMap Excerpt.node? := by
  induction fuel generalizing buffer with
  | zero => exact absurd hfuel (Nat.not_lt_zero _)
  | succ fuel ih =>
    cases hfind : category.head.find? buffer.residual with
    | none =>
      rw [rounds_of_find?_eq_none hfind]
      exact ⟨[], .done hfind, rfl⟩
    | some found =>
      have hlt := (progress hbuffer hfind).length_after_lt
      obtain ⟨excerpts, hcuts, hnodes⟩ := ih (reachable_after hbuffer) (hlt.trans_le (Nat.lt_succ_iff.1 hfuel))
      cases hread : Block.read category buffer.residual found with
      | error fault =>
        obtain ⟨piece, hpiece⟩ := cuts_of_error hbuffer hfind hread
        rw [rounds_skip hfind hread, ← after_of_error hread]
        exact ⟨_ :: excerpts, .round hpiece hcuts, hnodes⟩
      | ok block =>
        by_cases hcategory : category = .describe
        · subst hcategory
          -- The fuel that is left is enough for the body, and some of it may be to spare.
          have hbody := (Block.Fits.of_read hfind hread).length_body_le
          obtain ⟨spare, rfl⟩ : ∃ spare, fuel = block.body.length + 2 + spare := Nat.exists_eq_add_of_le (by omega)
          obtain ⟨nodes, residual, records, hchildren⟩ : ∃ nodes residual records,
              children (block.body.length + 2 + spare) block.body (base + buffer.view.toSource block.bodyStart) =
                (nodes, residual, records) := ⟨_, _, _, rfl⟩
          obtain ⟨piece, hpiece⟩ := cuts_of_ok hbuffer hfind hread
            (.suite (base + buffer.view.toSource block.keywordStart) _ spare hchildren)
          rw [rounds_suite hfind hread hchildren, ← after_of_ok hread]
          exact ⟨_ :: excerpts, .round hpiece hcuts, congrArg _ hnodes⟩
        · obtain ⟨piece, hpiece⟩ := cuts_of_ok hbuffer hfind hread 
            (.leaf (base + buffer.view.toSource block.keywordStart) hcategory)
          rw [rounds_leaf hcategory hfind hread, ← after_of_ok hread]
          exact ⟨_ :: excerpts, .round hpiece hcuts, congrArg _ hnodes⟩

/-- A round takes its piece out and nothing else. -/
theorem Cuts.exists_split {category : TestCategory} {before after : Text} {excerpt : Excerpt}
    (h : Cuts category before excerpt after) :
    ∃ front back, before = front ++ (excerpt.text ++ back) ∧ after = front ++ back := by
  cases h with
  | block => exact ⟨_, _, rfl, rfl⟩
  | head => exact ⟨_, _, by simp, rfl⟩

/-- A search takes its pieces out and nothing else. -/
theorem CutsAll.perm {category : TestCategory} {before after : Text} {excerpts : List Excerpt}
    (h : CutsAll category before excerpts after) : before.Perm (after ++ excerpts.flatMap Excerpt.text) := by
  induction h with
  | done => simp
  | @round before middle after excerpt excerpts hround hmore ih =>
    obtain ⟨front, back, rfl, rfl⟩ := hround.exists_split
    have hout : (front ++ (excerpt.text ++ back)).Perm (excerpt.text ++ (front ++ back)) := by
      rw [← List.append_assoc, ← List.append_assoc]
      exact List.perm_append_comm.append_right back
    rw [List.flatMap_cons]
    refine hout.trans ((ih.append_left excerpt.text).trans ?_)
    rw [← List.append_assoc, ← List.append_assoc]
    exact List.perm_append_comm.append_right _

/-- The searches in a body take their pieces out and nothing else. -/
theorem CutsBody.perm {body residual : Text} {excerpts : List Excerpt} (h : CutsBody body excerpts residual) :
    body.Perm (residual ++ excerpts.flatMap Excerpt.text) := by
  obtain ⟨hsuites, hhooks, hskipped, htests⟩ := h
  refine List.perm_iff_count.2 fun c => ?_
  have hcounts := And.intro (And.intro (hsuites.perm.count_eq c) (hhooks.perm.count_eq c))
    (And.intro (hskipped.perm.count_eq c) (htests.perm.count_eq c))
  simp only [List.flatMap_append, List.count_append] at hcounts ⊢
  omega

/-- What becomes of the body of a suite. Pieces are cut out of it one after the other, and exactly these go away: blocks,
which are the nodes of the body, and the heads of blocks that are not balanced, which are lost. -/
theorem body_accounted (spare : Nat) (body : Text) (base : Int) :
    ∃ excerpts, CutsBody body excerpts (children (body.length + 2 + spare) body base).2.1 ∧
      (children (body.length + 2 + spare) body base).1 = excerpts.filterMap Excerpt.node? ∧
      body.Perm ((children (body.length + 2 + spare) body base).2.1 ++ excerpts.flatMap Excerpt.text) := by
  have hfuel : body.length + 2 + spare = body.length + 1 + spare + 1 := by omega
  rw [hfuel, children_succ]
  generalize hfuel : body.length + 1 + spare = fuel
  -- Each search begins with what the one before it leaves, for which the fuel is still enough.
  have hsearch : ∀ category {buffer : SourceBuffer}, buffer.Reachable → buffer.residual.length < fuel →
      ((rounds fuel category buffer base).2.1.Reachable ∧
        (rounds fuel category buffer base).2.1.residual.length < fuel) ∧
      ∃ excerpts, CutsAll category buffer.residual excerpts (rounds fuel category buffer base).2.1.residual ∧
        (rounds fuel category buffer base).1 = excerpts.filterMap Excerpt.node? := by
    intro category buffer hbuffer hlength
    obtain ⟨hreachable, hle⟩ := rounds_le fuel category base hbuffer
    exact ⟨⟨hreachable, hle.trans_lt hlength⟩, cutsAll_rounds hbuffer hlength base⟩
  have hresidual := SourceBuffer.residual_ofText body
  have hlength : (SourceBuffer.ofText body).residual.length < fuel := by
    rw [hresidual]
    omega
  obtain ⟨⟨hafterSuites, hsuitesLt⟩, suites, hsuites, hsuiteNodes⟩ := hsearch .describe (.ofText body) hlength
  obtain ⟨⟨hafterHooks, hhooksLt⟩, hooks, hhooks, hhookNodes⟩ := hsearch .beforeEach hafterSuites hsuitesLt
  obtain ⟨⟨hafterSkipped, hskippedLt⟩, skipped, hskipped, hskippedNodes⟩ := hsearch .xit hafterHooks hhooksLt
  obtain ⟨-, tests, htests, htestNodes⟩ := hsearch .it hafterSkipped hskippedLt
  rw [hresidual] at hsuites
  have hcuts := CutsBody.intro hsuites hhooks hskipped htests
  refine ⟨_, hcuts, ?_, hcuts.perm⟩
  simp only [List.filterMap_append, ← hsuiteNodes, ← hhookNodes, ← hskippedNodes, ← htestNodes]

/-- A test whose title opens a parenthesis and does not close it, without its head. -/
def sadRest : Text := txt "'sad :(', function () \x7b\nrun();\n\x7d);"

/-- The body of a suite with this test. -/
def sadBody : Text := txt "\nit(" ++ sadRest ++ ['\n']

/-- A file with this suite. A remark after it closes the parenthesis of the title. -/
def sadSuite : Text := txt "describe('s', function () \x7b" ++ sadBody ++ txt "\x7d);\n// :)\n"

/-- The sad test is not balanced in the body of its suite, and no node comes of it; but what is left of the body is not
the test, because its head is gone. -/
theorem unbalanced_head_lost :
    (∃ found fault, TestCategory.it.head.find? sadBody = some found ∧ Block.read .it sadBody found = .error fault ∧
      fault.IsUnbalanced) ∧
      (analyze sadSuite).outcome = .ok (some (.describe ['s'] sadRest [] 0 [])) ∧
      ¬(txt "it(" ++ sadRest) <:+: sadRest := by
  refine ⟨?_, ?_, fun hinfix => ?_⟩
  · have hbroken : (TestCategory.it.head.find? sadBody).any
        (fun found => !(Block.read .it sadBody found).isOk) = true := by decide +kernel
    obtain ⟨found, hfind, hread⟩ := (Option.any_eq_true ..).1 hbroken
    cases hblock : Block.read .it sadBody found with
    | ok block => simp [hblock, Except.isOk, Except.toBool] at hread
    | error fault => exact ⟨found, fault, hfind, hblock, isUnbalanced_of_read hblock⟩
  · have hroot : (analyze sadSuite).outcome.toOption.join.any (isBareSuite ['s'] sadRest) := by decide +kernel
    exact eq_ok_of_any_isBareSuite hroot
  · have hle := hinfix.length_le
    have hhead : 0 < (txt "it(").length := by decide
    rw [List.length_append] at hle
    omega

end Suite

end AngularUplift
