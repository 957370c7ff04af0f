import AngularUplift.Proofs.Buffer.View
import AngularUplift.Proofs.Suite.Head
import AngularUplift.Proofs.Text.Delimiter

/-!
# One round of a search

A round of the search for blocks consumes the block at the first head with the comment above it, or, when the block is
not balanced, the head alone. Either way it consumes something, because the keyword is part of it. The body of a block
stands between two delimiters, so that it is shorter than the text it is cut from.

## Main definitions

* `Suite.consumed`, `Suite.after`: what a round consumes, and the buffer after it.
* `Suite.Progress`: a round that leaves less than there was before it.
* `Suite.isBareSuite`: whether a node is a certain suite without nodes.

## Main statements

* `Block.Fits.of_read`: where a block stands in its text.
* `Suite.progress`: every round makes progress.
* `Suite.rounds_of_find?_eq_none`, `Suite.rounds_skip`, `Suite.rounds_leaf`, `Suite.rounds_suite`: the cases of a round.
* `Suite.runFrom_analyze`, `Suite.exists_of_analyze`: the suite of a text from the block that is found first.
-/

namespace AngularUplift

/-! ### Where blocks stand -/

/-- A piece that occurs in a text begins inside it. -/
theorem Text.lt_length_of_lastIndexOf? {piece text : Text} {n : Nat} (hpiece : piece ≠ [])
    (h : lastIndexOf? piece text = some n) : n < text.length := by
  induction text generalizing n with
  | nil =>
    rw [lastIndexOf?, if_neg (mt List.isEmpty_iff.1 hpiece)] at h
    cases h
  | cons c cs ih =>
    rw [lastIndexOf?] at h
    split at h
    · next m hm =>
      obtain rfl := Option.some.inj h
      exact Nat.succ_lt_succ (ih hm)
    · obtain ⟨-, heq⟩ := Option.ite_none_right_eq_some.1 h
      obtain rfl := Option.some.inj heq
      exact Nat.succ_pos _

/-- Trimming the end of a text leaves no more than there was. -/
theorem Text.length_trimRight_le (text : Text) : (trimRight text).length ≤ text.length := by
  rw [trimRight, dropRightWhile, List.length_reverse]
  exact (List.dropWhile_sublist isBlank).length_le.trans_eq List.length_reverse

/-- The comment above a position begins at or before it. -/
theorem precedingComment_snd_le (text : Text) (index : Nat) : (precedingComment text index).2 ≤ index := by
  have hbefore : (Text.trimRight (text.take index)).length ≤ index :=
    (Text.length_trimRight_le _).trans (List.length_take_le index text)
  rw [precedingComment]
  generalize Text.trimRight (text.take index) = before at hbefore
  extract_lets lineStart line content
  have hstart : lineStart ≤ before.length := by
    cases hbreak : Text.lastIndexOf? ['\n'] before with
    | none => simp [lineStart, hbreak]
    | some n =>
      have hinside : n + 1 ≤ before.length := Text.lt_length_of_lastIndexOf? (by decide) hbreak
      simpa [lineStart, hbreak] using hinside
  have hline : lineStart + (line.length - content.length) ≤ index := by
    have hlength : line.length = before.length - lineStart := List.length_drop ..
    omega
  have hcomment : (if content.startsWith (txt "//") = true then (content, lineStart + (line.length - content.length))
      else ([], index)).2 ≤ index := by
    split
    · exact hline
    · exact le_rfl
  split
  · split
    · next start hblock => exact (Text.lt_length_of_lastIndexOf? (by decide) hblock).le.trans hbefore
    · exact hcomment
  · exact hcomment

/-- The end of a block is at or after its closing parenthesis, inside the text. -/
theorem blockTrailerEnd_bounds {text : Text} {position : Nat} (h : position ≤ text.length) :
    position ≤ blockTrailerEnd text position ∧ blockTrailerEnd text position ≤ text.length := by
  have hgap := (List.dropWhile_sublist isGap (l := text.drop position)).length_le
  rw [List.length_drop] at hgap
  rw [blockTrailerEnd]
  split
  · next rest hrest =>
    rw [hrest, List.length_cons] at hgap
    omega
  · omega

/-- The head of a category that is found in a text ends inside the text, after its keyword. -/
theorem TestCategory.keyword_lt_stop {category : TestCategory} {text : Text} {found : Occurrence Nat}
    (h : category.head.find? text = some found) :
    found.start + found.value < found.stop ∧ found.stop ≤ text.length := by
  obtain ⟨hstart, -, rest, hread, hstop⟩ := Pattern.read_of_find? h
  obtain ⟨spaces, space, heq, hindent, -, -⟩ := read_head_eq_some hread
  have hlength := congrArg List.length heq
  simp only [List.length_append, List.length_cons, List.length_drop] at hlength hstop
  omega

/-- What a block that is read consists of: the comment above its keyword, the title, which is the first of the arguments
before the closing parenthesis, the trailer, and no body, or one that a closed pair of braces encloses. -/
theorem Block.parts_of_read {category : TestCategory} {text : Text} {found : Occurrence Nat} {block : Block}
    (h : Block.read category text found = .ok block) :
    ∃ closeIndex, Delimiter.paren.close text (found.stop - 1 : Nat) = .ok closeIndex ∧
      block.keywordStart = found.start + found.value ∧
      block.start = (precedingComment text (found.start + found.value)).2 ∧
      block.stop = blockTrailerEnd text (closeIndex + 1) ∧
      block.title = Text.unquote ((Text.splitArguments (text.slice (found.stop - 1 + 1) closeIndex)).headD []) ∧
      (block.body = [] ∨ ∃ brace bodyEnd : Nat, found.stop - 1 < brace ∧
        Delimiter.brace.close text brace = .ok bodyEnd ∧ block.body = text.slice (brace + 1) bodyEnd) := by
  rw [Block.read] at h
  generalize precedingComment text (found.start + found.value) = above at h ⊢
  cases hclose : Delimiter.paren.close text (found.stop - 1 : Nat) with
  | error fault => simp [hclose, bind, Except.bind] at h
  | ok closeIndex =>
    refine ⟨closeIndex, rfl, ?_⟩
    simp only [hclose, bind, Except.bind, pure, Except.pure] at h
    split at h
    · obtain rfl := Except.ok.inj h
      exact ⟨rfl, rfl, rfl, rfl, .inl rfl⟩
    · split at h
      · obtain rfl := Except.ok.inj h
        exact ⟨rfl, rfl, rfl, rfl, .inl rfl⟩
      · next n hbrace =>
        cases hend : Delimiter.brace.close text (found.stop - 1 + 1 + n : Nat) with
        | error fault =>
          rw [hend] at h
          cases h
        | ok bodyEnd =>
          simp only [hend, Except.ok.injEq] at h
          obtain rfl := h
          exact ⟨rfl, rfl, rfl, rfl, .inr ⟨_, bodyEnd, by omega, hend, rfl⟩⟩

/-- Where a block stands in a text. Its cut goes from the comment above it to the end of the block, with the keyword in
it, and its body is cut from between two parentheses. -/
structure Block.Fits (block : Block) (text : Text) : Prop where
  /-- The comment is above the keyword. -/
  start_le : block.start ≤ block.keywordStart
  /-- The block ends after its keyword. -/
  keywordStart_lt : block.keywordStart < block.stop
  /-- The block ends inside the text. -/
  stop_le : block.stop ≤ text.length
  /-- The text has at least the two parentheses more than the body. -/
  length_body_le : block.body.length + 2 ≤ text.length

/-- A block that is read stands in its text. -/
theorem Block.Fits.of_read {category : TestCategory} {text : Text} {found : Occurrence Nat} {block : Block}
    (hfind : category.head.find? text = some found) (h : Block.read category text found = .ok block) :
    block.Fits text := by
  obtain ⟨hhead, -⟩ := TestCategory.keyword_lt_stop hfind
  obtain ⟨closeIndex, hclose, hkeyword, hstart, hstop, -, hbody⟩ := Block.parts_of_read h
  obtain ⟨-, hopen, hchar, -⟩ := Delimiter.close_eq_ok hclose
  have hcloseLe : closeIndex + 1 ≤ text.length := (List.getElem?_eq_some_iff.1 hchar).1
  obtain ⟨htrailer, htrailerStop⟩ := blockTrailerEnd_bounds hcloseLe
  refine ⟨?_, by omega, by omega, ?_⟩
  · rw [hstart, hkeyword]
    exact precedingComment_snd_le ..
  · rcases hbody with hnone | ⟨brace, bodyEnd, hbrace, hend, hslice⟩
    · rw [hnone, List.length_nil]
      omega
    · obtain ⟨-, -, hendChar, -⟩ := Delimiter.close_eq_ok hend
      have hendLe : bodyEnd + 1 ≤ text.length := (List.getElem?_eq_some_iff.1 hendChar).1
      rw [hslice, Text.length_slice (by omega)]
      omega

/-! ### Progress -/

namespace Suite

/-- What a round consumes of a text in which it finds a head: the block with the comment above it, or, when the block is
not balanced, the head without the spaces before it. -/
def consumed (category : TestCategory) (text : Text) (found : Occurrence Nat) : Span :=
  match Block.read category text found with
  | .ok block => ⟨block.start, block.stop⟩
  | .error _ => ⟨found.start + found.value, found.stop⟩

/-- The buffer after a round. -/
def after (category : TestCategory) (buffer : SourceBuffer) (found : Occurrence Nat) : SourceBuffer :=
  let span := consumed category buffer.residual found
  buffer.consumeView buffer.view span.start span.stop

/-- A round that consumes something of what is left of a buffer, and goes into a text that is shorter than this, if it
goes into one at all. -/
structure Progress (category : TestCategory) (buffer : SourceBuffer) (found : Occurrence Nat) : Prop where
  /-- The span that is consumed is not empty. -/
  start_lt_stop : (consumed category buffer.residual found).start < (consumed category buffer.residual found).stop
  /-- It lies in what is left of the buffer. -/
  stop_le : (consumed category buffer.residual found).stop ≤ buffer.residual.length
  /-- What is left is what stands before and after it, and nothing else. -/
  residual_after : (after category buffer found).residual =
    buffer.residual.slice 0 (consumed category buffer.residual found).start ++
      buffer.residual.slice (consumed category buffer.residual found).stop buffer.residual.length
  /-- What is left is shorter than before. -/
  length_after_lt : (after category buffer found).residual.length < buffer.residual.length
  /-- The body of the block is shorter than the text it is cut from. -/
  length_body_lt : ∀ block, Block.read category buffer.residual found = .ok block →
    block.body.length < buffer.residual.length

variable {category : TestCategory} {buffer : SourceBuffer} {found : Occurrence Nat}

/-- The span that a round consumes is not empty and lies in the text. -/
theorem consumed_bounds {text : Text} (hfind : category.head.find? text = some found) :
    (consumed category text found).start < (consumed category text found).stop ∧
      (consumed category text found).stop ≤ text.length := by
  rw [consumed]
  split
  · next block hread =>
    obtain ⟨hstart, hkeyword, hstop, -⟩ := Block.Fits.of_read hfind hread
    exact ⟨hstart.trans_lt hkeyword, hstop⟩
  · exact TestCategory.keyword_lt_stop hfind

/-- Every round makes progress. -/
theorem progress (hbuffer : buffer.Reachable) (hfind : category.head.find? buffer.residual = some found) :
    Progress category buffer found := by
  obtain ⟨hstart, hstop⟩ := consumed_bounds hfind
  have hafter := SourceBuffer.residual_consumeView hbuffer.consistent.canonical hstart.le hstop
  refine ⟨hstart, hstop, hafter, ?_, fun block hread => ?_⟩
  · rw [after, hafter, List.length_append, Text.length_slice (by omega), Text.length_slice le_rfl]
    omega
  · have hbody := (Block.Fits.of_read hfind hread).length_body_le
    omega

theorem reachable_after (h : buffer.Reachable) : (after category buffer found).Reachable := .consume _ _ h

/-- A round with a block consumes the block. -/
theorem after_of_ok {block : Block} (h : Block.read category buffer.view.text found = .ok block) :
    after category buffer found = buffer.consumeView buffer.view block.start block.stop := by
  rw [after, consumed, SourceBuffer.residual, h]

/-- A round without a block consumes the head. -/
theorem after_of_error {fault : Fault} (h : Block.read category buffer.view.text found = .error fault) :
    after category buffer found =
      buffer.consumeView buffer.view (found.start + found.value : Nat) found.stop := by
  rw [after, consumed, SourceBuffer.residual, h]

/-! ### The cases of a round -/

variable {fuel : Nat} {base : Int} {block : Block}

/-- A search that finds nothing more ends. -/
theorem rounds_of_find?_eq_none (h : category.head.find? buffer.view.text = none) (base : Int) :
    rounds fuel category buffer base = ([], buffer, []) := by
  cases fuel with
  | zero => rfl
  | succ fuel => simp only [rounds, h]

/-- A round that finds a head whose block is not balanced. -/
theorem rounds_skip {fault : Fault} (hfind : category.head.find? buffer.view.text = some found)
    (hread : Block.read category buffer.view.text found = .error fault) :
    rounds (fuel + 1) category buffer base =
      let next := rounds fuel category
        (buffer.consumeView buffer.view (found.start + found.value : Nat) found.stop) base
      (next.1, next.2.1, .debug area (txt "Leaving unbalanced " ++ category.label ++
        txt " block in place: " ++ fault.message) :: next.2.2) := by
  rw [rounds]
  simp only [hfind, hread]

/-- A round that finds a block other than a suite. -/
theorem rounds_leaf (hcategory : category ≠ .describe) (hfind : category.head.find? buffer.view.text = some found)
    (hread : Block.read category buffer.view.text found = .ok block) :
    rounds (fuel + 1) category buffer base =
      let next := rounds fuel category (buffer.consumeView buffer.view block.start block.stop) base
      (leaf category block (base + buffer.view.toSource block.keywordStart) :: next.1, next.2) := by
  rw [rounds]
  simp only [hfind, hread]
  cases category with
  | describe => exact absurd rfl hcategory
  | beforeEach | xit | it => rfl

/-- A round that finds a suite. -/
theorem rounds_suite (hfind : TestCategory.describe.head.find? buffer.view.text = some found)
    (hread : Block.read .describe buffer.view.text found = .ok block) {nodes : List TestNode} {residual : Text}
    {records : List LogRecord}
    (hchildren : children fuel block.body (base + buffer.view.toSource block.bodyStart) = (nodes, residual, records)) :
    rounds (fuel + 1) .describe buffer base =
      let next := rounds fuel .describe (buffer.consumeView buffer.view block.start block.stop) base
      (.describe block.title (Text.trim residual) block.comment (base + buffer.view.toSource block.keywordStart)
        nodes :: next.1, next.2.1, records ++ next.2.2) := by
  rw [rounds]
  simp only [hfind, hread, hchildren]

/-- The first suite of a text is read from the block that is found first. -/
theorem runFrom_analyze {text residual : Text} {nodes : List TestNode} {records : List LogRecord}
    (hfind : TestCategory.describe.head.find? text = some found) (hread : Block.read .describe text found = .ok block)
    (hchildren : children (block.body.length + 2) block.body block.bodyStart = (nodes, residual, records)) :
    (analyze text).runFrom [] =
      (.ok (some (.describe block.title (Text.trim residual) block.comment block.keywordStart nodes)), records) := by
  rw [analyze, hfind]
  simp only [hread, Logged.ofExcept, pure_bind, hchildren]
  rfl

/-- A text without the head of a suite has no suite. -/
theorem runFrom_analyze_absent {text : Text} (hfind : TestCategory.describe.head.find? text = none) :
    (analyze text).runFrom [] = (.ok none, []) := by
  rw [analyze, hfind]
  rfl

/-- A text whose first suite is not balanced is refused. -/
theorem runFrom_analyze_broken {text : Text} {fault : Fault}
    (hfind : TestCategory.describe.head.find? text = some found)
    (hread : Block.read .describe text found = .error fault) : (analyze text).runFrom [] = (.error fault, []) := by
  rw [analyze, hfind]
  simp only [hread]
  rfl

/-- A suite that a text has is read from the block that is found first. -/
theorem exists_of_analyze {text : Text} {root : TestNode} (h : (analyze text).outcome = .ok (some root)) :
    ∃ found block, TestCategory.describe.head.find? text = some found ∧ Block.read .describe text found = .ok block ∧
      root = .describe block.title
        (Text.trim (children (block.body.length + 2) block.body block.bodyStart).2.1) block.comment
        block.keywordStart (children (block.body.length + 2) block.body block.bodyStart).1 := by
  rw [Logged.outcome] at h
  cases hfind : TestCategory.describe.head.find? text with
  | none =>
    rw [runFrom_analyze_absent hfind] at h
    cases h
  | some found =>
    cases hread : Block.read .describe text found with
    | error fault =>
      rw [runFrom_analyze_broken hfind hread] at h
      cases h
    | ok block =>
      -- The search itself is not to be unfolded.
      obtain ⟨nodes, residual, records, hchildren⟩ : ∃ nodes residual records,
          children (block.body.length + 2) block.body block.bodyStart = (nodes, residual, records) := ⟨_, _, _, rfl⟩
      rw [runFrom_analyze hfind hread hchildren] at h
      obtain rfl := Option.some.inj (Except.ok.inj h)
      exact ⟨found, block, rfl, hread, by rw [hchildren]⟩

/-! ### Suites that can be compared -/

/-- Whether a node is a suite at the beginning of its file, with a title, a body and no comment, and without nodes. -/
def isBareSuite (title body : Text) : TestNode → Bool
  | .describe heading inner comment offset nodes =>
    decide (heading = title ∧ inner = body ∧ comment = [] ∧ offset = 0) && nodes.isEmpty
  | _ => false

theorem eq_of_isBareSuite {title body : Text} {node : TestNode} (h : isBareSuite title body node) :
    node = .describe title body [] 0 [] := by
  cases node with
  | describe heading inner comment offset nodes =>
    obtain ⟨hparts, hnodes⟩ := Bool.and_eq_true_iff.1 h
    obtain ⟨rfl, rfl, rfl, rfl⟩ := of_decide_eq_true hparts
    rw [List.isEmpty_iff.1 hnodes]
  | beforeEach | xit | it | other => cases h

/-- What an analysis finds when it finds a suite. -/
theorem eq_ok_of_toOption {outcome : Except Fault (Option TestNode)} {root : TestNode}
    (h : outcome.toOption.join = some root) : outcome = .ok (some root) := by
  cases outcome with
  | error fault => cases h
  | ok found => exact congrArg Except.ok h

/-- What an analysis finds when it finds a bare suite. -/
theorem eq_ok_of_any_isBareSuite {outcome : Except Fault (Option TestNode)} {title body : Text}
    (h : outcome.toOption.join.any (isBareSuite title body)) :
    outcome = .ok (some (.describe title body [] 0 [])) := by
  obtain ⟨root, hroot, hbare⟩ := (Option.any_eq_true ..).1 h
  rw [eq_ok_of_toOption hroot, eq_of_isBareSuite hbare]

end Suite

end AngularUplift
