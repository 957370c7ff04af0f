import AngularUplift.Proofs.Buffer.Stretches
import AngularUplift.Proofs.Suite.Block
import AngularUplift.Proofs.Suite.Head
import AngularUplift.Proofs.Suite.Node
import AngularUplift.Proofs.Suite.Rounds

/-!
# Written suites are read back

The body of a written suite is a sequence of lines: own code and blocks. Searching it for one category finds the
blocks of that category in the order they are written, because the blocks of the categories before are consumed,
nested suites first, and no other part of the suite holds a head of the category. Each block that is found is read
back and consumed as a whole.

## Main definitions

* `SuiteItem.shown`, `SuiteItem.stretches`: what is left of a suite once the blocks of some categories are consumed.
* `Suite.ReadsBack`: with some fuel the bodies of written suites are read back.

## Main statements

* `Suite.rounds_spec`: searching for one category.
* `Suite.readsBack`: the body of a written suite is read back.
* `Suite.written_suite_read_back`: a written suite is read back, and every node stands at its place.
-/

namespace AngularUplift

namespace SuiteItem

/-! ### What is left of a suite -/

/-- A block is of one of the categories that are finished. -/
def takenIn (finished : List TestCategory) (item : SuiteItem) : Bool :=
  finished.any fun category => item.category? = some category

/-- What is left of a part of a suite once the blocks of the finished categories are consumed. -/
def shown (finished : List TestCategory) (item : SuiteItem) : Text :=
  if item.takenIn finished then [] else item.print

/-- The parts of a suite, each followed by a line break, as stretches of a text. -/
def stretches (finished : List TestCategory) (items : List SuiteItem) : List Stretch :=
  items.flatMap fun item => [⟨item.print, item.takenIn finished⟩, ⟨['\n'], false⟩]

/-- The stretches of the body of a suite, which begins with a line break. -/
def bodyStretches (finished : List TestCategory) (items : List SuiteItem) : List Stretch :=
  ⟨['\n'], false⟩ :: stretches finished items

/-- The stretches of one more part. -/
theorem stretches_cons (finished : List TestCategory) (item : SuiteItem) (items : List SuiteItem) :
    stretches finished (item :: items) =
      ⟨item.print, item.takenIn finished⟩ :: ⟨['\n'], false⟩ :: stretches finished items := by
  simp [stretches]

/-- The stretches of a body with one more part at its end. -/
theorem bodyStretches_concat (finished : List TestCategory) (items : List SuiteItem) (item : SuiteItem)
    (later : List Stretch) :
    bodyStretches finished (items ++ [item]) ++ later =
      bodyStretches finished items ++ ⟨item.print, item.takenIn finished⟩ :: ⟨['\n'], false⟩ :: later := by
  simp [bodyStretches, stretches]

/-- The text of the stretches is the body as it is written. -/
theorem source_bodyStretches (finished : List TestCategory) (items : List SuiteItem) :
    Stretch.source (bodyStretches finished items) = '\n' :: Text.unlines (items.map print) := by
  rw [bodyStretches, Stretch.source_cons, List.singleton_append, List.cons.injEq]
  refine ⟨rfl, ?_⟩
  induction items with
  | nil => rfl
  | cons item items ih =>
    rw [stretches_cons, Stretch.source_cons, Stretch.source_cons, ih, List.map_cons, Text.unlines_cons,
      List.singleton_append]

/-- What is left of the stretches is what is left of the body. -/
theorem visible_bodyStretches (finished : List TestCategory) (items : List SuiteItem) :
    Stretch.visible (bodyStretches finished items) = '\n' :: Text.unlines (items.map (shown finished)) := by
  rw [bodyStretches, Stretch.visible_cons, if_neg Bool.false_ne_true, List.singleton_append, List.cons.injEq]
  refine ⟨rfl, ?_⟩
  induction items with
  | nil => rfl
  | cons item items ih =>
    rw [stretches_cons, Stretch.visible_cons, Stretch.visible_cons, ih, List.map_cons, Text.unlines_cons, shown,
      if_neg Bool.false_ne_true, List.singleton_append]

/-- A block is finished when its category is. -/
theorem takenIn_of_category? {finished : List TestCategory} {item : SuiteItem} {category : TestCategory}
    (h : item.category? = some category) : item.takenIn finished = decide (category ∈ finished) := by
  rw [Bool.eq_iff_iff, takenIn, h]
  simp

/-- One more category makes no difference to a part that is not of it. -/
theorem takenIn_cons {finished : List TestCategory} {item : SuiteItem} {category : TestCategory}
    (h : item.category? ≠ some category) : item.takenIn (category :: finished) = item.takenIn finished := by
  simp [takenIn, h]

/-- A part of a suite that is not finished is of none of the categories. -/
theorem category?_ne_of_takenIn {finished : List TestCategory} {item : SuiteItem}
    (h : item.takenIn finished = false) {category : TestCategory} (hcategory : category ∈ finished) :
    item.category? ≠ some category := by
  intro heq
  have hany : item.takenIn finished = true := List.any_eq_true.2 ⟨category, hcategory, decide_eq_true heq⟩
  exact Bool.false_ne_true (h.symm.trans hany)

/-- Once every category is finished, a part of a suite leaves what is the suite's own. -/
theorem shown_eq_own {finished : List TestCategory} (h : ∀ category : TestCategory, category ∈ finished)
    (item : SuiteItem) : shown finished item = own item := by
  cases hitem : item.category? with
  | none =>
    cases item with
    | code plain => simp [shown, takenIn, category?, print, own]
    | hook | test | suite => simp [category?] at hitem
  | some category =>
    rw [shown, takenIn_of_category? hitem, decide_eq_true (h category), if_pos rfl]
    cases item with
    | code plain => simp [category?] at hitem
    | hook | test | suite => rfl

/-! ### Texts between blocks -/

/-- What is left of the parts of a suite adds no comment: comments stand right above blocks. -/
theorem uncommented_unlines {before : Text} (h : Uncommented before) (finished : List TestCategory)
    (items : List SuiteItem) : Uncommented (before ++ Text.unlines (items.map (shown finished))) := by
  induction items generalizing before with
  | nil => exact h.append List.not_mem_nil
  | cons item items ih =>
    have hitem : Uncommented (before ++ shown finished item) := by
      rw [shown]
      split
      · exact h.append List.not_mem_nil
      · cases item with
        | code plain => exact h.append plain.slash_notMem
        | hook | test | suite =>
          rw [print]
          exact uncommented_blockText before ..
    have hline : Uncommented (before ++ shown finished item ++ ['\n']) := hitem.append (by decide)
    have hall := ih hline
    rwa [List.append_assoc, List.append_assoc, List.singleton_append, ← Text.unlines_cons] at hall

/-- No head of a finished category begins in what is left of a suite, once the nested suites are finished. -/
theorem absent_unlines {category : TestCategory} {finished : List TestCategory} (hsuites : .describe ∈ finished)
    (hcategory : category ∈ finished) (before after : Text) (items : List SuiteItem) :
    category.head.Absent after before (Text.unlines (items.map (shown finished))) := by
  induction items generalizing before with
  | nil => exact trivial
  | cons item items ih =>
    rw [List.map_cons, Text.unlines_cons, Pattern.absent_append]
    refine ⟨?_, TestCategory.at?_head_mark rfl _ _, ih _⟩
    rw [shown]
    split
    · exact trivial
    -- A part that is left is neither a nested suite nor of the category.
    · next htaken =>
      have hleft := Bool.eq_false_iff.2 htaken
      exact TestCategory.absent_print (category?_ne_of_takenIn hleft hsuites)
        (category?_ne_of_takenIn hleft hcategory)

/-- No head of a finished category begins in what is left of the body of a suite, once the nested suites are
finished. -/
theorem absent_body {category : TestCategory} {finished : List TestCategory} (hsuites : .describe ∈ finished)
    (hcategory : category ∈ finished) (after : Text) (items : List SuiteItem) :
    category.head.Absent after [] (Stretch.visible (bodyStretches finished items)) := by
  rw [visible_bodyStretches]
  exact ⟨TestCategory.at?_head_mark rfl _ _, absent_unlines hsuites hcategory _ after items⟩

end SuiteItem

namespace TestCategory

/-- The first head of a category is that of a block of it, when none begins before the block. -/
theorem find?_blockText {category : TestCategory} {before : Text} (hline : before.EndsLine)
    (habsent : ∀ after, category.head.Absent after [] before) (remark : Option Remark) (opening inner rest : Text) :
    category.head.find? (before ++ (blockText remark category opening inner ++ rest)) =
      some (writtenHead before.length remark category) := by
  -- The keyword begins a line, with or without a remark above it, and a line break ends a statement.
  have hfront : (before ++ Remark.line remark).EndsLine := by
    refine hline.append ?_
    cases remark with
    | none => simp [Remark.line, Text.EndsLine]
    | some remark => simp [Remark.line, Text.EndsLine]
  have hstart : (before ++ Remark.line remark).reverse.head?.all endsStatement = true := by
    rw [List.head?_reverse]
    cases hlast : (before ++ Remark.line remark).getLast? with
    | none => rfl
    | some c =>
      obtain rfl := hfront c hlast
      rfl
  have hhead := category.at?_head_keyword hstart (opening ++ callback inner ++ [')', ';'] ++ rest)
  have hfind := Pattern.find?_append (Pattern.absent_append.2 ⟨habsent _, absent_remark remark⟩) hhead
  have hshape : before ++ (blockText remark category opening inner ++ rest) =
      (before ++ Remark.line remark) ++
        (category.keyword ++ '(' :: (opening ++ callback inner ++ [')', ';'] ++ rest)) := by
    simp [blockText]
  rw [hshape, hfind, List.length_append]
  rfl

end TestCategory

namespace Suite

open SuiteItem

/-! ### One round -/

/-- With some fuel, the bodies of suites that are not longer than it are read back. -/
def ReadsBack (fuel : Nat) : Prop :=
  ∀ (items : List SuiteItem) (base : Int), (Text.unlines (items.map print)).length < fuel →
    children fuel ('\n' :: Text.unlines (items.map print)) base =
      (byCategory (nodes (base + 1) items), '\n' :: Text.unlines (items.map own), [])

/-- The lines of a written suite: its parts, or one empty line when it has none. -/
theorem exists_lines (items : List SuiteItem) :
    ∃ lines : List SuiteItem,
      '\n' :: Text.join ['\n'] (prints items) ++ ['\n'] = '\n' :: Text.unlines (lines.map print) ∧
      (∀ start, nodes start lines = nodes start items) ∧
      Text.trim ('\n' :: Text.unlines (lines.map own)) = Text.trim (Text.join ['\n'] (items.map own)) := by
  cases items with
  | nil =>
    refine ⟨[code .empty], rfl, fun start => rfl, ?_⟩
    exact Text.trim_between_breaks []
  | cons item items =>
    refine ⟨item :: items, ?_, fun start => rfl, ?_⟩
    · rw [prints_eq_map, List.cons_append, Text.join_append_break (by simp)]
    · rw [← Text.join_append_break (by simp), ← List.cons_append, Text.trim_between_breaks]

/-- A callback neither begins nor ends with white space. -/
theorem trim_callback (inner : Text) : Text.trim (callback inner) = callback inner := by
  have hshape : callback inner = callbackHead ++ '{' :: ('\n' :: inner ++ ['\n']) ++ ['}'] := by
    simp [callback]
  refine Text.trim_eq_self (fun c hc => ?_) fun c hc => ?_
  · obtain rfl : 'f' = c := Option.some.inj hc
    rfl
  · rw [hshape, List.getLast?_concat] at hc
    obtain rfl := Option.some.inj hc
    rfl

/-- The view of a buffer shows a text before which no head of a category begins; the text stands at a place of the
buffer, at the beginning of a line and not below a comment. -/
structure Presents (buffer : SourceBuffer) (category : TestCategory) (before text rest : Text) (place : Nat) :
    Prop where
  /-- The text begins a line. -/
  endsLine : before.EndsLine
  /-- No comment stands above the text. -/
  uncommented : Uncommented before
  /-- No head begins before the text. -/
  absent : ∀ after, category.head.Absent after [] before
  /-- The text stands in the view. -/
  view_eq : buffer.view.text = before ++ (text ++ rest)
  /-- The text stands in the buffer. -/
  toSource_eq : ∀ offset < text.length, buffer.view.toSource (before.length + offset : Nat) = (place + offset : Nat)

variable {buffer : SourceBuffer} {before rest : Text} {place fuel : Nat} {remark : Option Remark}

/-- The place of the keyword of a block. -/
theorem Presents.keyword_eq {category : TestCategory} {opening inner : Text}
    (h : Presents buffer category before (blockText remark category opening inner) rest place) (base : Int) :
    base + buffer.view.toSource (before.length + (Remark.line remark).length : Nat) =
      base + place + (Remark.line remark).length := by
  have hlt : (Remark.line remark).length < (blockText remark category opening inner).length := by
    rw [blockText, List.length_append, List.length_append, List.length_cons]
    omega
  rw [h.toSource_eq _ hlt]
  omega

/-- A round that finds a hook. -/
theorem rounds_hook {body : PlainCode}
    (h : Presents buffer .beforeEach before (hook remark body).print rest place) (base : Int) :
    ∃ node, (hook remark body).node? (base + place) = some node ∧
      rounds (fuel + 1) .beforeEach buffer base =
        let next := rounds fuel .beforeEach (buffer.consumeView buffer.view before.length
          (before.length + (hook remark body).print.length : Nat)) base
        (node :: next.1, next.2) := by
  rw [print] at h ⊢
  have hfind := TestCategory.find?_blockText h.endsLine h.absent remark [] body.text rest
  have hread := Block.read_hook h.endsLine h.uncommented remark body.parens rest
  rw [← h.view_eq] at hfind hread
  have hkeyword := h.keyword_eq base
  refine ⟨_, by rw [node?], ?_⟩
  rw [rounds_leaf (by decide) hfind hread]
  simp only [leaf, writtenBlock, List.nil_append, trim_callback, hkeyword]

/-- A round that finds a test. -/
theorem rounds_test {skipped : Bool} {title : PlainTitle} {body : PlainCode}
    (h : Presents buffer (testCategory skipped) before (test remark skipped title body).print rest place)
    (base : Int) :
    ∃ node, (test remark skipped title body).node? (base + place) = some node ∧
      rounds (fuel + 1) (testCategory skipped) buffer base =
        let next := rounds fuel (testCategory skipped) (buffer.consumeView buffer.view before.length
          (before.length + (test remark skipped title body).print.length : Nat)) base
        (node :: next.1, next.2) := by
  rw [print] at h ⊢
  have hhook : testCategory skipped ≠ .beforeEach := by cases skipped <;> decide
  have hsuite : testCategory skipped ≠ .describe := by cases skipped <;> decide
  have hfind := TestCategory.find?_blockText h.endsLine h.absent remark title.argument body.text rest
  have hread := Block.read_titled h.endsLine h.uncommented remark hhook title body.parens body.braces rest
  rw [← h.view_eq] at hfind hread
  have hkeyword := h.keyword_eq base
  rw [rounds_leaf hsuite hfind hread]
  cases skipped with
  | true =>
    refine ⟨_, by rw [node?], ?_⟩
    simp only [leaf, testCategory, titledBlock, writtenBlock, Text.trim_between_breaks, hkeyword]
    rfl
  | false =>
    refine ⟨_, by rw [node?], ?_⟩
    simp only [leaf, testCategory, titledBlock, writtenBlock, Text.trim_between_breaks, hkeyword]
    rfl

/-- A round that finds a nested suite. -/
theorem rounds_nested {title : PlainTitle} {items : List SuiteItem} (hreads : ReadsBack fuel)
    (hfuel : (suite remark title items).print.length ≤ fuel + 1)
    (h : Presents buffer .describe before (suite remark title items).print rest place) (base : Int) :
    ∃ node, (suite remark title items).node? (base + place) = some node ∧
      rounds (fuel + 1) .describe buffer base =
        let next := rounds fuel .describe (buffer.consumeView buffer.view before.length
          (before.length + (suite remark title items).print.length : Nat)) base
        (node :: next.1, next.2) := by
  rw [print] at h hfuel ⊢
  have hfind := TestCategory.find?_blockText h.endsLine h.absent remark title.argument
    (Text.join ['\n'] (prints items)) rest
  have hhook : TestCategory.describe ≠ .beforeEach := by decide
  have hread := Block.read_titled h.endsLine h.uncommented remark hhook title (balanced_body (by decide) items)
    (balanced_body (by decide) items) rest
  rw [← h.view_eq] at hfind hread
  have hkeyword := h.keyword_eq base
  have hbody : base + buffer.view.toSource (before.length + (Remark.line remark).length + bodyOffset title : Nat) =
      base + place + (Remark.line remark).length + bodyOffset title := by
    rw [Nat.add_assoc, h.toSource_eq _ (by simp [blockText, bodyOffset, callback])]
    omega
  -- The body of the suite is read back with the fuel that is left.
  obtain ⟨lines, hlines, hnodes, hown⟩ := exists_lines items
  have hlength : (Text.unlines (lines.map print)).length < fuel := by
    have hequal := congrArg List.length hlines
    simp [blockText, callback] at hequal hfuel
    omega
  have hchildren := hreads lines (base + place + (Remark.line remark).length + bodyOffset title) hlength
  rw [← hlines, ← hbody, hnodes] at hchildren
  refine ⟨_, by rw [node?], ?_⟩
  rw [rounds_suite hfind hread hchildren]
  simp only [titledBlock, writtenBlock, hkeyword, hown, hbody, List.nil_append]

/-- In the search for a category, the first block of it that is left is presented by the view. -/
theorem presents_item {category : TestCategory} {finished : List TestCategory}
    (hsuites : .describe ∈ category :: finished) {text : Text} {done : List SuiteItem} {later : List Stretch}
    (h : buffer.Shows (bodyStretches (category :: finished) done ++ ⟨text, false⟩ :: later)) :
    Presents buffer category (Stretch.visible (bodyStretches (category :: finished) done)) text
      (Stretch.visible later) (1 + (Text.unlines (done.map print)).length) where
  endsLine := by
    have hended : Text.EndsLine ['\n'] := by simp [Text.EndsLine]
    rw [visible_bodyStretches]
    exact hended.append (Text.endsLine_unlines _)
  uncommented := by
    have hbreak : Uncommented ['\n'] := uncommented_nil.append (by decide)
    rw [visible_bodyStretches]
    exact uncommented_unlines hbreak _ done
  absent after := absent_body hsuites List.mem_cons_self after done
  view_eq := by
    have hresidual := h.residual_eq
    rwa [Stretch.visible_append, Stretch.visible_cons ⟨text, false⟩, if_neg Bool.false_ne_true] at hresidual
  toSource_eq offset hoffset := by
    rw [h.toSource_eq hoffset, source_bodyStretches, List.length_cons, Nat.add_comm 1]

/-- A round in a written suite finds the first block that is left of the category, gives its node and consumes it. -/
theorem rounds_item {category : TestCategory} {finished : List TestCategory}
    (hsuites : .describe ∈ category :: finished) (hreads : ReadsBack fuel) {item : SuiteItem}
    (hitem : item.category? = some category) (hfuel : item.print.length ≤ fuel + 1) {done : List SuiteItem}
    {later : List Stretch}
    (h : buffer.Shows (bodyStretches (category :: finished) done ++ ⟨item.print, false⟩ :: later)) (base : Int) :
    ∃ node next, item.node? (base + (1 + (Text.unlines (done.map print)).length : Nat)) = some node ∧
      next.Shows (bodyStretches (category :: finished) done ++ ⟨item.print, true⟩ :: later) ∧
      rounds (fuel + 1) category buffer base =
        (node :: (rounds fuel category next base).1, (rounds fuel category next base).2) := by
  have hpresents := presents_item hsuites h
  cases item with
  | code plain => simp [category?] at hitem
  | hook remark body =>
    obtain rfl := Option.some.inj hitem
    obtain ⟨node, hnode, hround⟩ := rounds_hook hpresents base
    exact ⟨node, _, hnode, h.consumeView (by simp [print, blockText]), hround⟩
  | test remark skipped title body =>
    obtain rfl := Option.some.inj hitem
    obtain ⟨node, hnode, hround⟩ := rounds_test hpresents base
    exact ⟨node, _, hnode, h.consumeView (by simp [print, blockText]), hround⟩
  | suite remark title items =>
    obtain rfl := Option.some.inj hitem
    obtain ⟨node, hnode, hround⟩ := rounds_nested hreads hfuel hpresents base
    exact ⟨node, _, hnode, h.consumeView (by simp [print, blockText]), hround⟩

/-! ### All rounds -/

/-- Searching a written suite for one category gives the nodes of its blocks, in the order they are written, and
consumes them. -/
theorem rounds_spec {category : TestCategory} {finished : List TestCategory}
    (hsuites : .describe ∈ category :: finished) (hfresh : category ∉ finished)
    (hreads : ∀ less < fuel, ReadsBack less) {done todo : List SuiteItem}
    (hfuel : (Text.unlines (todo.map print)).length ≤ fuel)
    (h : buffer.Shows (bodyStretches (category :: finished) done ++ stretches finished todo)) (base : Int) :
    ∃ next, next.Shows (bodyStretches (category :: finished) (done ++ todo)) ∧
      rounds fuel category buffer base =
        ((nodes (base + (1 + (Text.unlines (done.map print)).length : Nat)) todo).filter
          (fun node => node.category? = some category), next, []) := by
  -- The induction is on the parts that are still to be searched; those before are done, and their blocks of the
  -- category are consumed. Each block that is found takes one unit of fuel, and each part holds at least its line break.
  induction todo generalizing fuel done buffer with
  | nil =>
    rw [stretches, List.flatMap_nil, List.append_nil] at h
    have hview : buffer.view.text = Stretch.visible (bodyStretches (category :: finished) done) := h.residual_eq
    have hnone : category.head.find? buffer.view.text = none := by
      rw [hview]
      exact Pattern.find?_eq_none (absent_body hsuites List.mem_cons_self [] done) (category.at?_head_nil _)
    rw [List.append_nil]
    exact ⟨buffer, h, rounds_of_find?_eq_none hnone base⟩
  | cons item todo ih =>
    rw [stretches_cons] at h
    rw [List.map_cons, Text.unlines_cons, List.length_append, List.length_cons] at hfuel
    -- Where the next part begins.
    have hstart : base + (1 + (Text.unlines (done.map print)).length : Nat) + item.print.length + 1 =
        base + (1 + (Text.unlines ((done ++ [item]).map print)).length : Nat) := by
      rw [List.map_append, Text.unlines_append, List.length_append, List.map_singleton, Text.unlines_cons,
        List.length_append, List.length_cons]
      simp only [Text.unlines, List.flatMap_nil, List.length_nil]
      omega
    rw [nodes, List.filter_append, hstart, List.append_cons]
    by_cases hitem : item.category? = some category
    -- The part is a block of the category: a round finds it, and the search goes on with the fuel that is left.
    · obtain ⟨less, rfl⟩ : ∃ less, fuel = less + 1 := ⟨fuel - 1, by omega⟩
      rw [takenIn_of_category? hitem, decide_eq_false hfresh] at h
      obtain ⟨node, next, hnode, hnext, hround⟩ :=
        rounds_item hsuites (hreads less (Nat.lt_succ_self _)) hitem (by omega) h base
      have htaken : item.takenIn (category :: finished) = true := by
        rw [takenIn_of_category? hitem]
        simp
      rw [← htaken, ← bodyStretches_concat] at hnext
      obtain ⟨final, hfinal, hrest⟩ := ih (fun fewer hlt => hreads fewer (Nat.lt_succ_of_lt hlt)) (by omega) hnext
      refine ⟨final, hfinal, ?_⟩
      rw [hround, hrest, hnode]
      simp [category?_of_node? hnode, hitem]
    -- The part is left as it is and counts as done.
    · rw [← takenIn_cons hitem, ← bodyStretches_concat] at h
      obtain ⟨final, hfinal, hrest⟩ := ih hreads (by omega) h
      refine ⟨final, hfinal, ?_⟩
      have hnone : ((item.node? (base + (1 + (Text.unlines (done.map print)).length : Nat))).toList.filter
          fun node => node.category? = some category) = [] := by
        refine List.filter_eq_nil_iff.2 fun node hnode => ?_
        rw [category?_of_node? (Option.mem_toList.1 hnode)]
        simp [hitem]
      rw [hrest, hnone, List.nil_append]

/-- Searching the whole body of a written suite for one category. -/
theorem rounds_body (category : TestCategory) {finished : List TestCategory}
    (hsuites : .describe ∈ category :: finished) (hfresh : category ∉ finished)
    (hreads : ∀ less < fuel, ReadsBack less) {items : List SuiteItem}
    (hfuel : (Text.unlines (items.map print)).length ≤ fuel)
    (h : buffer.Shows (bodyStretches finished items)) (base : Int) :
    ∃ next, next.Shows (bodyStretches (category :: finished) items) ∧
      rounds fuel category buffer base =
        ((nodes (base + 1) items).filter (fun node => node.category? = some category), next, []) := by
  have hshows : buffer.Shows (bodyStretches (category :: finished) [] ++ stretches finished items) := h
  obtain ⟨next, hnext, hrounds⟩ := rounds_spec hsuites hfresh hreads hfuel hshows base
  exact ⟨next, hnext, hrounds⟩

/-- The body of a written suite is read back, with any fuel that is greater than its length. -/
theorem readsBack (fuel : Nat) : ReadsBack fuel := by
  induction fuel using Nat.strongRecOn with
  | ind fuel ih =>
    intro items base hfuel
    obtain ⟨less, rfl⟩ : ∃ less, fuel = less + 1 := ⟨fuel - 1, by omega⟩
    have hreads : ∀ fewer < less, ReadsBack fewer := fun fewer hlt => ih fewer (Nat.lt_succ_of_lt hlt)
    have hless : (Text.unlines (items.map print)).length ≤ less := Nat.le_of_lt_succ hfuel
    have huntouched :
        (SourceBuffer.ofText ('\n' :: Text.unlines (items.map print))).Shows (bodyStretches [] items) := by
      rw [← source_bodyStretches []]
      refine SourceBuffer.Shows.ofText fun stretch hstretch => ?_
      rcases List.mem_cons.1 hstretch with rfl | hin
      · rfl
      · obtain ⟨item, -, hitem⟩ := List.mem_flatMap.1 hin
        simp only [takenIn, List.any_nil, List.mem_cons, List.not_mem_nil, or_false] at hitem
        rcases hitem with rfl | rfl <;> rfl
    -- The four categories, one after the other.
    obtain ⟨_, hsuites, hsuiteRounds⟩ := rounds_body .describe (by decide) (by decide) hreads hless huntouched base
    obtain ⟨_, hhooks, hhookRounds⟩ := rounds_body .beforeEach (by decide) (by decide) hreads hless hsuites base
    obtain ⟨_, hskipped, hskippedRounds⟩ := rounds_body .xit (by decide) (by decide) hreads hless hhooks base
    obtain ⟨final, htests, htestRounds⟩ := rounds_body .it (by decide) (by decide) hreads hless hskipped base
    have hresidual : final.residual = '\n' :: Text.unlines (items.map own) := by
      have hall : ∀ category : TestCategory,
          category ∈ [TestCategory.it, .xit, .beforeEach, .describe] := by
        intro category
        cases category <;> decide
      rw [htests.residual_eq, visible_bodyStretches, List.map_congr_left fun item _ => shown_eq_own hall item]
    rw [children]
    simp only [hsuiteRounds, hhookRounds, hskippedRounds, htestRounds, hresidual, byCategory, TestCategory.all,
      List.flatMap_cons, List.flatMap_nil, List.append_nil, List.append_assoc]

/-! ### Whole suites -/

/-- A written suite is read back: every title, comment and body, with nothing to tell. -/
theorem analyze_print (remark : Option Remark) (title : PlainTitle) (items : List SuiteItem) :
    (analyze (suite remark title items).print).runFrom [] = (.ok ((suite remark title items).node? 0), []) := by
  have hstart : Text.EndsLine [] := by simp [Text.EndsLine]
  have hhook : TestCategory.describe ≠ .beforeEach := by decide
  have habsent : ∀ after, TestCategory.describe.head.Absent after [] [] := fun _ => trivial
  have hfind := TestCategory.find?_blockText hstart habsent remark title.argument
    (Text.join ['\n'] (prints items)) []
  have hread := Block.read_titled hstart uncommented_nil remark hhook title (balanced_body (by decide) items)
    (balanced_body (by decide) items) []
  rw [List.nil_append, List.append_nil] at hfind hread
  -- The body is that of a written suite, and there is more fuel than it is long.
  obtain ⟨lines, hlines, hnodes, hown⟩ := exists_lines items
  let block := titledBlock 0 remark .describe title (Text.join ['\n'] (prints items))
  have hblock : Block.read .describe _ _ = .ok block := hread
  have hbody : block.body = '\n' :: Text.unlines (lines.map print) := hlines
  have hchildren : children (block.body.length + 2) block.body block.bodyStart =
      (byCategory (nodes (block.bodyStart + 1) items), '\n' :: Text.unlines (lines.map own), []) := by
    have hlength : (Text.unlines (lines.map print)).length < block.body.length + 2 := by
      rw [hbody, List.length_cons]
      omega
    have hreads := readsBack _ lines block.bodyStart hlength
    rwa [← hbody, hnodes] at hreads
  have hkeyword : (block.keywordStart : Int) = 0 + (Remark.line remark).length := by
    simp [block, titledBlock, writtenBlock]
  have hstartBody : (block.bodyStart : Int) = 0 + (Remark.line remark).length + bodyOffset title := by
    simp [block, titledBlock, bodyOffset]
  rw [print, runFrom_analyze hfind hblock hchildren, node?, hown, hkeyword, hstartBody]
  rfl

/-- A written suite of any depth is read back: every title and comment, the trimmed body of every test, the whole
callback of every hook, and for every suite its own code and the nodes of its blocks, arranged by category. Every node
stands at its place in the text, and sorted by their places the nodes of a suite are in the order they are written. -/
theorem written_suite_read_back (remark : Option Remark) (title : PlainTitle) (items : List SuiteItem) :
    (analyze (suite remark title items).print).runFrom [] = (.ok ((suite remark title items).node? 0), []) ∧
      (∀ root ∈ (suite remark title items).node? 0, ∀ node : TestNode, node.Within root →
        node.StandsIn (suite remark title items).print ∧ node.children = byCategory node.inSourceOrder ∧
          node.children.Perm node.inSourceOrder) ∧
      ∀ (start : Int) (remark : Option Remark) (title : PlainTitle) (items : List SuiteItem),
        ((suite remark title items).node? start).map TestNode.inSourceOrder =
          some (nodes (start + (Remark.line remark).length + bodyOffset title + 1) items) := by
  refine ⟨analyze_print remark title items, fun root hroot node hnode => ?_, fun start remark title items => ?_⟩
  · have hprint : (suite remark title items).print <+: (suite remark title items).print.drop 0 := List.prefix_refl _
    obtain ⟨hstands, hchildren⟩ := standsIn_of_within hprint hroot hnode
    exact ⟨hstands, hchildren, (List.mergeSort_perm ..).symm⟩
  · obtain ⟨node, hnode⟩ : ∃ node, (suite remark title items).node? start = some node := ⟨_, by rw [node?]⟩
    rw [hnode, Option.map_some, inSourceOrder_node hnode]

/-- The title of the suite below. -/
def sampleTitle : PlainTitle where
  text := txt "s"
  parens := .of_notMem (by decide) (by decide)
  plain := List.forall_mem_singleton.2 (by decide)

/-- The body of the hook below. -/
def sampleCode : PlainCode where
  text := txt "x = 1;"
  parens := .of_notMem (by decide) (by decide)
  braces := .of_notMem (by decide) (by decide)
  slash_notMem := by decide
  not_hasWord category := by
    rintro ⟨before, after, heq, -⟩
    have hletters : category.keyword.all (· ∈ txt "x = 1;") = true := by
      refine List.all_iff_forall_prop.2 fun c hc => ?_
      rw [heq]
      simp [hc]
    revert hletters
    cases category <;> decide

/-- The body of a hook is its whole callback, and not the trimmed text on the lines of the callback. -/
theorem hook_body_is_callback :
    (suite none sampleTitle [hook none sampleCode]).print =
        txt "describe('s', function () \x7b\nbeforeEach(function () \x7b\nx = 1;\n\x7d);\n\x7d);" ∧
      (analyze (suite none sampleTitle [hook none sampleCode]).print).outcome =
        .ok (some (.describe (txt "s") [] [] 0
          [.beforeEach (txt "function () \x7b\nx = 1;\n\x7d") [] 28])) ∧
      (analyze (suite none sampleTitle [hook none sampleCode]).print).outcome ≠
        .ok (some (.describe (txt "s") [] [] 0 [.beforeEach (Text.trim sampleCode.text) [] 28])) := by
  have hnode : (suite none sampleTitle [hook none sampleCode]).node? 0 =
      some (.describe (txt "s") [] [] 0 [.beforeEach (txt "function () \x7b\nx = 1;\n\x7d") [] 28]) := by
    rfl
  have hread : (analyze (suite none sampleTitle [hook none sampleCode]).print).outcome =
      .ok (some (.describe (txt "s") [] [] 0
        [.beforeEach (txt "function () \x7b\nx = 1;\n\x7d") [] 28])) := by
    rw [← hnode]
    exact congrArg Prod.fst (analyze_print none sampleTitle [hook none sampleCode])
  refine ⟨by rfl, hread, ?_⟩
  rw [hread]
  simp only [ne_eq, Except.ok.injEq, Option.some.injEq, TestNode.describe.injEq, List.cons.injEq,
    TestNode.beforeEach.injEq, and_true, true_and]
  decide

end Suite

end AngularUplift
