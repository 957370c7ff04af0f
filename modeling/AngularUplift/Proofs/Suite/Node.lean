import AngularUplift.Proofs.Sorting
import AngularUplift.Proofs.Suite.Source
import Mathlib.Data.List.Nodup

/-!
# The tree of a written suite

A written suite stands for a tree of nodes. Every node has the title, the comment and the trimmed body of its block,
and the place of its keyword in the text; a hook has its whole callback as its body. The children of a suite are
arranged by category.

## Main definitions

* `SuiteItem.node?`: the node that a written block stands for, with its place in the text.
* `TestNode.Within`, `TestNode.StandsIn`: a node of a tree, and a node whose keyword stands at its place.

## Main statements

* `TestNode.filter_inSourceOrder`: sorting by places keeps the order of nodes at one place.
* `SuiteItem.inSourceOrder_node`: the nodes of a suite, sorted by their places, are in the order they are written.
* `SuiteItem.standsIn_of_within`: every node of the tree of a written suite stands at its place.
-/

namespace AngularUplift

/-! ### Sorting by places -/

namespace TestNode

/-- Sorting the children of a suite adds none and drops none. -/
theorem inSourceOrder_perm (node : TestNode) : node.inSourceOrder.Perm node.children := List.mergeSort_perm ..

/-- Sorted children stand one behind the other in the file. -/
theorem pairwise_inSourceOrder (node : TestNode) :
    node.inSourceOrder.Pairwise fun first second => first.offset ≤ second.offset :=
  (List.pairwise_mergeSort (key_le_trans offset) (key_le_total offset) node.children).imp of_decide_eq_true

/-- Sorting the children of a suite keeps the order of those at one place. -/
theorem filter_inSourceOrder (node : TestNode) (place : Int) :
    (node.inSourceOrder.filter fun child => child.offset = place) =
      node.children.filter fun child => child.offset = place := by
  refine filter_mergeSort (key_le_trans offset) (key_le_total offset) (fun first second hfirst hsecond => ?_) _
  exact decide_eq_true (Int.le_of_eq ((of_decide_eq_true hfirst).trans (of_decide_eq_true hsecond).symm))

end TestNode

namespace SuiteItem

/-- Nodes in the order of the categories, and within a category in their order. -/
def byCategory (nodes : List TestNode) : List TestNode :=
  TestCategory.all.flatMap fun category => nodes.filter fun node => node.category? = some category

/-- How far the body of a suite begins after the suite's keyword. -/
def bodyOffset (title : PlainTitle) : Nat :=
  (TestCategory.describe.keyword ++ '(' :: (title.argument ++ callbackHead ++ ['{'])).length

mutual

/-- The node of a part of a suite that begins at a position. -/
def node? (start : Int) : SuiteItem → Option TestNode
  | code _ => none
  | hook remark body =>
    some (.beforeEach (callback body.text) (Remark.comment remark) (start + (Remark.line remark).length))
  | test remark true title body =>
    some (.xit title.text (Text.trim body.text) (Remark.comment remark) (start + (Remark.line remark).length))
  | test remark false title body =>
    some (.it title.text (Text.trim body.text) (Remark.comment remark) (start + (Remark.line remark).length))
  | suite remark title items =>
    let keyword := start + (Remark.line remark).length
    some (.describe title.text (Text.trim (Text.join ['\n'] (items.map own))) (Remark.comment remark) keyword
      (byCategory (nodes (keyword + bodyOffset title + 1) items)))

/-- The nodes of the parts of a suite in the order they are written, the first part beginning at a position. -/
def nodes (start : Int) : List SuiteItem → List TestNode
  | [] => []
  | item :: items => (item.node? start).toList ++ nodes (start + item.print.length + 1) items

end

/-! ### The order of nodes -/

/-- The keyword of a block stands after its remark. -/
theorem offset_of_node? {start : Int} {item : SuiteItem} {node : TestNode} (h : item.node? start = some node) :
    start ≤ node.offset ∧ node.offset ≤ start + item.print.length := by
  match item with
  | code _ => simp [node?] at h
  | hook remark body
  | test remark true title body
  | test remark false title body
  | suite remark title items =>
    rw [node?] at h
    obtain rfl := Option.some.inj h
    simp only [TestNode.offset, print, blockText, List.length_append]
    omega

/-- The nodes of the parts of a suite stand where the parts begin or later, in their order. -/
theorem pairwise_nodes (start : Int) (items : List SuiteItem) :
    (∀ node ∈ nodes start items, start ≤ node.offset) ∧
      (nodes start items).Pairwise fun first second => first.offset < second.offset := by
  induction items generalizing start with
  | nil => exact ⟨by simp [nodes], by simp [nodes]⟩
  | cons item items ih =>
    obtain ⟨hleast, hsorted⟩ := ih (start + item.print.length + 1)
    rw [nodes]
    refine ⟨fun node hnode => ?_, List.pairwise_append.2 ⟨?_, hsorted, fun first hfirst second hsecond => ?_⟩⟩
    · rcases List.mem_append.1 hnode with hin | hin
      · exact (offset_of_node? (Option.mem_toList.1 hin)).1
      · have hge := hleast node hin
        omega
    · cases item.node? start <;> simp
    -- A keyword stands before the end of its part, and every later part begins after that.
    · have hle := (offset_of_node? (Option.mem_toList.1 hfirst)).2
      have hge := hleast second hsecond
      omega

/-- The node of a block has the block's category. -/
theorem category?_of_node? {start : Int} {item : SuiteItem} {node : TestNode}
    (h : item.node? start = some node) : node.category? = item.category? := by
  match item with
  | code _ => simp [node?] at h
  | hook remark body
  | test remark true title body
  | test remark false title body
  | suite remark title items =>
    rw [node?] at h
    obtain rfl := Option.some.inj h
    rfl

/-- Every node of the parts of a suite has a category. -/
theorem category?_ne_none {start : Int} {items : List SuiteItem} {node : TestNode}
    (h : node ∈ nodes start items) : node.category? ≠ none := by
  induction items generalizing start with
  | nil => simp [nodes] at h
  | cons item items ih =>
    rw [nodes, List.mem_append] at h
    rcases h with hin | hin
    · have hnode := Option.mem_toList.1 hin
      rw [category?_of_node? hnode]
      cases item with
      | code _ => simp [node?] at hnode
      | hook | test | suite => simp [category?]
    · exact ih hin

/-- Arranging nodes by category adds none. -/
theorem mem_of_mem_byCategory {list : List TestNode} {node : TestNode} (h : node ∈ byCategory list) :
    node ∈ list := by
  obtain ⟨category, -, hnode⟩ := List.mem_flatMap.1 h
  exact (List.mem_filter.1 hnode).1

/-- Nodes that each have a category are only arranged anew by the order of the categories. -/
theorem byCategory_perm {list : List TestNode} (h : ∀ node ∈ list, node.category? ≠ none) :
    (byCategory list).Perm list := by
  induction list with
  | nil => exact .refl _
  | cons node list ih =>
    obtain ⟨hnode, hrest⟩ := List.forall_mem_cons.1 h
    obtain ⟨category, hcategory⟩ := Option.ne_none_iff_exists'.1 hnode
    have hperm : (byCategory (node :: list)).Perm (node :: byCategory list) := by
      simp only [byCategory, TestCategory.all, List.flatMap_cons, List.flatMap_nil, List.append_nil,
        List.filter_cons, hcategory]
      -- The node joins the nodes of its category, before those of the later categories.
      cases category with
      | describe => exact .refl _
      | beforeEach => exact List.perm_middle
      | xit => exact (List.perm_middle.append_left _).trans List.perm_middle
      | it =>
        exact (((List.perm_middle.append_left _).trans List.perm_middle).append_left _).trans List.perm_middle
    exact hperm.trans ((ih hrest).cons node)

/-- The nodes of a suite, sorted by their places, are in the order they are written. -/
theorem inSourceOrder_node {start : Int} {remark : Option Remark} {title : PlainTitle} {items : List SuiteItem}
    {node : TestNode} (h : (suite remark title items).node? start = some node) :
    node.inSourceOrder = nodes (start + (Remark.line remark).length + bodyOffset title + 1) items := by
  rw [node?] at h
  obtain rfl := Option.some.inj h
  -- The position at which the body begins.
  generalize hfirst : start + (Remark.line remark).length + bodyOffset title + 1 = first
  have hsorted := (pairwise_nodes first items).2
  have hperm := (TestNode.inSourceOrder_perm (.describe title.text (Text.trim (Text.join ['\n'] (items.map own)))
    (Remark.comment remark) (start + (Remark.line remark).length) (byCategory (nodes first items)))).trans
      (byCategory_perm fun node hnode => category?_ne_none hnode)
  -- No two nodes stand at one place, so there is only one way to sort them.
  have hplaces : ((nodes first items).map TestNode.offset).Nodup :=
    List.pairwise_map.2 (hsorted.imp Int.ne_of_lt)
  refine hperm.eq_of_pairwise (fun a b ha hb hab hba => ?_) (TestNode.pairwise_inSourceOrder _)
    (hsorted.imp Int.le_of_lt)
  exact List.inj_on_of_nodup_map hplaces (hperm.subset ha) hb (Int.le_antisymm hab hba)

/-- The children of a suite are its nodes in the order they are written, arranged by category. -/
theorem children_eq_byCategory {start : Int} {item : SuiteItem} {node : TestNode}
    (h : item.node? start = some node) : node.children = byCategory node.inSourceOrder := by
  match item with
  | code _ => simp [node?] at h
  | hook remark body
  | test remark true title body
  | test remark false title body =>
    rw [node?] at h
    obtain rfl := Option.some.inj h
    simp [TestNode.inSourceOrder, TestNode.children, byCategory]
  | suite remark title items =>
    rw [inSourceOrder_node h]
    rw [node?] at h
    obtain rfl := Option.some.inj h
    rfl

end SuiteItem

/-! ### The places of nodes -/

namespace TestNode

/-- A node of the tree of another node. -/
inductive Within (node : TestNode) : TestNode → Prop
  /-- The root of the tree. -/
  | root : Within node node
  /-- A node of the tree of a child. -/
  | child {parent child : TestNode} (hchild : child ∈ parent.children) (h : Within node child) : Within node parent

/-- The keyword of a node stands in a text where the node says. -/
def StandsIn (text : Text) (node : TestNode) : Prop :=
  ∃ (category : TestCategory) (place : Nat), node.category? = some category ∧ node.offset = place ∧
    category.keyword ++ ['('] <+: text.drop place

end TestNode

namespace SuiteItem

/-- What follows a piece where the piece stands in a text. -/
theorem leads_of_append {text front back : Text} {start : Nat} (h : front ++ back <+: text.drop start) :
    back <+: text.drop (start + front.length) := by
  obtain ⟨tail, htail⟩ := h
  rw [← List.drop_drop, ← htail, List.append_assoc, List.drop_left]
  exact List.prefix_append ..

/-- The node of a block that stands in a text stands there at its place. -/
theorem standsIn_of_node? {text : Text} {start : Nat} {item : SuiteItem} {node : TestNode}
    (hprint : item.print <+: text.drop start) (h : item.node? start = some node) : node.StandsIn text := by
  have hblock : ∀ (remark : Option Remark) (category : TestCategory) (opening inner : Text),
      blockText remark category opening inner <+: text.drop start →
        category.keyword ++ ['('] <+: text.drop (start + (Remark.line remark).length) := by
    intro remark category opening inner hleads
    have hkeyword := leads_of_append hleads
    rw [← List.singleton_append, ← List.append_assoc] at hkeyword
    exact (List.prefix_append ..).trans hkeyword
  match item with
  | code _ => simp [node?] at h
  | hook remark body
  | test remark true title body
  | test remark false title body
  | suite remark title items =>
    rw [print] at hprint
    rw [node?] at h
    obtain rfl := Option.some.inj h
    exact ⟨_, _, rfl, rfl, hblock _ _ _ _ hprint⟩

/-- The lines of a suite stand where its body begins. -/
theorem leads_of_suite {text : Text} {start : Nat} {remark : Option Remark} {title : PlainTitle}
    {items : List SuiteItem} (h : (suite remark title items).print <+: text.drop start) :
    Text.join ['\n'] (prints items) <+:
      text.drop (start + ((Remark.line remark).length + bodyOffset title + 1)) := by
  -- What is written before the lines, up to the line break after the brace.
  let front : Text := Remark.line remark ++
    (TestCategory.describe.keyword ++ '(' :: (title.argument ++ callbackHead ++ ['{'])) ++ ['\n']
  have hshape : (suite remark title items).print =
      front ++ (Text.join ['\n'] (prints items) ++ ['\n', '}', ')', ';']) := by
    simp [print, blockText, callback, front]
  have hlength : front.length = (Remark.line remark).length + bodyOffset title + 1 := by
    simp only [front, bodyOffset, List.length_append, List.length_singleton]
  rw [hshape] at h
  rw [← hlength]
  exact (List.prefix_append ..).trans (leads_of_append h)

mutual

/-- Every node of the tree of a part of a suite is the node of a part that stands in the text. -/
theorem exists_item_of_within {text : Text} {node : TestNode} : (item : SuiteItem) → (start : Nat) →
    item.print <+: text.drop start → (root : TestNode) → item.node? start = some root → node.Within root →
      ∃ (part : SuiteItem) (place : Nat), part.print <+: text.drop place ∧ part.node? place = some node
  | code _, start, _, root, h, _ => by simp [node?] at h
  | hook remark body, start, hprint, root, h, hnode => by
    cases hnode with
    | root => exact ⟨hook remark body, start, hprint, h⟩
    | child hchild _ =>
      rw [node?] at h
      obtain rfl := Option.some.inj h
      exact absurd hchild List.not_mem_nil
  | test remark skipped title body, start, hprint, root, h, hnode => by
    cases hnode with
    | root => exact ⟨test remark skipped title body, start, hprint, h⟩
    | child hchild _ =>
      cases skipped with
      | true | false =>
        rw [node?] at h
        obtain rfl := Option.some.inj h
        exact absurd hchild List.not_mem_nil
  | suite remark title items, start, hprint, root, h, hnode => by
    cases hnode with
    | root => exact ⟨suite remark title items, start, hprint, h⟩
    | child hchild hwithin =>
      rw [node?] at h
      obtain rfl := Option.some.inj h
      have hplace : (start : Int) + (Remark.line remark).length + bodyOffset title + 1 =
          (start + ((Remark.line remark).length + bodyOffset title + 1) : Nat) := by omega
      have hmem := mem_of_mem_byCategory hchild
      rw [hplace] at hmem
      exact exists_item_of_within_nodes items _ (leads_of_suite hprint) _ hmem hwithin

/-- Every node of the trees of the parts of a suite is the node of a part that stands in the text. -/
theorem exists_item_of_within_nodes {text : Text} {node : TestNode} : (items : List SuiteItem) → (start : Nat) →
    Text.join ['\n'] (prints items) <+: text.drop start → (root : TestNode) → root ∈ nodes start items →
      node.Within root →
      ∃ (part : SuiteItem) (place : Nat), part.print <+: text.drop place ∧ part.node? place = some node
  | [], _, _, _, hroot, _ => by simp [nodes] at hroot
  | item :: items, start, hprint, root, hroot, hnode => by
    rw [nodes, List.mem_append] at hroot
    rcases hroot with hfirst | hrest
    · have hleads : item.print <+: Text.join ['\n'] (prints (item :: items)) := by
        cases items with
        | nil => exact List.prefix_refl _
        | cons next items =>
          rw [prints, prints, Text.join, List.append_assoc]
          exact List.prefix_append ..
      exact exists_item_of_within item start (hleads.trans hprint) root (Option.mem_toList.1 hfirst) hnode
    -- The other parts begin after this one and a line break.
    · have hplace : (start : Int) + item.print.length + 1 = (start + (item.print ++ ['\n']).length : Nat) := by
        rw [List.length_append, List.length_singleton]
        omega
      rw [hplace] at hrest
      cases items with
      | nil => simp [nodes] at hrest
      | cons next items =>
        rw [prints, prints, Text.join, ← prints] at hprint
        exact exists_item_of_within_nodes (next :: items) _ (leads_of_append hprint) root hrest hnode

end

/-- Every node of the tree of a part of a suite stands at its place in the text, and its children are its nodes in the
order they are written, arranged by category. -/
theorem standsIn_of_within {text : Text} {start : Nat} {item : SuiteItem} {root node : TestNode}
    (hprint : item.print <+: text.drop start) (h : item.node? start = some root) (hnode : node.Within root) :
    node.StandsIn text ∧ node.children = byCategory node.inSourceOrder := by
  obtain ⟨part, place, hpart, hplace⟩ := exists_item_of_within item start hprint root h hnode
  exact ⟨standsIn_of_node? hpart hplace, children_eq_byCategory hplace⟩

end SuiteItem

end AngularUplift
