import AngularUplift.Proofs.Suite.Node
import AngularUplift.Proofs.Suite.Rounds

/-!
# The order of the nodes of a suite

A suite is searched for its blocks category by category, so that its nodes come in the order of the categories and not
in the order of the file. This holds at every depth of the tree, however the blocks are mixed in the file and whether
they are balanced or not. Every node remembers its place, so that the order of the file can be had back by sorting.

## Main definitions

* `TestNode.InCategoryOrder`: all suites, then all hooks, then all skipped tests, then all tests.

## Main statements

* `Suite.forall_mem_search`: what holds of every node that a search makes.
* `Suite.children_in_category_order`: the order of the nodes of every suite in the tree of a text.
-/

namespace AngularUplift

namespace TestNode

/-- All suites, then all hooks, then all skipped tests, then all tests. -/
def InCategoryOrder (nodes : List TestNode) : Prop :=
  ∃ suites hooks skipped tests, nodes = suites ++ hooks ++ skipped ++ tests ∧
    (∀ node ∈ suites, node.category? = some .describe) ∧ (∀ node ∈ hooks, node.category? = some .beforeEach) ∧
    (∀ node ∈ skipped, node.category? = some .xit) ∧ ∀ node ∈ tests, node.category? = some .it

theorem inCategoryOrder_nil : InCategoryOrder [] :=
  ⟨[], [], [], [], rfl, List.forall_mem_nil _, List.forall_mem_nil _, List.forall_mem_nil _, List.forall_mem_nil _⟩

end TestNode

/-! ### The search -/

namespace Suite

open TestNode

/-- A node that is no suite has the category of its block. -/
theorem category?_leaf {category : TestCategory} (h : category ≠ .describe) (block : Block) (offset : Int) :
    (leaf category block offset).category? = some category := by
  cases category with
  | describe => exact absurd rfl h
  | beforeEach | xit | it => rfl

theorem children_leaf (category : TestCategory) (block : Block) (offset : Int) :
    (leaf category block offset).children = [] := by
  cases category <;> rfl

/-- The nodes that a search makes are of the category that is searched for, and those of a body are in the order of
the categories. Something holds of all of them when it holds of every node that is no suite and of every suite whose
nodes are in this order and have it. -/
theorem forall_mem_search {P : TestNode → Prop}
    (hleaf : ∀ category block offset, category ≠ .describe → P (leaf category block offset))
    (hsuite : ∀ title body comment offset nodes, InCategoryOrder nodes → (∀ node ∈ nodes, P node) →
      P (.describe title body comment offset nodes)) (fuel : Nat) :
    (∀ category buffer base, ∀ node ∈ (rounds fuel category buffer base).1,
      node.category? = some category ∧ P node) ∧
    ∀ body base, InCategoryOrder (children fuel body base).1 ∧ ∀ node ∈ (children fuel body base).1, P node := by
  -- Both searches call each other with less fuel, so that they are dealt with together.
  induction fuel with
  | zero => exact ⟨fun _ _ _ => List.forall_mem_nil _, fun _ _ => ⟨inCategoryOrder_nil, List.forall_mem_nil _⟩⟩
  | succ fuel ih =>
    obtain ⟨hrounds, hchildren⟩ := ih
    constructor
    · intro category buffer base
      rw [rounds]
      dsimp only
      split
      · exact List.forall_mem_nil _
      · split
        · exact hrounds _ _ _
        · refine List.forall_mem_cons.2 ⟨?_, hrounds _ _ _⟩
          split
          · obtain ⟨horder, hnodes⟩ := hchildren _ _
            exact ⟨rfl, hsuite _ _ _ _ _ horder hnodes⟩
          · next hcategory => exact ⟨category?_leaf hcategory _ _, hleaf _ _ _ hcategory⟩
    · intro body base
      rw [children]
      dsimp only
      constructor
      · exact ⟨_, _, _, _, rfl, fun node hnode => (hrounds _ _ _ node hnode).1,
          fun node hnode => (hrounds _ _ _ node hnode).1, fun node hnode => (hrounds _ _ _ node hnode).1,
          fun node hnode => (hrounds _ _ _ node hnode).1⟩
      · refine List.forall_mem_append.2 ⟨List.forall_mem_append.2 ⟨List.forall_mem_append.2 ⟨?_, ?_⟩, ?_⟩, ?_⟩
        all_goals exact fun node hnode => (hrounds _ _ _ node hnode).2

/-- The suite of a text has whatever a search gives to all suites. -/
theorem of_analyze {P : TestNode → Prop}
    (hleaf : ∀ category block offset, category ≠ .describe → P (leaf category block offset))
    (hsuite : ∀ title body comment offset nodes, InCategoryOrder nodes → (∀ node ∈ nodes, P node) →
      P (.describe title body comment offset nodes)) {text : Text} {root : TestNode}
    (h : (analyze text).outcome = .ok (some root)) : P root := by
  obtain ⟨found, block, -, -, rfl⟩ := exists_of_analyze h
  obtain ⟨horder, hnodes⟩ := (forall_mem_search hleaf hsuite _).2 block.body block.bodyStart
  exact hsuite _ _ _ _ _ horder hnodes

/-- The nodes of every suite in the tree of a text, at every depth, are in the order of the categories: all suites, then
all hooks, then all skipped tests, then all tests. In the order of the file they are the same nodes, sorted by their
places, with the order of those at one place kept. -/
theorem children_in_category_order {text : Text} {root : TestNode} (h : (analyze text).outcome = .ok (some root)) :
    ∀ node : TestNode, node.Within root →
      InCategoryOrder node.children ∧ node.inSourceOrder.Perm node.children ∧
        (node.inSourceOrder.Pairwise fun first second => first.offset ≤ second.offset) ∧
        ∀ place, (node.inSourceOrder.filter fun child => child.offset = place) =
          node.children.filter fun child => child.offset = place := by
  have horder : ∀ node : TestNode, node.Within root → InCategoryOrder node.children := by
    refine of_analyze (P := fun root => ∀ node : TestNode, node.Within root → InCategoryOrder node.children) ?_ ?_ h
    · intro category block offset hcategory node hnode
      cases hnode with
      | root =>
        rw [children_leaf]
        exact inCategoryOrder_nil
      | child hchild _ =>
        rw [children_leaf] at hchild
        exact absurd hchild List.not_mem_nil
    · intro title body comment offset nodes hnodes ih node hnode
      cases hnode with
      | root => exact hnodes
      | child hchild hwithin => exact ih _ hchild node hwithin
  exact fun node hnode => ⟨horder node hnode, node.inSourceOrder_perm, node.pairwise_inSourceOrder,
    node.filter_inSourceOrder⟩

/-- A suite whose blocks are mixed, with a nested suite, and with a test that is not balanced. -/
def mixedSuite : Text :=
  txt "describe('s', function () \x7b\nit('a', 1);\nbeforeEach(f);\ndescribe('n', function () \x7b\nxit('c', 2);\n" ++
    txt "beforeEach(g);\n\x7d);\nit('d';\nxit('b', 3);\n\x7d));"

/-- The mixed suite has a nested suite, a hook, a skipped test and a test, which stands first in the file; in the nested
suite the hook comes first, which stands last. -/
theorem children_in_category_order_mixed :
    ∃ root nested : TestNode, (analyze mixedSuite).outcome = .ok (some root) ∧ nested.Within root ∧
      root.children.map TestNode.offset = [55, 40, 123, 28] ∧ InCategoryOrder root.children ∧
      nested.children.map TestNode.offset = [96, 83] ∧ InCategoryOrder nested.children := by
  have hfound : ((analyze mixedSuite).outcome.toOption.join.map fun root =>
      root.children.map fun child => (child.offset, child.children.map TestNode.offset)) =
        some [(55, [96, 83]), (40, []), (123, []), (28, [])] := by decide +kernel
  obtain ⟨root, hroot, hplaces⟩ := Option.map_eq_some_iff.1 hfound
  obtain ⟨nested, rest, hchildren, hnested, hrest⟩ := List.map_eq_cons_iff.1 hplaces
  have hwithin : nested.Within root := .child (hchildren ▸ List.mem_cons_self) .root
  have hanalyzed := eq_ok_of_toOption hroot
  have horder := children_in_category_order hanalyzed
  refine ⟨root, nested, hanalyzed, hwithin, ?_, (horder root .root).1, congrArg Prod.snd hnested,
    (horder nested hwithin).1⟩
  have hmap := congrArg (List.map Prod.fst) hplaces
  rwa [List.map_map] at hmap

end Suite

end AngularUplift
