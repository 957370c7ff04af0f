import AngularUplift.Proofs.Construct.Totality
import AngularUplift.Proofs.Suite.Order
import AngularUplift.Suite.Printer

/-!
# Suites that can be printed

A node of no known category has no code. No suite that is read from a text has such a node, at any depth, so that
every suite that is read becomes a spec.

## Main definitions

* `TestNode.HasCode`: a node that has code, whatever becomes of the bodies of tests.

## Main statements

* `Suite.hasCode_of_mem_children`: the nodes that are found in the body of a suite have code.
* `Suite.settles_analyze_hasCode`: so has the suite of a text.
* `TestNode.HasCode.exists_content`: what is inside a suite with code can be printed.
-/

namespace AngularUplift

namespace TestNode

/-- A node that has code, whatever becomes of the bodies of tests. -/
def HasCode (node : TestNode) : Prop := ∀ testBody, ∃ code, node.code testBody = .ok code

theorem exists_childrenCode {nodes : List TestNode} (h : ∀ node ∈ nodes, node.HasCode) (testBody : Text → Text) :
    ∃ codes, childrenCode testBody nodes = .ok codes := by
  induction nodes with
  | nil => exact ⟨[], rfl⟩
  | cons node nodes ih =>
    obtain ⟨hnode, hnodes⟩ := List.forall_mem_cons.1 h
    obtain ⟨first, hfirst⟩ := hnode testBody
    obtain ⟨rest, hrest⟩ := ih hnodes
    refine ⟨first :: rest, ?_⟩
    rw [childrenCode, hfirst, hrest]
    rfl

/-- A suite has code when its children have. -/
theorem hasCode_describe (title body comment : Text) (offset : Int) {children : List TestNode}
    (h : ∀ node ∈ children, node.HasCode) : (describe title body comment offset children).HasCode := by
  intro testBody
  obtain ⟨codes, hcodes⟩ := exists_childrenCode h testBody
  rw [code, hcodes]
  exact ⟨_, rfl⟩

/-- What is inside a suite with code can be printed. -/
theorem HasCode.exists_content {suite : TestNode} (h : suite.HasCode) (testBody : Text → Text) :
    ∃ inner, suite.content testBody = .ok inner := by
  have hchildren : ∃ codes, childrenCode testBody suite.children = .ok codes := by
    cases suite with
    | describe title body comment offset children =>
      -- The code of a suite begins with that of its children.
      obtain ⟨whole, hwhole⟩ := h testBody
      rw [code] at hwhole
      cases hcodes : childrenCode testBody children with
      | ok codes => exact ⟨codes, hcodes⟩
      | error fault =>
        rw [hcodes] at hwhole
        cases hwhole
    | _ => exact ⟨[], rfl⟩
  obtain ⟨codes, hcodes⟩ := hchildren
  rw [content, hcodes]
  exact ⟨_, rfl⟩

end TestNode

namespace Suite

open TestNode

theorem hasCode_leaf (category : TestCategory) (block : Block) (offset : Int) :
    (leaf category block offset).HasCode := by
  intro testBody
  cases category <;> exact ⟨_, rfl⟩

/-- Every node that is found in the body of a suite has code. -/
theorem hasCode_of_mem_children {fuel : Nat} {body : Text} {base : Int} {node : TestNode}
    (h : node ∈ (children fuel body base).1) : node.HasCode :=
  ((forall_mem_search (fun category block offset _ => hasCode_leaf category block offset)
    (fun title body comment offset _ _ hnodes => hasCode_describe title body comment offset hnodes) fuel).2 body
      base).2 node h

/-- The suite of a text, if it has one, has code. -/
theorem settles_analyze_hasCode (text : Text) :
    (analyze text).Settles Fault.IsUnbalanced fun suite? => ∀ suite ∈ suite?, suite.HasCode := by
  rw [analyze]
  split
  · exact .pure fun _ hmem => absurd hmem (Option.not_mem_none _)
  · refine (Logged.Settles.ofExcept (outcome_readBlock ..)).bind fun block _ => ?_
    -- The search itself is not to be unfolded, only what it finds counts.
    have hnodes : ∀ node ∈ (children (block.body.length + 2) block.body block.bodyStart).1, node.HasCode :=
      fun _ => hasCode_of_mem_children
    generalize children (block.body.length + 2) block.body block.bodyStart = found at hnodes ⊢
    refine (Logged.Settles.tell _).bind fun _ _ => .pure fun suite hsuite => ?_
    obtain rfl := Option.mem_some.1 hsuite
    exact hasCode_describe _ _ _ _ hnodes

end Suite

end AngularUplift
