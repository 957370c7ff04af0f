import AngularUplift.Text.Basic

/-!
# Test suites

A unit-test file is a tree: suites hold hooks, tests and further suites. Every node remembers the comment above
it and where its keyword stands in the file.

## Main definitions

* `TestNode`: a node of the tree.
* `TestCategory`: the four kinds of block, in the order in which they are searched for.
* `TestNode.inSourceOrder`: the children of a suite in the order of the file.
-/

namespace AngularUplift

/-- The kinds of block that a suite is made of. -/
inductive TestCategory where
  /-- A nested suite. -/
  | describe
  /-- A hook that runs before each test. -/
  | beforeEach
  /-- A test that is skipped. -/
  | xit
  /-- A test. -/
  | it
deriving DecidableEq, Repr

namespace TestCategory

/-- The categories in the order in which a suite is searched for them. -/
def all : List TestCategory := [.describe, .beforeEach, .xit, .it]

/-- The keyword that begins a block. -/
def keyword : TestCategory → Text
  | .describe => txt "describe"
  | .beforeEach => txt "beforeEach"
  | .xit => txt "xit"
  | .it => txt "it"

/-- The word for a category. -/
def label : TestCategory → Text
  | .describe => txt "describe"
  | .beforeEach => txt "before_each"
  | .xit => txt "xit"
  | .it => txt "it"

end TestCategory

/-- A node of a test tree. -/
inductive TestNode where
  /-- A suite. Its body is the code that belongs to no block of it. -/
  | describe (title body comment : Text) (offset : Int) (children : List TestNode)
  /-- A hook that runs before each test. -/
  | beforeEach (body comment : Text) (offset : Int)
  /-- A test that is skipped. -/
  | xit (title body comment : Text) (offset : Int)
  /-- A test. -/
  | it (title body comment : Text) (offset : Int)
  /-- A node of no known category. -/
  | other (body comment : Text) (offset : Int)
deriving Repr, Inhabited

namespace TestNode

/-- Where the keyword of a node stands in the file. -/
def offset : TestNode → Int
  | .describe _ _ _ offset _ => offset
  | .beforeEach _ _ offset => offset
  | .xit _ _ _ offset => offset
  | .it _ _ _ offset => offset
  | .other _ _ offset => offset

/-- The title of a node that has one. -/
def title? : TestNode → Option Text
  | .describe title .. => some title
  | .xit title .. => some title
  | .it title .. => some title
  | _ => none

/-- The category of a node. -/
def category? : TestNode → Option TestCategory
  | .describe .. => some .describe
  | .beforeEach .. => some .beforeEach
  | .xit .. => some .xit
  | .it .. => some .it
  | .other .. => none

/-- The children of a suite. -/
def children : TestNode → List TestNode
  | .describe _ _ _ _ children => children
  | _ => []

/-- The children of a suite in the order of the file; children at the same place keep their order. -/
def inSourceOrder (node : TestNode) : List TestNode :=
  node.children.mergeSort fun a b => decide (a.offset ≤ b.offset)

end TestNode

end AngularUplift
