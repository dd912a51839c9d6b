/-
The trail of a walk: where the walk stands, and what it has counted.

While a walk goes through a tree it keeps the nodes from the root down to the present one.  Rules
ask the trail what surrounds a node: whether it stands in a loop, or in a class for tests.
-/

import PhpAudit.Tree.Node

set_option autoImplicit false

namespace PhpAudit.Walk

/-- A node on the way from the root, with its depth. -/
structure Frame where
  node : Node
  depth : Nat

/-- Where a walk stands and what it has counted. -/
structure Trail where
  /-- Whether the nodes on the way are kept. -/
  tracking : Bool := true
  /-- The nodes on the way, the innermost first. -/
  frames : List Frame := []
  visited : Nat := 0
  kinds : Assoc String Nat := []
  deepest : Nat := 0
  /-- How often children were left out because of the depth limit. -/
  limitHits : Nat := 0
  stopped : Bool := false

namespace Trail

/-! ### Keeping the trail -/

/-- A node is entered. -/
def push (t : Trail) (n : Node) (depth : Nat) : Trail :=
  if t.tracking then { t with frames := ⟨n, depth⟩ :: t.frames } else t

/-- The innermost node is left. -/
def pop (t : Trail) : Trail :=
  if t.tracking then { t with frames := t.frames.drop 1 } else t

/-- A node is counted. -/
def record (t : Trail) (n : Node) (depth : Nat) : Trail :=
  { t with visited := t.visited + 1, kinds := Assoc.bump t.kinds n.kind 1
           deepest := max t.deepest depth }

/-! ### Questions -/

/-- The present node. -/
def current? (t : Trail) : Option Node :=
  t.frames.head?.map Frame.node

/-- The proper ancestors of the present node, the nearest first. -/
def ancestors (t : Trail) : List Node :=
  (t.frames.drop 1).map Frame.node

/-- The nearest ancestor. -/
def parent? (t : Trail) : Option Node :=
  t.ancestors.head?

/-- The depth of the present node. -/
def depth (t : Trail) : Nat :=
  match t.frames with
  | [] => 0
  | f :: _ => f.depth

/-- The nearest ancestors up to a number; below zero it counts from the farthest. -/
def ancestorsUpTo (t : Trail) (limit : Int) : List Node :=
  let chain := t.ancestors
  if limit < 0 then chain.take (chain.length - limit.natAbs) else chain.take limit.toNat

/-- Whether an ancestor has one of the kinds. -/
def isInside (t : Trail) (kinds : List String) : Bool :=
  t.ancestors.any fun n => kinds.contains n.kind

/-- The nearest ancestor that passes a test. -/
def findAncestor? (t : Trail) (test : Node → Bool) : Option Node :=
  t.ancestors.find? test

/-- The nearest ancestor of one of the kinds. -/
def findAncestorOf? (t : Trail) (kinds : List String) : Option Node :=
  t.findAncestor? fun n => kinds.contains n.kind

/-- How many ancestors have one of the kinds. -/
def countAncestors (t : Trail) (kinds : List String) : Nat :=
  t.ancestors.countP fun n => kinds.contains n.kind

/-- The kinds from the root down to the present node. -/
def path (t : Trail) : String :=
  " > ".intercalate (t.frames.reverse.map fun f => f.node.kind)

/-- The counters as a dictionary.  A walk takes no time on the clock of the run. -/
def statistics (t : Trail) : Dict :=
  [("nodes_visited", .nat t.visited),
   ("type_distribution", .ofCounts t.kinds),
   ("max_depth", .nat t.deepest),
   ("depth_limit_hits", .nat t.limitHits),
   ("visit_time", .float 0.0)]

end Trail

end PhpAudit.Walk
