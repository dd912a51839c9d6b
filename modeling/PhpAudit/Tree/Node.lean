/-
Nodes of a syntax tree.

A node has a kind, a place in the source, the text that it covers, and its children in source
order.  A child may stand under a field name of the grammar.  Lines count from one and columns from
zero.  Every node has an index, its place in the pre-order of its tree, by which reports refer to
it.
-/

import PhpAudit.Value.Basic

set_option autoImplicit false

namespace PhpAudit

/-- A place in the source. -/
structure Span where
  startLine : Int
  endLine : Int := startLine
  startColumn : Int := 0
  endColumn : Int := 0
  startByte : Int := 0
  endByte : Int := 0
  deriving DecidableEq, Inhabited

/-- A node of a syntax tree. -/
structure Node where
  kind : String
  span : Span
  /-- The field of the parent under which the node stands. -/
  field : Option String := none
  /-- Tokens of the grammar that are kept beside the children. -/
  marks : Dict := []
  /-- The source text that the node covers. -/
  text : String := ""
  /-- The place of the node in the pre-order of its tree. -/
  index : Nat := 0
  children : List Node := []
  deriving Inhabited

namespace Node

/-! ### Measures and walks -/

mutual

/-- The number of nodes. -/
def size : Node → Nat
  | ⟨_, _, _, _, _, _, children⟩ => sizeList children + 1

/-- The number of nodes of several trees. -/
def sizeList : List Node → Nat
  | [] => 0
  | n :: rest => size n + sizeList rest

end

mutual

/-- The node and all below it: a node first, then its children from left to right. -/
def preorder : Node → List Node
  | ⟨k, s, f, a, t, i, children⟩ => ⟨k, s, f, a, t, i, children⟩ :: preorderList children

/-- The pre-order of several trees. -/
def preorderList : List Node → List Node
  | [] => []
  | n :: rest => preorder n ++ preorderList rest

end

theorem size_eq (n : Node) : n.size = sizeList n.children + 1 := by
  cases n
  rfl

theorem sizeList_append (xs ys : List Node) : sizeList (xs ++ ys) = sizeList xs + sizeList ys := by
  induction xs with
  | nil => simp [sizeList]
  | cons x xs ih => simp [sizeList, ih, Nat.add_assoc]

theorem size_le_sizeList {m : Node} {ns : List Node} (h : m ∈ ns) : m.size ≤ sizeList ns := by
  induction ns with
  | nil => exact absurd h List.not_mem_nil
  | cons n ns ih =>
      simp only [sizeList]
      rcases List.mem_cons.1 h with rfl | h
      · omega
      · have := ih h
        omega

theorem size_lt_of_mem_children {m n : Node} (h : m ∈ n.children) : m.size < n.size := by
  rw [size_eq n]
  exact Nat.lt_succ_of_le (size_le_sizeList h)

/-- Leaving nodes out and taking smaller ones in place of others adds no node. -/
theorem sizeList_filterMap_le {f : Node → Option Node}
    (h : ∀ n m, f n = some m → m.size ≤ n.size) (ns : List Node) :
    sizeList (ns.filterMap f) ≤ sizeList ns := by
  induction ns with
  | nil => exact Nat.le_refl _
  | cons n ns ih =>
      cases hn : f n with
      | none =>
          simp only [List.filterMap_cons, hn, sizeList]
          omega
      | some m =>
          have hm := h n m hn
          simp only [List.filterMap_cons, hn, sizeList]
          omega

/-- The nodes met by taking nodes from a stack and putting their children in their place. -/
def walkStack : List Node → List Node
  | [] => []
  | n :: rest => n :: walkStack (n.children ++ rest)
termination_by stack => sizeList stack
decreasing_by
  simp only [sizeList_append, sizeList, size_eq]
  omega

/-- The node and all below it, by a stack. -/
def walk (n : Node) : List Node :=
  walkStack [n]

/-! ### Searching -/

/-- The first child under a field name. -/
def childByField? (n : Node) (name : String) : Option Node :=
  n.children.find? fun c => c.field == some name

/-- The first child of one of the kinds. -/
def firstChildOf? (n : Node) (kinds : List String) : Option Node :=
  n.children.find? fun c => kinds.contains c.kind

/-- The children of one of the kinds. -/
def childrenOf (n : Node) (kinds : List String) : List Node :=
  n.children.filter fun c => kinds.contains c.kind

/-- The token kept under a name. -/
def mark? (n : Node) (name : Key) : Option Value :=
  Assoc.get? n.marks name

/-- The nodes of one of the kinds, itself included. -/
def findAll (n : Node) (kinds : List String) : List Node :=
  n.walk.filter fun m => kinds.contains m.kind

/-- The first node in pre-order that passes a test. -/
def findFirst? (n : Node) (test : Node → Bool) : Option Node :=
  n.walk.find? test

/-- Whether a node of one of the kinds is there, itself included. -/
def containsKind (n : Node) (kinds : List String) : Bool :=
  (n.findFirst? fun m => kinds.contains m.kind).isSome

/-- The number of lines that the node covers. -/
def lineCount (n : Node) : Int :=
  n.span.endLine - n.span.startLine + 1

/-- One line that names the node. -/
def label (n : Node) : String :=
  s!"Node({n.kind}, lines {n.span.startLine}-{n.span.endLine}, children={n.children.length})"

/-! ### Numbering -/

mutual

/-- The node with indices from `start` on in pre-order, and the index after its last. -/
def numberFrom (start : Nat) : Node → Node × Nat
  | ⟨k, s, f, a, t, _, children⟩ =>
    let r := numberList (start + 1) children
    (⟨k, s, f, a, t, start, r.1⟩, r.2)

/-- Several trees with indices from `start` on. -/
def numberList (start : Nat) : List Node → List Node × Nat
  | [] => ([], start)
  | n :: rest =>
    let first := numberFrom start n
    let others := numberList first.2 rest
    (first.1 :: others.1, others.2)

end

/-- The tree with its nodes numbered in pre-order from zero. -/
def numbered (n : Node) : Node :=
  (numberFrom 0 n).1

end Node

end PhpAudit
