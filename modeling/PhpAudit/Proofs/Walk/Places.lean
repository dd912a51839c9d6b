/-
Places in a forest.

A node can stand at several places of the same forest, in front of the same text and below equal
ancestors, so the nodes that a walk meets do not tell at which places it was.  A place is a node
together with the nodes above it; the listing of all places in pre-order has one item for every
place, however equal the nodes are.

Main definitions:

* `Walk.framesOf` — the frames that a list of nodes gives, each with its distance from the root;
* `Walk.Place`, `Walk.placesOf`, `Walk.placesIn` — places, and all places in pre-order;
* `Walk.Way` — the ways from some roots down to a node.

Main results:

* `Node.forest_induction` — induction over nodes and lists of nodes at once;
* `Walk.map_node_placesIn` — the nodes of all places are the pre-order;
* `Walk.mem_placesIn_iff` — **the places of a forest are the ways down from its roots**;
* `Walk.Way.placesOf_sublist` — the places below a place;
* `Walk.walkStack_eq`, `Walk.mem_walk_iff` — what a walk by a stack meets.
-/

import PhpAudit.Walk.Trail

set_option autoImplicit false

namespace PhpAudit

/-! ### Induction -/

/-- What passes from the children of a node to the node holds of every node. -/
theorem Node.induction {P : Node → Prop} (step : ∀ n, (∀ m ∈ n.children, P m) → P n) (n : Node) :
    P n :=
  step n fun m _ => Node.induction step m
termination_by n.size
decreasing_by exact size_lt_of_mem_children ‹_›

/-- Induction over nodes and lists of nodes at once. -/
theorem Node.forest_induction {P : Node → Prop} {Q : List Node → Prop}
    (node : ∀ n, Q n.children → P n) (nil : Q []) (cons : ∀ n ns, P n → Q ns → Q (n :: ns)) :
    (∀ n, P n) ∧ ∀ ns, Q ns := by
  have hlist : ∀ ns : List Node, (∀ m ∈ ns, P m) → Q ns := by
    intro ns
    induction ns with
    | nil => exact fun _ => nil
    | cons n ns ih =>
        intro h
        exact cons n ns (h n List.mem_cons_self) (ih fun m hm => h m (List.mem_cons_of_mem _ hm))
  have hnode : ∀ n, P n := Node.induction fun n ih => node n (hlist n.children ih)
  exact ⟨hnode, fun ns => hlist ns fun m _ => hnode m⟩

namespace Walk

/-! ### Frames -/

/-- The frames of nodes, the innermost first: each knows how many nodes are above it. -/
def framesOf : List Node → List Frame
  | [] => []
  | n :: above => ⟨n, above.length⟩ :: framesOf above

@[simp] theorem map_node_framesOf (way : List Node) : (framesOf way).map Frame.node = way := by
  induction way with
  | nil => rfl
  | cons n above ih => simp [framesOf, ih]

/-- Counted from the outermost frame, the depth of a frame is its position. -/
theorem depth_framesOf (way : List Node) :
    (framesOf way).reverse.map Frame.depth = List.range way.length := by
  induction way with
  | nil => rfl
  | cons n above ih =>
      simp only [framesOf, List.reverse_cons, List.map_append, ih, List.map_cons, List.map_nil,
        List.length_cons, List.range_succ]

/-! ### Places -/

/-- A node with the nodes above it, the nearest first. -/
structure Place where
  node : Node
  above : List Node

mutual

/-- The places of a node and of all below it, in pre-order. -/
def placesOf (above : List Node) : Node → List Place
  | ⟨k, s, f, a, t, i, children⟩ =>
    ⟨⟨k, s, f, a, t, i, children⟩, above⟩ ::
      placesIn (⟨k, s, f, a, t, i, children⟩ :: above) children

/-- The places of several nodes and of all below them, in pre-order. -/
def placesIn (above : List Node) : List Node → List Place
  | [] => []
  | n :: rest => placesOf above n ++ placesIn above rest

end

theorem placesOf_eq (above : List Node) (n : Node) :
    placesOf above n = ⟨n, above⟩ :: placesIn (n :: above) n.children := by
  cases n
  rfl

theorem preorder_eq (n : Node) : n.preorder = n :: Node.preorderList n.children := by
  cases n
  rfl

/-- The nodes of all places are the pre-order. -/
theorem map_node_placesIn (above ns : List Node) :
    (placesIn above ns).map Place.node = Node.preorderList ns := by
  have h := Node.forest_induction
    (P := fun n => ∀ above, (placesOf above n).map Place.node = n.preorder)
    (Q := fun ns => ∀ above, (placesIn above ns).map Place.node = Node.preorderList ns)
    (fun n ih above => by rw [placesOf_eq, List.map_cons, ih, preorder_eq])
    (fun above => rfl)
    (fun n ns ihn ihns above => by
      rw [placesIn, List.map_append, ihn, ihns, Node.preorderList])
  exact h.2 ns above

/-- The nodes above a node lead up to one of the roots, the nearest first. -/
inductive Way (roots : List Node) : Node → List Node → Prop
  | root {n : Node} (h : n ∈ roots) : Way roots n []
  | child {m n : Node} {above : List Node} (hway : Way roots n above) (h : m ∈ n.children) :
      Way roots m (n :: above)

theorem mem_placesIn_of_mem {above ns : List Node} {n : Node} (h : n ∈ ns) :
    ⟨n, above⟩ ∈ placesIn above ns := by
  induction ns with
  | nil => exact absurd h List.not_mem_nil
  | cons m ns ih =>
      rw [placesIn, List.mem_append]
      rcases List.mem_cons.1 h with rfl | h
      · rw [placesOf_eq]
        exact .inl List.mem_cons_self
      · exact .inr (ih h)

/-- With a place, the places of the children of its node are listed. -/
theorem mem_placesIn_of_child {roots above : List Node} {p : Place} (hp : p ∈ placesIn above roots)
    {m : Node} (hm : m ∈ p.node.children) : ⟨m, p.node :: p.above⟩ ∈ placesIn above roots := by
  have h := Node.forest_induction
    (P := fun n => ∀ above, p ∈ placesOf above n → ⟨m, p.node :: p.above⟩ ∈ placesOf above n)
    (Q := fun ns => ∀ above, p ∈ placesIn above ns → ⟨m, p.node :: p.above⟩ ∈ placesIn above ns)
    (fun n ih above hp => by
      rw [placesOf_eq] at hp ⊢
      refine List.mem_cons_of_mem _ ?_
      rcases List.mem_cons.1 hp with rfl | hp
      · exact mem_placesIn_of_mem hm
      · exact ih _ hp)
    (fun above hp => absurd hp List.not_mem_nil)
    (fun n ns ihn ihns above hp => by
      rw [placesIn, List.mem_append] at hp ⊢
      exact hp.imp (ihn above) (ihns above))
  exact h.2 roots above hp

theorem way_of_mem_places {roots : List Node} :
    (∀ n above, Way roots n above → ∀ p ∈ placesOf above n, Way roots p.node p.above) ∧
      ∀ ns above, (∀ n ∈ ns, Way roots n above) → ∀ p ∈ placesIn above ns,
        Way roots p.node p.above := by
  refine Node.forest_induction ?_ ?_ ?_
  · intro n ih above hway p hp
    rw [placesOf_eq] at hp
    rcases List.mem_cons.1 hp with rfl | hp
    · exact hway
    · exact ih (n :: above) (fun m hm => hway.child hm) p hp
  · intro above _ p hp
    exact absurd hp List.not_mem_nil
  · intro n ns ihn ihns above hway p hp
    rw [placesIn, List.mem_append] at hp
    rcases hp with hp | hp
    · exact ihn above (hway n List.mem_cons_self) p hp
    · exact ihns above (fun m hm => hway m (List.mem_cons_of_mem _ hm)) p hp

/-- **The places of a forest are the ways down from its roots.** -/
theorem mem_placesIn_iff {roots : List Node} {p : Place} :
    p ∈ placesIn [] roots ↔ Way roots p.node p.above := by
  obtain ⟨n, above⟩ := p
  constructor
  · exact way_of_mem_places.2 roots [] (fun n hn => .root hn) _
  · intro h
    change Way roots n above at h
    induction h with
    | root h => exact mem_placesIn_of_mem h
    | child _ h ih => exact mem_placesIn_of_child ih h

/-- The places below a place come one after the other in the listing of all places. -/
theorem Way.placesOf_sublist {roots : List Node} {n : Node} {above : List Node}
    (h : Way roots n above) : (placesOf above n).Sublist (placesIn [] roots) := by
  have hmem : ∀ {m : Node} {ns : List Node} (above : List Node), m ∈ ns →
      (placesOf above m).Sublist (placesIn above ns) := by
    intro m ns above hm
    induction ns with
    | nil => exact absurd hm List.not_mem_nil
    | cons k ns ih =>
        rw [placesIn]
        rcases List.mem_cons.1 hm with rfl | hm
        · exact List.sublist_append_left _ _
        · exact (ih hm).trans (List.sublist_append_right _ _)
  induction h with
  | root hn => exact hmem [] hn
  | @child m n above _ hm ih =>
      refine (hmem (n :: above) hm).trans (List.Sublist.trans ?_ ih)
      rw [placesOf_eq]
      exact List.sublist_cons_self _ _

/-- From a root down to a node leads a way of no steps, or one that goes on from a child of the
root. -/
theorem way_singleton_iff {n m : Node} {above : List Node} :
    Way [n] m above ↔ m = n ∧ above = [] ∨
      ∃ c ∈ n.children, ∃ between, above = between ++ [n] ∧ Way [c] m between := by
  constructor
  · intro h
    induction h with
    | root h => exact .inl ⟨List.mem_singleton.1 h, rfl⟩
    | @child m k above _ hm ih =>
        rcases ih with ⟨rfl, rfl⟩ | ⟨c, hc, between, rfl, hway⟩
        · exact .inr ⟨m, hm, [], rfl, .root List.mem_cons_self⟩
        · exact .inr ⟨c, hc, k :: between, rfl, hway.child hm⟩
  · rintro (⟨rfl, rfl⟩ | ⟨c, hc, between, rfl, hway⟩)
    · exact .root List.mem_cons_self
    · induction hway with
      | root h =>
          rw [List.mem_singleton.1 h]
          exact (Way.root List.mem_cons_self).child hc
      | child _ hm ih => exact ih.child hm

theorem Way.eq_of_nil {n m : Node} (h : Way [n] m []) : m = n := by
  rcases way_singleton_iff.1 h with ⟨heq, _⟩ | ⟨_, _, between, hnil, _⟩
  · exact heq
  · simp at hnil

/-- Every way begins at one of the roots. -/
theorem way_iff_root {roots : List Node} {m : Node} {above : List Node} :
    Way roots m above ↔ ∃ r ∈ roots, Way [r] m above := by
  constructor
  · intro h
    induction h with
    | root h => exact ⟨_, h, .root List.mem_cons_self⟩
    | child _ hm ih =>
        obtain ⟨r, hr, hway⟩ := ih
        exact ⟨r, hr, hway.child hm⟩
  · rintro ⟨r, hr, hway⟩
    induction hway with
    | root h =>
        rw [List.mem_singleton.1 h]
        exact .root hr
    | child _ hm ih => exact ih.child hm

/-- A way that leads through a node is a way to this node and a way on from there. -/
theorem Way.through {roots : List Node} {m k : Node} {low high : List Node}
    (h : Way roots m (low ++ k :: high)) : Way roots k high ∧ Way [k] m (low ++ [k]) := by
  induction low generalizing m with
  | nil =>
      cases h with
      | child hway hm => exact ⟨hway, (Way.root List.mem_cons_self).child hm⟩
  | cons a low ih =>
      cases h with
      | child hway hm =>
          obtain ⟨hhigh, hlow⟩ := ih hway
          exact ⟨hhigh, hlow.child hm⟩

/-! ### Walks by a stack -/

/-- A stack of nodes is walked in pre-order. -/
theorem walkStack_eq (ns : List Node) : Node.walkStack ns = Node.preorderList ns := by
  have happend : ∀ ms ns : List Node,
      Node.preorderList (ms ++ ns) = Node.preorderList ms ++ Node.preorderList ns := by
    intro ms ns
    induction ms with
    | nil => rfl
    | cons m ms ih => simp [Node.preorderList, ih]
  fun_induction Node.walkStack ns with
  | case1 => rfl
  | case2 n rest ih => rw [ih, happend, Node.preorderList, preorder_eq, List.cons_append]

/-- What a walk from a node meets are the nodes to which a way leads down. -/
theorem mem_walk_iff {n m : Node} : m ∈ n.walk ↔ ∃ above, Way [n] m above := by
  rw [Node.walk, walkStack_eq, ← map_node_placesIn [], List.mem_map]
  constructor
  · rintro ⟨p, hp, rfl⟩
    exact ⟨p.above, mem_placesIn_iff.1 hp⟩
  · rintro ⟨above, hway⟩
    exact ⟨⟨m, above⟩, mem_placesIn_iff.2 hway, rfl⟩

theorem mem_walk_of_mem_children {n m : Node} (h : m ∈ n.children) : m ∈ n.walk :=
  mem_walk_iff.2 ⟨[n], (Way.root List.mem_cons_self).child h⟩

/-- What is below a node that a walk meets is met too. -/
theorem mem_walk_trans {n k m : Node} (hk : k ∈ n.walk) (hm : m ∈ k.walk) : m ∈ n.walk := by
  obtain ⟨above, hway⟩ := mem_walk_iff.1 hk
  obtain ⟨low, hlow⟩ := mem_walk_iff.1 hm
  clear hm
  refine mem_walk_iff.2 ?_
  induction hlow with
  | root h =>
      rw [List.mem_singleton.1 h]
      exact ⟨above, hway⟩
  | child _ hm ih =>
      obtain ⟨high, hhigh⟩ := ih
      exact ⟨_ :: high, hhigh.child hm⟩

end Walk

end PhpAudit
