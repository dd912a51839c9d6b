/-
**What stands in the scope of a function.**

The nodes of a scope are found by a stack: a function that is met is listed, but its children are
not put on the stack.  In terms of places this is the pre-order of all that stands below the body,
with the places left out that have a function above them.  The body itself is not asked whether it
is a function, so that of an arrow function is entered even if it is one.

Main definitions:

* `Php.openPlaces` — the places below some nodes that have no function above them;
* `Php.Open` — a way down to a node without a function on it;
* `Php.hollow` — a node without the insides of the functions in it.

Main results:

* `Php.walkScope_eq` — **a scope holds the open places below the body, in pre-order**;
* `Php.mem_walkScope_iff` — the nodes of a scope;
* `Php.map_hollow_scopeStack` — a scope is found without the insides of functions;
* `Quality.FunctionSize.complexity_of_scope` — **the complexity of a function counts the decisions
  of its scope**, whatever stands inside the functions nested in it.
-/

import PhpAudit.Proofs.Walk.Places
import PhpAudit.Quality.FunctionSize

set_option autoImplicit false

namespace PhpAudit.Php

open Walk (Place placesOf placesIn placesOf_eq Way mem_placesIn_iff)

/-! ### Open places -/

/-- Whether no function is among the nodes above a place. -/
def isOpen (above : List Node) : Bool :=
  above.all fun k => !isScope k

/-- A way leads down to a node from one of some roots, and no node on it is a function. -/
def Open (roots : List Node) (m : Node) : Prop :=
  ∃ above, Way roots m above ∧ ∀ k ∈ above, isScope k = false

theorem isOpen_iff {above : List Node} : isOpen above = true ↔ ∀ k ∈ above, isScope k = false := by
  simp [isOpen]

/-- The open places among all places below some nodes. -/
def openPlaces (ns : List Node) : List Place :=
  (placesIn [] ns).filter fun p => isOpen p.above

theorem mem_openPlaces_iff {ns : List Node} {p : Place} :
    p ∈ openPlaces ns ↔ Way ns p.node p.above ∧ ∀ k ∈ p.above, isScope k = false := by
  rw [openPlaces, List.mem_filter, mem_placesIn_iff, isOpen_iff]

/-- Below a function no place is open.  Elsewhere, a stack lists the open places. -/
theorem filter_isOpen_places :
    (∀ n above,
      (isOpen above = false → (placesOf above n).filter (fun p => isOpen p.above) = []) ∧
        (isOpen above = true → ∀ rest, scopeStack (n :: rest) =
          ((placesOf above n).filter fun p => isOpen p.above).map Place.node ++
            scopeStack rest)) ∧
      ∀ ns above,
        (isOpen above = false → (placesIn above ns).filter (fun p => isOpen p.above) = []) ∧
          (isOpen above = true → ∀ rest, scopeStack (ns ++ rest) =
            ((placesIn above ns).filter fun p => isOpen p.above).map Place.node ++
              scopeStack rest) := by
  refine Node.forest_induction ?_ ?_ ?_
  · intro n ih above
    have hbelow : isOpen (n :: above) = (!isScope n && isOpen above) := rfl
    rw [placesOf_eq]
    constructor
    · intro hclosed
      rw [List.filter_cons_of_neg (by simp [hclosed])]
      exact (ih (n :: above)).1 (by rw [hbelow, hclosed, Bool.and_false])
    · intro hopen rest
      rw [List.filter_cons_of_pos (by simpa using hopen), scopeStack]
      cases hn : isScope n with
      | true =>
          rw [(ih (n :: above)).1 (by rw [hbelow, hn]; rfl)]
          rfl
      | false =>
          have hall := (ih (n :: above)).2 (by rw [hbelow, hn, hopen]; rfl) rest
          exact congrArg (n :: ·) hall
  · exact fun above => ⟨fun _ => rfl, fun _ _ => rfl⟩
  · intro n ns ihn ihns above
    rw [placesIn, List.filter_append]
    constructor
    · intro hclosed
      rw [(ihn above).1 hclosed, (ihns above).1 hclosed]
      rfl
    · intro hopen rest
      rw [List.cons_append, (ihn above).2 hopen, (ihns above).2 hopen, List.map_append,
        List.append_assoc]

/-- **A scope holds the open places below the body, in pre-order.** -/
theorem walkScope_eq (n : Node) : walkScope n = (openPlaces n.children).map Place.node := by
  have h := (filter_isOpen_places.2 n.children []).2 rfl []
  rwa [List.append_nil, scopeStack.eq_1, List.append_nil] at h

/-- The nodes of a scope: a way leads down to them from below the node without a function on it. -/
theorem mem_walkScope_iff {n m : Node} : m ∈ walkScope n ↔ Open n.children m := by
  rw [walkScope_eq, List.mem_map]
  constructor
  · rintro ⟨p, hp, rfl⟩
    exact ⟨p.above, mem_openPlaces_iff.1 hp⟩
  · rintro ⟨above, hopen⟩
    exact ⟨⟨m, above⟩, mem_openPlaces_iff.2 hopen, rfl⟩

/-! ### Insides -/

mutual

/-- A node without the insides of the functions in it, and without what changes with them: its text
and its place. -/
def hollow : Node → Node
  | ⟨kind, _, _, marks, _, _, children⟩ =>
    { kind, span := { startLine := 0 }, marks
      children := if scopeKinds.contains kind then [] else hollowAll children }

/-- Several nodes without the insides of the functions in them. -/
def hollowAll : List Node → List Node
  | [] => []
  | n :: rest => hollow n :: hollowAll rest

end

theorem hollowAll_eq_map (ns : List Node) : hollowAll ns = ns.map hollow := by
  induction ns with
  | nil => rfl
  | cons n ns ih => rw [hollowAll, ih, List.map_cons]

@[simp] theorem kind_hollow (n : Node) : (hollow n).kind = n.kind := by
  cases n
  rw [hollow]

@[simp] theorem marks_hollow (n : Node) : (hollow n).marks = n.marks := by
  cases n
  rw [hollow]

theorem children_hollow (n : Node) :
    (hollow n).children = if isScope n then [] else n.children.map hollow := by
  cases n
  rw [hollow, ← hollowAll_eq_map]
  rfl

/-- A scope is found without the insides of functions. -/
theorem map_hollow_scopeStack (ns : List Node) :
    (scopeStack ns).map hollow = scopeStack (ns.map hollow) := by
  fun_induction scopeStack ns with
  | case1 => rw [List.map_nil, scopeStack]
  | case2 n rest ih =>
      have hscope : isScope (hollow n) = isScope n := by rw [isScope, kind_hollow, isScope]
      rw [dite_eq_ite] at ih
      rw [List.map_cons, List.map_cons, scopeStack, hscope, children_hollow, ih]
      cases isScope n <;> simp

end PhpAudit.Php

namespace PhpAudit.Quality.FunctionSize

open Php Walk

theorem isDecision_hollow (n : Node) : isDecision (hollow n) = isDecision n := by
  simp only [isDecision, Node.mark?, kind_hollow, marks_hollow]

theorem complexity_eq {f body : Node} (h : body? f = some body) :
    complexity f = 1 + (walkScope body).countP isDecision := by
  simp only [complexity, h]

/-- The decisions of a scope are the same whatever stands inside the functions in it. -/
theorem countP_walkScope_congr {n m : Node} (h : n.children.map hollow = m.children.map hollow) :
    (walkScope n).countP isDecision = (walkScope m).countP isDecision := by
  have hhollow : ∀ k : Node, (walkScope k).countP isDecision =
      (scopeStack (k.children.map hollow)).countP isDecision := by
    intro k
    rw [← map_hollow_scopeStack, List.countP_map]
    exact List.countP_congr fun c _ => by rw [Function.comp, isDecision_hollow]
  rw [hhollow, hhollow, h]

/-- **The complexity of a function counts the decisions of its scope.**  The walk lists the places
below the body that have no function above them, in pre-order and each of them once, and the
complexity is one more than the decisions there.  It stays the same whatever stands inside the
functions nested in the body.  A body that is a function itself, as that of an arrow function may
be, is not among these: what stands inside it counts. -/
theorem complexity_of_scope {f body : Node} (hbody : body? f = some body) :
    let scope := openPlaces body.children
    walkScope body = scope.map Place.node ∧
      (∀ p, p ∈ scope ↔
        Way body.children p.node p.above ∧ ∀ k ∈ p.above, isScope k = false) ∧
      (((Node.preorderList body.children).map Node.index).Pairwise (· < ·) →
        ((walkScope body).map Node.index).Pairwise (· < ·)) ∧
      complexity f = 1 + scope.countP (fun p => isDecision p.node) ∧
      ∀ f' body', body? f' = some body' →
        body'.children.map hollow = body.children.map hollow → complexity f' = complexity f := by
  intro scope
  have hwalk : walkScope body = scope.map Place.node := walkScope_eq body
  refine ⟨hwalk, fun _ => mem_openPlaces_iff, fun hindex => ?_, ?_, fun f' body' hbody' hsame => ?_⟩
  · rw [hwalk]
    rw [← map_node_placesIn []] at hindex
    exact hindex.sublist ((List.filter_sublist.map _).map _)
  · rw [complexity_eq hbody, hwalk, List.countP_map]
    rfl
  · rw [complexity_eq hbody', complexity_eq hbody, countP_walkScope_congr hsame]

/-- A node of a kind, with an index and children. -/
def numbered (kind : String) (index : Nat) (children : List Node) : Node :=
  { kind, span := { startLine := 1 }, index, children }

/-- A function with a branch, and beside it a closure with something in it. -/
def withClosure (inside : List Node) : Node :=
  numbered "function_definition" 0 [numbered "compound_statement" 1
    [numbered "if_statement" 2 [], numbered "anonymous_function" 3 inside]]

/-- A branch inside the closure does not count. -/
theorem complexity_of_withClosure :
    let f := withClosure []
    let f' := withClosure [numbered "if_statement" 4 []]
    ∃ body body', body? f = some body ∧ body? f' = some body' ∧
      ((Node.preorderList body.children).map Node.index).Pairwise (· < ·) ∧
      ((walkScope body).map Node.index).Pairwise (· < ·) ∧
      body'.children.map hollow = body.children.map hollow ∧ complexity f' = complexity f := by
  intro f f'
  have hbody : body? f = some _ := rfl
  obtain ⟨_, _, hindex, _, hnested⟩ := complexity_of_scope hbody
  exact ⟨_, _, hbody, rfl, by decide, hindex (by decide), rfl, hnested f' _ rfl rfl⟩

end PhpAudit.Quality.FunctionSize
