/-
Walks through syntax trees.

A walk enters every node before its children and leaves it after them.  A visitor is told of each
entry and exit; its answer can pass over the children of a node or end the walk.  The walk itself
runs on a stack of entries and exits that are still to come, so its depth is not bounded by the
depth of the call stack.
-/

import PhpAudit.Walk.Trail

set_option autoImplicit false

namespace PhpAudit.Walk

/-- What a visitor answers. -/
inductive Action where
  | proceed
  /-- The children of the node are passed over. -/
  | skipChildren
  /-- The walk ends at once. -/
  | stop
  deriving DecidableEq, Inhabited

/-- A visitor with a state of its own, which every call may change. -/
structure Visitor (σ : Type) where
  before : σ → List Node → Action × σ := fun s _ => (.proceed, s)
  enter : σ → Node → Trail → Action × σ := fun s _ _ => (.proceed, s)
  leave : σ → Node → Trail → Action × σ := fun s _ _ => (.proceed, s)
  after : σ → List Node → σ := fun s _ => s

/-- How a walk goes. -/
structure Options where
  maxDepth : Int := 500
  /-- Nodes of these kinds are passed over with all below them. -/
  skipKinds : List String := []
  /-- If any are given, only nodes of these kinds are shown to the visitor. -/
  onlyKinds : List String := []
  trackTrail : Bool := true
  countNodes : Bool := true

/-- Whether the visitor is shown nodes of a kind. -/
def Options.shows (o : Options) (kind : String) : Bool :=
  o.onlyKinds.isEmpty || o.onlyKinds.contains kind

/-- A node that is still to be entered or to be left. -/
inductive Task where
  | enter (node : Node) (depth : Nat)
  | leave (node : Node) (depth : Nat)

/-- What the tasks of a stack still amount to. -/
def Task.weight : Task → Nat
  | enter n _ => 2 * n.size
  | leave _ _ => 1

/-- The weight of a whole stack. -/
def weight : List Task → Nat
  | [] => 0
  | t :: rest => t.weight + weight rest

theorem weight_append (xs ys : List Task) : weight (xs ++ ys) = weight xs + weight ys := by
  induction xs with
  | nil => simp [weight]
  | cons x xs ih => simp [weight, ih, Nat.add_assoc]

/-- The tasks to enter several nodes from left to right. -/
def enterAll (ns : List Node) (depth : Nat) : List Task :=
  ns.map fun n => Task.enter n depth

theorem weight_enterAll (ns : List Node) (depth : Nat) :
    weight (enterAll ns depth) = 2 * Node.sizeList ns := by
  induction ns with
  | nil => rfl
  | cons n ns ih =>
      simp only [enterAll, List.map_cons, weight, Task.weight, Node.sizeList] at ih ⊢
      omega

/-- The visitor's answer to an entry, if the node is shown to it. -/
def callEnter {σ : Type} (v : Visitor σ) (o : Options) (s : σ) (n : Node) (t : Trail) :
    Action × σ :=
  if o.shows n.kind then v.enter s n t else (.proceed, s)

/-- The visitor's answer to an exit, if the node is shown to it. -/
def callLeave {σ : Type} (v : Visitor σ) (o : Options) (s : σ) (n : Node) (t : Trail) :
    Action × σ :=
  if o.shows n.kind then v.leave s n t else (.proceed, s)

/-- The walk over the tasks of a stack. -/
def run {σ : Type} (v : Visitor σ) (o : Options) (s : σ) (t : Trail) : List Task → σ × Trail
  | [] => (s, t)
  | .leave n _ :: rest =>
    match callLeave v o s n t with
    | (.stop, s') => (s', { t.pop with stopped := true })
    | (_, s') => run v o s' t.pop rest
  | .enter n depth :: rest =>
    if o.skipKinds.contains n.kind then run v o s t rest
    else
      let here := t.push n depth
      let here := if o.countNodes then here.record n depth else here
      match callEnter v o s n here with
      | (.stop, s') => (s', { here.pop with stopped := true })
      | (.skipChildren, s') => run v o s' here (.leave n depth :: rest)
      | (.proceed, s') =>
        if n.children.isEmpty then run v o s' here (.leave n depth :: rest)
        else if o.maxDepth < (depth : Int) + 1 then
          run v o s' { here with limitHits := here.limitHits + 1 } (.leave n depth :: rest)
        else
          run v o s' here (enterAll n.children (depth + 1) ++ .leave n depth :: rest)
termination_by tasks => weight tasks
decreasing_by
  all_goals simp only [weight, Task.weight, weight_append, weight_enterAll, Node.size_eq]
  all_goals omega

/-- A walk over several trees, with the visitor's state and the trail at its end. -/
def traverse {σ : Type} (v : Visitor σ) (o : Options) (s : σ) (roots : List Node) : σ × Trail :=
  let start : Trail := { tracking := o.trackTrail }
  match v.before s roots with
  | (.stop, s') => (s', { start with stopped := true })
  | (_, s') =>
    let r := run v o s' start (enterAll roots 0)
    (v.after r.1 roots, r.2)

end PhpAudit.Walk
