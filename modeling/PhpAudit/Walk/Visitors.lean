/-
Visitors for common tasks.
-/

import PhpAudit.Walk.Basic

set_option autoImplicit false

namespace PhpAudit.Walk

/-- Gathers the nodes that pass a test, in the order in which they are entered. -/
def collecting (test : Node → Bool) : Visitor (List Node) :=
  { before := fun _ _ => (.proceed, [])
    enter := fun found n _ => (.proceed, if test n then found ++ [n] else found) }

/-- Ends the walk at the first node that passes a test. -/
def finding (test : Node → Bool) : Visitor (Option Node) :=
  { before := fun _ _ => (.proceed, none)
    enter := fun found n _ => if test n then (.stop, some n) else (.proceed, found) }

/-- The common answer of several visitors: one may end the walk, and only all of them together pass
over the children of a node. -/
def combine (actions : List Action) : Action :=
  if actions.contains .stop then .stop
  else if !actions.isEmpty && actions.all (· == .skipChildren) then .skipChildren
  else .proceed

/-- The answers and the states after each visitor was called with its state. -/
def callAll {σ : Type} (call : Visitor σ → σ → Action × σ) (vs : List (Visitor σ)) (ss : List σ) :
    Action × List σ :=
  let answers := List.zipWith call vs ss
  (combine (answers.map Prod.fst), answers.map Prod.snd)

/-- Several visitors in one walk, each with its own state. -/
def composite {σ : Type} (vs : List (Visitor σ)) : Visitor (List σ) :=
  { before := fun ss roots => callAll (fun v s => v.before s roots) vs ss
    enter := fun ss n t => callAll (fun v s => v.enter s n t) vs ss
    leave := fun ss n t => callAll (fun v s => v.leave s n t) vs ss
    after := fun ss roots => List.zipWith (fun v s => v.after s roots) vs ss }

/-- The visitor on the part of a state that `get` reads and `put` writes. -/
def Visitor.within {σ τ : Type} (v : Visitor σ) (get : τ → σ) (put : σ → τ) : Visitor τ :=
  { before := fun s roots => let r := v.before (get s) roots; (r.1, put r.2)
    enter := fun s n t => let r := v.enter (get s) n t; (r.1, put r.2)
    leave := fun s n t => let r := v.leave (get s) n t; (r.1, put r.2)
    after := fun s roots => put (v.after (get s) roots) }

end PhpAudit.Walk
