/-
**The walk over a stack is the depth-first search.**

`Walk.run` keeps the entries and exits that are still to come on a stack, so that its depth is not
bounded by that of the call stack.  `Walk.explore` is the same walk by recursion.  The two make the
same calls of every visitor, in the same order and with the same trail, whatever the visitor answers
and however its answers depend on what it has seen.

The calls of a visitor show in the state of `Walk.Visitor.logged`, the final state in that of the
visitor itself.  Both are read off the course of the search, so the comparison is made once, for
every visitor whose state can be read off it.

Main definitions:

* `Walk.Mirrors`, `Walk.Echoes` — a visitor whose state can be read off the calls and the state of
  another.

Main results:

* `Walk.run_enter`, `Walk.Mirrors.run` — the stack does what the recursion does, whatever is below
  on the stack;
* `Walk.Echoes.traverse` — a whole walk is a whole search;
* `Walk.traverse_refines_depthFirst` — **the walk is the search, each node is entered at most once,
  and each exit matches its entry**.
-/

import PhpAudit.Proofs.Walk.DepthFirst

set_option autoImplicit false

namespace PhpAudit.Walk

variable {σ : Type}

/-! ### Visitors that echo another -/

/-- A visitor that answers calls as another one, with a state that can be told from the calls and
the state of the other. -/
structure Mirrors {τ : Type} (v : Visitor σ) (w : Visitor τ) (view : List Call → σ → τ) : Prop where
  respond : ∀ phase calls s n t, w.respond phase (view calls s) n t =
    ((v.respond phase s n t).1,
      view (calls ++ [⟨phase, n, t, (v.respond phase s n t).1⟩]) (v.respond phase s n t).2)

/-- The same for a whole walk. -/
structure Echoes {τ : Type} (v : Visitor σ) (w : Visitor τ) (view : List Call → σ → τ) : Prop
    extends Mirrors v w view where
  before : ∀ s roots, w.before (view [] s) roots =
    ((v.before s roots).1, view [] (v.before s roots).2)
  after : ∀ calls s roots, w.after (view calls s) roots = view calls (v.after s roots)

theorem echoes_self (v : Visitor σ) : Echoes v v fun _ s => s where
  before _ _ := rfl
  respond _ _ _ _ _ := rfl
  after _ _ _ := rfl

theorem echoes_logged (v : Visitor σ) : Echoes v v.logged fun calls s => (calls, s) where
  before _ _ := rfl
  respond phase _ _ _ _ := by cases phase <;> rfl
  after _ _ _ := rfl

section Stack

variable {τ : Type} {v : Visitor σ} {w : Visitor τ} {view : List Call → σ → τ} {o : Options} {s : σ}
  {unclosed : List Call} {above : List Node} {c : Course σ} {n : Node}

/-- What the other visitor comes to in a course. -/
def Course.seen (view : List Call → σ → τ) (c : Course σ) : τ × Trail :=
  (view c.calls c.state, c.trail)

/-- The walk of the other visitor that goes on with a course. -/
def Course.run (w : Visitor τ) (view : List Call → σ → τ) (o : Options) (tasks : List Task)
    (c : Course σ) : τ × Trail :=
  Walk.run w o (view c.calls c.state) c.trail tasks

/-- What comes of a part of a search that goes on in some way unless it was stopped. -/
def resume (view : List Call → σ → τ) (k : Course σ → τ × Trail) :
    Except (Course σ) (Course σ) → τ × Trail
  | .ok c => k c
  | .error c => c.seen view

theorem resume_bind (k : Course σ → τ × Trail) (x : Except (Course σ) (Course σ))
    (f : Course σ → Except (Course σ) (Course σ)) :
    resume view k (x >>= f) = resume view (fun c => resume view k (f c)) x := by
  cases x with
  | ok c => rfl
  | error c => rfl

theorem Mirrors.callEnter (hw : Mirrors v w view) (o : Options) (c : Course σ) (n : Node) :
    callEnter w o (view c.calls c.state) n c.trail =
      ((c.tell v o .entry n).1,
        view (c.tell v o .entry n).2.calls (c.tell v o .entry n).2.state) := by
  unfold Walk.callEnter Course.tell
  split
  · exact hw.respond .entry c.calls c.state n c.trail
  · rfl

theorem Mirrors.callLeave (hw : Mirrors v w view) (o : Options) (c : Course σ) (n : Node) :
    callLeave w o (view c.calls c.state) n c.trail =
      ((c.tell v o .exit n).1,
        view (c.tell v o .exit n).2.calls (c.tell v o .exit n).2.state) := by
  unfold Walk.callLeave Course.tell
  split
  · exact hw.respond .exit c.calls c.state n c.trail
  · rfl

/-- A change of the frames that leads from one way to another leads the search there. -/
theorem Course.Along.moved (h : c.Along v o s unclosed above) {g : List Frame → List Frame}
    {way : List Node} (hg : g (framesOf above) = framesOf way) :
    (if c.trail.tracking then { c.trail with frames := g c.trail.frames } else c.trail) =
      (c.facing o way).trail := by
  cases htrack : o.trackTrail with
  | true =>
      have hframes : c.trail.frames = framesOf above := by
        simpa [Options.frames, htrack] using h.frames
      rw [if_pos (h.tracking.trans htrack), hframes, hg]
      simp [Course.facing, Options.frames, htrack]
  | false =>
      have hframes : c.trail.frames = [] := by simpa [Options.frames, htrack] using h.frames
      rw [if_neg (by simp [h.tracking, htrack])]
      simp [Course.facing, Options.frames, htrack, ← hframes]

theorem Course.Along.push (h : c.Along v o s unclosed above) (n : Node) :
    c.trail.push n above.length = (c.facing o (n :: above)).trail :=
  h.moved (g := (⟨n, above.length⟩ :: ·)) rfl

theorem Course.Along.pop (h : c.Along v o s unclosed (n :: above)) :
    c.trail.pop = (c.facing o above).trail :=
  h.moved (g := List.drop 1) rfl

theorem reach_trail (c : Course σ) (o : Options) (above : List Node) (n : Node) :
    (if o.countNodes then (c.facing o (n :: above)).trail.record n above.length
      else (c.facing o (n :: above)).trail) = (c.reach o above n).trail := by
  unfold Course.reach
  dsimp only
  split <;> rfl

/-- An exit on top of the stack. -/
theorem run_leave (hw : Mirrors v w view) (h : c.Along v o s unclosed (n :: above)) (depth : Nat)
    (rest : List Task) :
    c.run w view o (.leave n depth :: rest) =
      resume view (Course.run w view o rest) (c.depart v o above n) := by
  have htrail := c.tell_trail (v := v) (o := o) (n := n) .exit
  unfold Course.run Course.depart
  rw [Walk.run, hw.callLeave, h.pop]
  cases htell : c.tell v o .exit n with
  | mk answer c' =>
      rw [htell] at htrail
      cases answer <;> simp [resume, Course.seen, Course.halt, Course.facing, ← htrail]

/-- An entry on top of the stack: the visitor is told first. -/
theorem run_entry (hw : Mirrors v w view) (h : c.Along v o s unclosed above) (n : Node)
    (rest : List Task) (hkind : o.skipKinds.contains n.kind = false) :
    c.run w view o (.enter n above.length :: rest) =
      match (c.reach o above n).tell v o .entry n with
      | (.stop, c') => (c'.halt o above).seen view
      | (.skipChildren, c') => c'.run w view o (.leave n above.length :: rest)
      | (.proceed, c') =>
        if n.children.isEmpty then c'.run w view o (.leave n above.length :: rest)
        else if o.maxDepth < (above.length : Int) + 1 then
          (c'.cutShort n.children).run w view o (.leave n above.length :: rest)
        else
          c'.run w view o
            (enterAll n.children (above.length + 1) ++ .leave n above.length :: rest) := by
  have htrail := (c.reach o above n).tell_trail (v := v) (o := o) (n := n) .entry
  have hcall := hw.callEnter o (c.reach o above n) n
  rw [Course.reach_calls, Course.reach_state] at hcall
  change Walk.run w o (view c.calls c.state) c.trail (.enter n above.length :: rest) = _
  rw [Walk.run, h.push n, hkind, if_neg Bool.false_ne_true]
  simp only [reach_trail]
  rw [hcall, (h.reach n).pop]
  cases htell : (c.reach o above n).tell v o .entry n with
  | mk answer c' =>
      rw [htell] at htrail
      cases answer with
      | stop => simp [Course.seen, Course.halt, Course.facing, ← htrail]
      | skipChildren => simp [Course.run, ← htrail]
      | proceed =>
          simp only [Course.run, ← htrail]
          split
          · rfl
          · rename_i hchildren
            simp [Course.cutShort, hchildren]

/-- **The stack does what the recursion does.** -/
theorem run_enter (hw : Mirrors v w view) :
    (∀ n above c unclosed rest, c.Along v o s unclosed above →
      c.run w view o (.enter n above.length :: rest) =
        resume view (Course.run w view o rest) (explore v o above c n)) ∧
    ∀ ns above c unclosed rest, c.Along v o s unclosed above →
      c.run w view o (enterAll ns above.length ++ rest) =
        resume view (Course.run w view o rest) (exploreAll v o above c ns) := by
  refine Node.forest_induction ?_ ?_ ?_
  · intro n ih above c unclosed rest h
    rw [explore_eq]
    cases hkind : o.skipKinds.contains n.kind with
    | true =>
        change Walk.run w o (view c.calls c.state) c.trail (.enter n above.length :: rest) = _
        rw [Walk.run, if_pos hkind]
        rfl
    | false =>
        rw [if_neg Bool.false_ne_true, run_entry hw h n rest hkind]
        rcases (h.reach n).enter with ⟨c', htell, _⟩ | ⟨answer, c', opened, htell, hgo, halong, _⟩
        · rw [htell]
          rfl
        · rw [htell]
          cases answer with
          | stop => exact absurd rfl hgo
          | skipChildren => exact run_leave hw halong above.length rest
          | proceed =>
              simp only [resume_bind]
              split
              · rename_i hchildren
                rw [List.isEmpty_iff.1 hchildren]
                simp only [exploreAll, Course.cutShort, List.isEmpty_nil, if_true, ite_self]
                exact run_leave hw halong above.length rest
              · split
                · exact run_leave hw (halong.cutShort n.children) above.length rest
                · -- the children come first, then the exit below them on the stack
                  have hbelow := ih (n :: above) c' opened (.leave n above.length :: rest) halong
                  have hends := explore_ends.2 n.children (n :: above) c' opened halong
                  rw [List.length_cons] at hbelow
                  rw [hbelow]
                  cases hall : exploreAll v o (n :: above) c' n.children with
                  | ok c'' =>
                      rw [hall] at hends
                      exact run_leave hw hends above.length rest
                  | error c'' => rfl
  · exact fun above c unclosed rest h => rfl
  · intro n ns ihn ihns above c unclosed rest h
    have hends := explore_ends.1 n above c unclosed h
    rw [exploreAll, resume_bind, enterAll, List.map_cons, List.cons_append,
      ihn above c unclosed _ h]
    cases hfirst : explore v o above c n with
    | ok c' =>
        rw [hfirst] at hends
        exact ihns above c' unclosed rest hends
    | error c' => rfl

/-- The stack does what the recursion does from the roots on. -/
theorem Mirrors.run (hw : Mirrors v w view) (o : Options) (s : σ) (roots : List Node) :
    Walk.run w o (view [] s) { tracking := o.trackTrail } (enterAll roots 0) =
      (Course.ofEnd (exploreAll v o [] (Course.start o s) roots)).seen view := by
  have hrun := (run_enter hw).2 roots [] (Course.start o s) [] [] (along_start v o s)
  rw [List.append_nil] at hrun
  refine hrun.trans ?_
  cases exploreAll v o [] (Course.start o s) roots with
  | ok c => simp [resume, Course.run, Walk.run, Course.ofEnd, Course.seen]
  | error c => rfl

end Stack

/-- The walk of a visitor that echoes another one is the search of the other. -/
theorem Echoes.traverse {τ : Type} {v : Visitor σ} {w : Visitor τ} {view : List Call → σ → τ}
    (hw : Echoes v w view) (o : Options) (s : σ) (roots : List Node) :
    Walk.traverse w o (view [] s) roots = (depthFirst v o s roots).seen view := by
  have hgo := fun s' => hw.run o s' roots
  unfold Walk.traverse depthFirst
  rw [hw.before]
  cases hbefore : v.before s roots with
  | mk answer s' =>
      cases answer with
      | stop => simp [Course.seen, Course.start, Course.halt, frames_nil]
      | proceed => simp [hgo, Course.seen, hw.after]
      | skipChildren => simp [hgo, Course.seen, hw.after]

/-! ### The refinement -/

/-- A search that is not stopped closes every entry. -/
theorem depthFirst_nested (v : Visitor σ) (o : Options) (s : σ) (roots : List Node) :
    ∃ unclosed, Nested (depthFirst v o s roots).calls unclosed ∧
      ((depthFirst v o s roots).trail.stopped = false → unclosed = []) := by
  rcases depthFirst_cases v o s roots with ⟨s', _, heq⟩ | ⟨_, s', c, _, _, heq, halong | hhalted, _⟩
  · rw [heq]
    exact ⟨[], .nil, fun _ => rfl⟩
  · rw [heq]
    exact ⟨[], halong.nested, fun _ => rfl⟩
  · rw [heq]
    obtain ⟨unclosed, hnested⟩ := hhalted.nested
    refine ⟨unclosed, hnested, fun hgo => ?_⟩
    rw [hhalted.stopped] at hgo
    exact absurd hgo (by decide)

/-- Nothing is called after a call that stops the search. -/
theorem depthFirst_stop (v : Visitor σ) (o : Options) (s : σ) (roots : List Node)
    {earlier later : List Call} {call : Call}
    (hcalls : (depthFirst v o s roots).calls = earlier ++ call :: later)
    (hstop : call.answer = .stop) :
    later = [] ∧ (depthFirst v o s roots).trail.stopped = true := by
  rcases depthFirst_cases v o s roots with ⟨s', _, heq⟩ | ⟨_, s', c, _, _, heq, halong | hhalted, _⟩
  · rw [heq] at hcalls
    exact absurd hcalls (by simp [Course.halt, Course.start])
  · rw [heq] at hcalls
    have hmem : call ∈ c.calls := by simp [show c.calls = _ from hcalls]
    exact absurd hstop (halong.unstopped call hmem)
  · rw [heq] at hcalls ⊢
    obtain ⟨before, last, above, hlast, _, hbefore, _⟩ := hhalted.last
    refine ⟨?_, hhalted.stopped⟩
    have hsplit : before ++ [last] = earlier ++ call :: later := hlast.symm.trans hcalls
    -- only the last call stops the search, so no call comes after one that does
    rcases List.eq_nil_or_concat later with hnil | ⟨init, x, hconcat⟩
    · exact hnil
    · rw [hconcat, List.concat_eq_append, ← List.cons_append, ← List.append_assoc] at hsplit
      have hinit := List.append_inj_left' hsplit rfl
      exact absurd hstop (hbefore call (by simp [hinit]))

/-- **The walk is the search.**  For every visitor, whatever its answers depend on, and for all
options, the walk over the stack makes the calls of the depth-first search, and ends with the same
state of the visitor and the same trail.  Each place is entered at most once, in pre-order.  Each
exit belongs to the latest entry that has none yet, and none is missing unless the search was
stopped.  A visitor that refuses the forest is not called, and nothing is called after a call that
stops the search. -/
theorem traverse_refines_depthFirst (v : Visitor σ) (o : Options) (s : σ) (roots : List Node) :
    let c := depthFirst v o s roots
    traverse v.logged o ([], s) roots = ((c.calls, c.state), c.trail) ∧
      traverse v o s roots = (c.state, c.trail) ∧
      ((entries c.calls).map Call.node).Sublist (Node.preorderList roots) ∧
      (∃ unclosed, Nested c.calls unclosed ∧ (c.trail.stopped = false → unclosed = [])) ∧
      ((v.before s roots).1 = .stop →
        c.calls = [] ∧ c.state = (v.before s roots).2 ∧ c.trail.stopped = true) ∧
      ∀ earlier call later, c.calls = earlier ++ call :: later → call.answer = .stop →
        later = [] ∧ c.trail.stopped = true := by
  intro c
  refine ⟨(echoes_logged v).traverse o s roots, (echoes_self v).traverse o s roots, ?_,
    depthFirst_nested v o s roots, ?_, fun _ _ _ => depthFirst_stop v o s roots⟩
  · rcases depthFirst_cases v o s roots with ⟨s', _, heq⟩ | ⟨_, s', c', _, _, heq, _, hplaces⟩
    · simp [c, heq, Course.halt, Course.start, entries]
    · have hnodes := hplaces.map Prod.fst
      rw [List.map_map] at hnodes
      simpa [c, heq, Course.entered, Function.comp_def, Call.standpoint, Place.standpoint,
        ← map_node_placesIn [] roots] using hnodes
  · intro hstop
    rcases depthFirst_cases v o s roots with ⟨s', hbefore, heq⟩ | ⟨_, s', c', hbefore, hgo, _⟩
    · simp [c, heq, hbefore, Course.halt, Course.start]
    · rw [hbefore] at hstop
      exact absurd hstop hgo

end PhpAudit.Walk
