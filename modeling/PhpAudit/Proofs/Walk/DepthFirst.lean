/-
Depth-first search of a forest, by recursion.

A walk can be said in one sentence: a node is entered, then its children are searched from left to
right, then it is left.  This module writes that sentence down as a recursion, in which the nodes
above a node are an argument and not a stack that is pushed and popped, and proves what every search
keeps.  That the walk over a stack does the same is `Proofs/Walk/Refinement`.

A visitor that stops a search does so by an exception: `Walk.explore` fails with the course of the
search up to that call, and nothing that would have come later is run.

Main definitions:

* `Walk.Call`, `Walk.Visitor.logged` — calls of a visitor, and the visitor that writes them down;
* `Walk.Course`, `Walk.explore`, `Walk.depthFirst` — the search;
* `Walk.Nested` — every exit belongs to the latest entry that has none yet.

Main results:

* `Walk.explore_ends` — **what a search keeps, and how it stops**;
* `Walk.gains_explore` — **each place is entered at most once, and in pre-order**;
* `Walk.depthFirst_cases` — the ways in which a whole search can end.
-/

import PhpAudit.Proofs.Walk.Places
import PhpAudit.Walk.Basic

set_option autoImplicit false

namespace PhpAudit.Walk

variable {σ : Type}

/-! ### Calls -/

/-- Whether a node is entered or left. -/
inductive Phase where
  | entry
  | exit
  deriving DecidableEq

/-- A call of a visitor: what it was told, and what it answered. -/
structure Call where
  phase : Phase
  node : Node
  trail : Trail
  answer : Action

/-- Where a call was made: the node, and the frames that the visitor saw. -/
def Call.standpoint (c : Call) : Node × List Frame :=
  (c.node, c.trail.frames)

/-- The calls at which nodes were entered. -/
def entries (calls : List Call) : List Call :=
  calls.filter fun c => c.phase = .entry

/-- What a visitor answers when a node is entered or left. -/
def Visitor.respond (v : Visitor σ) : Phase → σ → Node → Trail → Action × σ
  | .entry => v.enter
  | .exit => v.leave

/-- The visitor that also writes down its calls. -/
def Visitor.logged (v : Visitor σ) : Visitor (List Call × σ) :=
  let log (phase : Phase) (s : List Call × σ) (n : Node) (t : Trail) : Action × List Call × σ :=
    let r := v.respond phase s.2 n t
    (r.1, s.1 ++ [⟨phase, n, t, r.1⟩], r.2)
  { before := fun s roots => let r := v.before s.2 roots; (r.1, s.1, r.2)
    enter := log .entry
    leave := log .exit
    after := fun s roots => (s.1, v.after s.2 roots) }

/-- The state of a visitor after some calls. -/
def replay (v : Visitor σ) (s : σ) (calls : List Call) : σ :=
  calls.foldl (fun s c => (v.respond c.phase s c.node c.trail).2) s

/-! ### The search -/

/-- How far a search has come: the calls so far, the visitor's state and the trail. -/
structure Course (σ : Type) where
  calls : List Call := []
  state : σ
  trail : Trail

/-- The frames that a visitor is shown. -/
def Options.frames (o : Options) (way : List Node) : List Frame :=
  if o.trackTrail then framesOf way else []

namespace Course

/-- The search stands at the innermost of some nodes. -/
def facing (c : Course σ) (o : Options) (way : List Node) : Course σ :=
  { c with trail := { c.trail with frames := o.frames way } }

/-- The search comes to a node below the given ones, which is counted. -/
def reach (c : Course σ) (o : Options) (above : List Node) (n : Node) : Course σ :=
  let here := c.facing o (n :: above)
  if o.countNodes then { here with trail := here.trail.record n above.length } else here

/-- Children are left out because of the depth limit. -/
def cutShort (c : Course σ) (children : List Node) : Course σ :=
  if children.isEmpty then c
  else { c with trail := { c.trail with limitHits := c.trail.limitHits + 1 } }

/-- The call that tells the visitor of a node. -/
def call (c : Course σ) (v : Visitor σ) (phase : Phase) (n : Node) : Call :=
  ⟨phase, n, c.trail, (v.respond phase c.state n c.trail).1⟩

/-- The course after that call. -/
def told (c : Course σ) (v : Visitor σ) (phase : Phase) (n : Node) : Course σ :=
  { c with
    calls := c.calls ++ [c.call v phase n]
    state := (v.respond phase c.state n c.trail).2 }

/-- The visitor is told of a node, unless nodes of its kind are not shown. -/
def tell (c : Course σ) (v : Visitor σ) (o : Options) (phase : Phase) (n : Node) :
    Action × Course σ :=
  if o.shows n.kind then ((c.call v phase n).answer, c.told v phase n) else (.proceed, c)

/-- The search ends among the nodes above the one that it stands at. -/
def halt (c : Course σ) (o : Options) (above : List Node) : Course σ :=
  { c with trail := { c.trail with frames := o.frames above, stopped := true } }

/-- A node is left for those above it. -/
def depart (c : Course σ) (v : Visitor σ) (o : Options) (above : List Node) (n : Node) :
    Except (Course σ) (Course σ) :=
  match c.tell v o .exit n with
  | (.stop, c) => .error (c.halt o above)
  | (_, c) => .ok (c.facing o above)

end Course

mutual

/-- The search of a node that stands below the given nodes.  It fails with the course up to the call
at which the visitor stopped it. -/
def explore (v : Visitor σ) (o : Options) (above : List Node) (c : Course σ) :
    Node → Except (Course σ) (Course σ)
  | ⟨k, s, f, a, t, i, children⟩ =>
    let n : Node := ⟨k, s, f, a, t, i, children⟩
    if o.skipKinds.contains n.kind then .ok c
    else
      match (c.reach o above n).tell v o .entry n with
      | (.stop, c) => .error (c.halt o above)
      | (.skipChildren, c) => c.depart v o above n
      | (.proceed, c) =>
        let below :=
          if o.maxDepth < (above.length : Int) + 1 then .ok (c.cutShort children)
          else exploreAll v o (n :: above) c children
        below >>= fun c => c.depart v o above n

/-- The search of several nodes from left to right. -/
def exploreAll (v : Visitor σ) (o : Options) (above : List Node) (c : Course σ) :
    List Node → Except (Course σ) (Course σ)
  | [] => .ok c
  | n :: rest => explore v o above c n >>= fun c => exploreAll v o above c rest

end

/-- The course of a search up to its end, whether it was stopped or not. -/
def Course.ofEnd : Except (Course σ) (Course σ) → Course σ
  | .ok c => c
  | .error c => c

/-- A search that has only begun. -/
def Course.start (o : Options) (s : σ) : Course σ :=
  { state := s, trail := { tracking := o.trackTrail } }

/-- A whole search with its beginning and end. -/
def depthFirst (v : Visitor σ) (o : Options) (s : σ) (roots : List Node) : Course σ :=
  match v.before s roots with
  | (.stop, s) => (Course.start o s).halt o []
  | (_, s) =>
    let c := Course.ofEnd (exploreAll v o [] (Course.start o s) roots)
    { c with state := v.after c.state roots }

theorem explore_eq (v : Visitor σ) (o : Options) (above : List Node) (c : Course σ) (n : Node) :
    explore v o above c n =
      if o.skipKinds.contains n.kind then .ok c
      else
        match (c.reach o above n).tell v o .entry n with
        | (.stop, c) => .error (c.halt o above)
        | (.skipChildren, c) => c.depart v o above n
        | (.proceed, c) =>
          (if o.maxDepth < (above.length : Int) + 1 then .ok (c.cutShort n.children)
            else exploreAll v o (n :: above) c n.children) >>= fun c => c.depart v o above n := by
  cases n
  rw [explore]

/-! ### What a search keeps -/

/-- In the calls every exit belongs to the latest entry that has none yet; the entries that have
none at the end are listed, the latest first. -/
inductive Nested : List Call → List Call → Prop
  | nil : Nested [] []
  | entry {calls unclosed : List Call} {c : Call} (h : Nested calls unclosed)
      (hc : c.phase = .entry) : Nested (calls ++ [c]) (c :: unclosed)
  | exit {calls unclosed : List Call} {e c : Call} (h : Nested calls (e :: unclosed))
      (hc : c.phase = .exit) (hat : c.standpoint = e.standpoint) : Nested (calls ++ [c]) unclosed

/-- A search that goes on: it stands at the innermost of some nodes, and the entries of those that
are shown to the visitor have no exit yet. -/
structure Course.Along (v : Visitor σ) (o : Options) (s : σ) (unclosed : List Call)
    (way : List Node) (c : Course σ) : Prop where
  tracking : c.trail.tracking = o.trackTrail
  frames : c.trail.frames = o.frames way
  running : c.trail.stopped = false
  unstopped : ∀ call ∈ c.calls, call.answer ≠ .stop
  nested : Nested c.calls unclosed
  state : c.state = replay v s c.calls

/-- A search that was stopped: by its last call and by no other, and the trail has the nodes above
the one of that call. -/
structure Course.Halted (v : Visitor σ) (o : Options) (s : σ) (c : Course σ) : Prop where
  stopped : c.trail.stopped = true
  last : ∃ earlier last above, c.calls = earlier ++ [last] ∧ last.answer = .stop ∧
    (∀ call ∈ earlier, call.answer ≠ .stop) ∧
    last.trail.frames = o.frames (last.node :: above) ∧ c.trail.frames = o.frames above
  nested : ∃ unclosed, Nested c.calls unclosed
  state : c.state = replay v s c.calls

/-- How a part of a search may end. -/
def Ends (v : Visitor σ) (o : Options) (s : σ) (unclosed : List Call) (way : List Node) :
    Except (Course σ) (Course σ) → Prop
  | .ok c => c.Along v o s unclosed way
  | .error c => c.Halted v o s

section Keeping

variable {v : Visitor σ} {o : Options} {s : σ} {unclosed opened : List Call} {above way : List Node}
  {c : Course σ} {n : Node}

theorem Ends.bind {unclosed' : List Call} {way' : List Node} {x : Except (Course σ) (Course σ)}
    {f : Course σ → Except (Course σ) (Course σ)} (h : Ends v o s unclosed way x)
    (hf : ∀ c, c.Along v o s unclosed way → Ends v o s unclosed' way' (f c)) :
    Ends v o s unclosed' way' (x >>= f) := by
  cases x with
  | ok c => exact hf c h
  | error c => exact h

namespace Course

theorem tell_of_hidden (h : o.shows n.kind = false) (phase : Phase) :
    c.tell v o phase n = (.proceed, c) := by
  simp [tell, h]

theorem tell_of_shown (h : o.shows n.kind = true) (phase : Phase) :
    c.tell v o phase n = ((c.call v phase n).answer, c.told v phase n) := by
  simp [tell, h]

@[simp] theorem reach_calls (c : Course σ) (o : Options) (above : List Node) (n : Node) :
    (c.reach o above n).calls = c.calls := by
  unfold reach
  dsimp only
  split <;> rfl

@[simp] theorem reach_state (c : Course σ) (o : Options) (above : List Node) (n : Node) :
    (c.reach o above n).state = c.state := by
  unfold reach
  dsimp only
  split <;> rfl

@[simp] theorem reach_frames (c : Course σ) (o : Options) (above : List Node) (n : Node) :
    (c.reach o above n).trail.frames = o.frames (n :: above) := by
  unfold reach
  dsimp only
  split <;> rfl

@[simp] theorem cutShort_calls (c : Course σ) (children : List Node) :
    (c.cutShort children).calls = c.calls := by
  unfold cutShort
  split <;> rfl

/-- The trail stays as it is while the visitor is told of a node. -/
theorem tell_trail (phase : Phase) : (c.tell v o phase n).2.trail = c.trail := by
  unfold tell
  split <;> rfl

/-- What a search keeps does not depend on the counts. -/
theorem Along.of_eq {c' : Course σ} (h : c.Along v o s unclosed above)
    (hcalls : c'.calls = c.calls) (hstate : c'.state = c.state)
    (htracking : c'.trail.tracking = c.trail.tracking)
    (hstopped : c'.trail.stopped = c.trail.stopped) (hframes : c'.trail.frames = o.frames way) :
    c'.Along v o s unclosed way where
  tracking := htracking.trans h.tracking
  frames := hframes
  running := hstopped.trans h.running
  unstopped := hcalls ▸ h.unstopped
  nested := hcalls ▸ h.nested
  state := by rw [hstate, hcalls, h.state]

theorem Along.facing (h : c.Along v o s unclosed above) (way : List Node) :
    (c.facing o way).Along v o s unclosed way :=
  h.of_eq rfl rfl rfl rfl rfl

theorem Along.reach (h : c.Along v o s unclosed above) (n : Node) :
    (c.reach o above n).Along v o s unclosed (n :: above) := by
  unfold Course.reach
  dsimp only
  split
  · exact h.of_eq rfl rfl rfl rfl rfl
  · exact h.facing (n :: above)

theorem Along.cutShort (h : c.Along v o s unclosed way) (children : List Node) :
    (c.cutShort children).Along v o s unclosed way := by
  unfold Course.cutShort
  split
  · exact h
  · exact h.of_eq rfl rfl rfl rfl h.frames

theorem replay_concat (v : Visitor σ) (s : σ) (calls : List Call) (call : Call) :
    replay v s (calls ++ [call]) =
      (v.respond call.phase (replay v s calls) call.node call.trail).2 := by
  simp [replay]

theorem Along.told_state (h : c.Along v o s unclosed way) (phase : Phase) :
    (c.told v phase n).state = replay v s (c.told v phase n).calls := by
  simp only [told, replay_concat, call, h.state]

/-- A call that does not stop the search. -/
theorem Along.told {unclosed' : List Call} (h : c.Along v o s unclosed way) {phase : Phase}
    (hanswer : (c.call v phase n).answer ≠ .stop)
    (hnested : Nested (c.calls ++ [c.call v phase n]) unclosed') :
    (c.told v phase n).Along v o s unclosed' way where
  tracking := h.tracking
  frames := h.frames
  running := h.running
  unstopped := by
    intro call hcall
    rcases List.mem_append.1 hcall with hcall | hcall
    · exact h.unstopped call hcall
    · rw [List.mem_singleton.1 hcall]
      exact hanswer
  nested := hnested
  state := h.told_state phase

/-- A call that stops the search. -/
theorem Along.halted (h : c.Along v o s unclosed (n :: above)) {phase : Phase}
    (hanswer : (c.call v phase n).answer = .stop)
    (hnested : ∃ unclosed, Nested (c.calls ++ [c.call v phase n]) unclosed) :
    ((c.told v phase n).halt o above).Halted v o s where
  stopped := rfl
  last := ⟨c.calls, c.call v phase n, above, rfl, hanswer, h.unstopped, h.frames, rfl⟩
  nested := hnested
  state := h.told_state phase

/-- The entries that have no exit yet once a node is entered. -/
inductive Opened (o : Options) (n : Node) (above : List Node) (unclosed : List Call) :
    List Call → Prop
  | hidden (h : o.shows n.kind = false) : Opened o n above unclosed unclosed
  | shown (h : o.shows n.kind = true) {e : Call} (he : e.standpoint = (n, o.frames (n :: above))) :
      Opened o n above unclosed (e :: unclosed)

theorem Along.enter (h : c.Along v o s unclosed (n :: above)) :
    (∃ c', c.tell v o .entry n = (.stop, c') ∧ (c'.halt o above).Halted v o s) ∨
      ∃ answer c' opened, c.tell v o .entry n = (answer, c') ∧ answer ≠ .stop ∧
        c'.Along v o s opened (n :: above) ∧ Opened o n above unclosed opened := by
  cases hshown : o.shows n.kind with
  | false =>
      exact .inr ⟨.proceed, c, unclosed, tell_of_hidden hshown .entry, by decide, h, .hidden hshown⟩
  | true =>
      have hnested : Nested (c.calls ++ [c.call v .entry n]) (c.call v .entry n :: unclosed) :=
        .entry h.nested rfl
      rw [tell_of_shown hshown]
      by_cases hanswer : (c.call v .entry n).answer = .stop
      · exact .inl ⟨_, by rw [hanswer], h.halted hanswer ⟨_, hnested⟩⟩
      · refine .inr ⟨_, _, _, rfl, hanswer, h.told hanswer hnested, .shown hshown ?_⟩
        exact congrArg (n, ·) h.frames

theorem Along.depart (h : c.Along v o s opened (n :: above))
    (hopened : Opened o n above unclosed opened) :
    Ends v o s unclosed above (c.depart v o above n) := by
  unfold Course.depart
  cases hopened with
  | hidden hhidden =>
      rw [tell_of_hidden hhidden]
      exact h.facing above
  | shown hshown he =>
      have hat : (c.call v .exit n).standpoint = (n, o.frames (n :: above)) :=
        congrArg (n, ·) h.frames
      have hnested : Nested (c.calls ++ [c.call v .exit n]) unclosed :=
        .exit h.nested rfl (hat.trans he.symm)
      rw [tell_of_shown hshown]
      cases hanswer : (c.call v .exit n).answer with
      | stop => exact h.halted hanswer ⟨_, hnested⟩
      | proceed => exact (h.told (by simp [hanswer]) hnested).facing above
      | skipChildren => exact (h.told (by simp [hanswer]) hnested).facing above

end Course

/-- **What a search keeps, and how it stops.** -/
theorem explore_ends :
    (∀ n above c unclosed, c.Along v o s unclosed above →
      Ends v o s unclosed above (explore v o above c n)) ∧
    ∀ ns above c unclosed, c.Along v o s unclosed above →
      Ends v o s unclosed above (exploreAll v o above c ns) := by
  refine Node.forest_induction ?_ ?_ ?_
  · intro n ih above c unclosed h
    rw [explore_eq]
    split
    · exact h
    · rcases (h.reach n).enter with
        ⟨c', htell, hhalted⟩ | ⟨answer, c', opened, htell, hgo, halong, hopened⟩
      · rw [htell]
        exact hhalted
      · rw [htell]
        cases answer with
        | stop => exact absurd rfl hgo
        | skipChildren => exact halong.depart hopened
        | proceed =>
            have hbelow : Ends v o s opened (n :: above)
                (if o.maxDepth < (above.length : Int) + 1 then .ok (c'.cutShort n.children)
                  else exploreAll v o (n :: above) c' n.children) := by
              split
              · exact halong.cutShort n.children
              · exact ih (n :: above) c' opened halong
            exact hbelow.bind fun c'' hc'' => hc''.depart hopened
  · exact fun above c unclosed h => h
  · intro n ns ihn ihns above c unclosed h
    rw [exploreAll]
    exact (ihn above c unclosed h).bind fun c' hc' => ihns above c' unclosed hc'

end Keeping

theorem frames_nil (o : Options) : o.frames [] = [] := by
  unfold Options.frames framesOf
  exact ite_self []

theorem along_start (v : Visitor σ) (o : Options) (s : σ) :
    (Course.start o s).Along v o s [] [] where
  tracking := rfl
  frames := (frames_nil o).symm
  running := rfl
  unstopped := List.forall_mem_nil _
  nested := .nil
  state := rfl

/-! ### Which places are entered -/

/-- Where a visitor stands when it is told of a place. -/
def Place.standpoint (o : Options) (p : Place) : Node × List Frame :=
  (p.node, o.frames (p.node :: p.above))

/-- Where the nodes were entered. -/
def Course.entered (c : Course σ) : List (Node × List Frame) :=
  (entries c.calls).map Call.standpoint

/-- On the way from one course to another, some of the given places were entered, in their order. -/
def Gains (places : List (Node × List Frame)) (c c' : Course σ) : Prop :=
  ∃ new, new.Sublist places ∧ c'.entered = c.entered ++ new

section Gaining

variable {v : Visitor σ} {o : Options} {c c' c'' : Course σ}
  {places more : List (Node × List Frame)}

theorem gains_of_calls_eq (h : c'.calls = c.calls) : Gains places c c' :=
  ⟨[], List.nil_sublist places, by simp [Course.entered, h]⟩

theorem Gains.mono (h : Gains places c c') (hsub : places.Sublist more) : Gains more c c' := by
  obtain ⟨new, hnew, heq⟩ := h
  exact ⟨new, hnew.trans hsub, heq⟩

theorem Gains.trans (h : Gains places c c') (h' : Gains more c' c'') :
    Gains (places ++ more) c c'' := by
  obtain ⟨new, hnew, heq⟩ := h
  obtain ⟨new', hnew', heq'⟩ := h'
  exact ⟨new ++ new', hnew.append hnew', by rw [heq', heq, List.append_assoc]⟩

theorem gains_tell_entry (c : Course σ) (n : Node) :
    Gains [(n, c.trail.frames)] c (c.tell v o .entry n).2 := by
  unfold Course.tell
  split
  · exact ⟨_, List.Sublist.refl _, by simp [Course.entered, entries, Course.told, Course.call,
      Call.standpoint]⟩
  · exact gains_of_calls_eq rfl

theorem gains_tell_exit (c : Course σ) (n : Node) : Gains [] c (c.tell v o .exit n).2 := by
  unfold Course.tell
  split
  · exact ⟨[], List.Sublist.refl _, by simp [Course.entered, entries, Course.told, Course.call]⟩
  · exact gains_of_calls_eq rfl

theorem gains_depart (c : Course σ) (above : List Node) (n : Node) :
    Gains [] c (Course.ofEnd (c.depart v o above n)) := by
  have htell := gains_tell_exit (v := v) (o := o) c n
  unfold Course.depart
  split
  · rename_i c' hc'
    rw [hc'] at htell
    exact htell
  · rename_i c' _ hc'
    rw [hc'] at htell
    exact htell

theorem gains_bind {x : Except (Course σ) (Course σ)} {f : Course σ → Except (Course σ) (Course σ)}
    (hx : Gains places c (Course.ofEnd x)) (hf : ∀ c', Gains more c' (Course.ofEnd (f c'))) :
    Gains (places ++ more) c (Course.ofEnd (x >>= f)) := by
  cases x with
  | ok c' => exact hx.trans (hf c')
  | error c' => exact hx.mono (List.sublist_append_left places more)

/-- A search enters each place at most once, and in pre-order. -/
theorem gains_explore :
    (∀ n above (c : Course σ), Gains ((placesOf above n).map (Place.standpoint o)) c
      (Course.ofEnd (explore v o above c n))) ∧
    ∀ ns above (c : Course σ), Gains ((placesIn above ns).map (Place.standpoint o)) c
      (Course.ofEnd (exploreAll v o above c ns)) := by
  refine Node.forest_induction ?_ ?_ ?_
  · intro n ih above c
    rw [explore_eq, placesOf_eq, List.map_cons]
    split
    · exact gains_of_calls_eq rfl
    · have hentry : Gains [Place.standpoint o ⟨n, above⟩] c
          ((c.reach o above n).tell v o .entry n).2 := by
        have hreach : Gains [] c (c.reach o above n) := gains_of_calls_eq (c.reach_calls o above n)
        have htold := gains_tell_entry (v := v) (o := o) (c.reach o above n) n
        rw [c.reach_frames] at htold
        exact hreach.trans htold
      generalize (c.reach o above n).tell v o .entry n = r at hentry ⊢
      obtain ⟨answer, c'⟩ := r
      cases answer with
      | stop => exact hentry.mono (List.Sublist.cons_cons _ (List.nil_sublist _))
      | skipChildren =>
          exact (hentry.trans (gains_depart c' above n)).mono
            (List.Sublist.cons_cons _ (List.nil_sublist _))
      | proceed =>
          have hbelow : Gains ((placesIn (n :: above) n.children).map (Place.standpoint o)) c'
              (Course.ofEnd
                (if o.maxDepth < (above.length : Int) + 1 then .ok (c'.cutShort n.children)
                  else exploreAll v o (n :: above) c' n.children)) := by
            split
            · exact gains_of_calls_eq (c'.cutShort_calls n.children)
            · exact ih (n :: above) c'
          have hrest := gains_bind hbelow fun c'' => gains_depart (v := v) (o := o) c'' above n
          rw [List.append_nil] at hrest
          exact hentry.trans hrest
  · exact fun above c => gains_of_calls_eq rfl
  · intro n ns ihn ihns above c
    rw [exploreAll, placesIn, List.map_append]
    exact gains_bind (ihn above c) fun c' => ihns above c'

end Gaining

/-- **The ways in which a whole search can end.**  It is refused before it begins, or it goes on to
its end or to the call that stops it. -/
theorem depthFirst_cases (v : Visitor σ) (o : Options) (s : σ) (roots : List Node) :
    (∃ s', v.before s roots = (.stop, s') ∧
      depthFirst v o s roots = (Course.start o s').halt o []) ∨
    ∃ (answer : Action) (s' : σ) (c : Course σ), v.before s roots = (answer, s') ∧
      answer ≠ .stop ∧ depthFirst v o s roots = { c with state := v.after c.state roots } ∧
      (c.Along v o s' [] [] ∨ c.Halted v o s') ∧
      c.entered.Sublist ((placesIn [] roots).map (Place.standpoint o)) := by
  unfold depthFirst
  cases hbefore : v.before s roots with
  | mk answer s' =>
      have hends := explore_ends.2 roots [] (Course.start o s') [] (along_start v o s')
      obtain ⟨new, hnew, hentered⟩ :=
        (gains_explore (v := v) (o := o)).2 roots [] (Course.start o s')
      have hplaces : (Course.ofEnd (exploreAll v o [] (Course.start o s') roots)).entered.Sublist
          ((placesIn [] roots).map (Place.standpoint o)) := by
        rw [hentered]
        exact hnew
      have hfinish : ∀ x, Ends v o s' [] [] x →
          (Course.ofEnd x).Along v o s' [] [] ∨ (Course.ofEnd x).Halted v o s' := by
        intro x hx
        cases x with
        | ok c => exact .inl hx
        | error c => exact .inr hx
      cases answer with
      | stop => exact .inl ⟨s', rfl, rfl⟩
      | proceed =>
          exact .inr ⟨.proceed, s', _, rfl, by decide, rfl, hfinish _ hends, hplaces⟩
      | skipChildren =>
          exact .inr ⟨.skipChildren, s', _, rfl, by decide, rfl, hfinish _ hends, hplaces⟩

end PhpAudit.Walk
