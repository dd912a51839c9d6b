/-
**Visitors in one walk do not disturb each other.**

A composite visitor passes each call on to its members and joins their answers: one member can end
the walk, but only all of them together pass over the children of a node.  So a member that always
goes on keeps the walk going, and if none ends it, nothing is left out.  Both walks, that of the
composite visitor and that of the member alone, then take the course of a visitor that only listens,
and each member is in the state to which the calls of that course lead.

Main definitions:

* `Walk.Visitor.Withholds` — a visitor that never gives some answer;
* `Walk.listening` — the course of a visitor that only listens.

Main results:

* `Walk.combine_eq_proceed` — the joint answer if one member goes on and none ends the walk;
* `Walk.traverse_of_going` — a visitor that goes on is told what one that only listens is told;
* `Walk.traverse_composite`, `Walk.traverse_alone` — so is each member of a composite visitor, and
  such a visitor alone;
* `Walk.members_are_undisturbed` — **a member is told the same as if it were alone**.
-/

import PhpAudit.Proofs.Walk.Refinement
import PhpAudit.Walk.Visitors

set_option autoImplicit false

namespace PhpAudit.Walk

variable {σ τ : Type}

/-! ### Answers -/

/-- A visitor that, from a state on, never gives an answer: not to the forest, and not to a call,
whatever it was told before. -/
structure Visitor.Withholds (v : Visitor σ) (s : σ) (roots : List Node) (answer : Action) :
    Prop where
  before : (v.before s roots).1 ≠ answer
  respond : ∀ calls phase n t,
    (v.respond phase (replay v (v.before s roots).2 calls) n t).1 ≠ answer

theorem logged_respond (v : Visitor σ) (phase : Phase) (s : List Call × σ) (n : Node) (t : Trail) :
    (v.logged.respond phase s n t).1 = (v.respond phase s.2 n t).1 ∧
      (v.logged.respond phase s n t).2.2 = (v.respond phase s.2 n t).2 := by
  cases phase <;> exact ⟨rfl, rfl⟩

theorem replay_logged (v : Visitor σ) (s : List Call × σ) (calls : List Call) :
    (replay v.logged s calls).2 = replay v s.2 calls := by
  induction calls generalizing s with
  | nil => rfl
  | cons c calls ih => exact (ih _).trans (congrArg (replay v · calls) (logged_respond v ..).2)

/-- Writing down its calls does not change the answers of a visitor. -/
theorem Visitor.Withholds.logged {v : Visitor σ} {s : σ} {roots : List Node} {answer : Action}
    (h : v.Withholds s roots answer) : v.logged.Withholds ([], s) roots answer where
  before := h.before
  respond calls phase n t := by
    rw [(logged_respond v ..).1, replay_logged]
    exact h.respond calls phase n t

theorem combine_ne_stop {actions : List Action} (h : .stop ∉ actions) :
    combine actions ≠ .stop := by
  rw [combine, if_neg (by simpa using h)]
  split <;> simp

/-- If none of several visitors ends a walk and one of them goes on, they go on. -/
theorem combine_eq_proceed {actions : List Action} (hstop : .stop ∉ actions)
    (hgo : .proceed ∈ actions) : combine actions = .proceed := by
  have hsome : ¬(!actions.isEmpty && actions.all (· == .skipChildren)) = true := by
    intro hall
    cases List.all_eq_true.1 (Bool.and_eq_true_iff.1 hall).2 _ hgo
  rw [combine, if_neg (by simpa using hstop), if_neg hsome]

/-! ### Walks that go on -/

/-- The course of a visitor that only listens. -/
def listening (o : Options) (roots : List Node) : Course Unit :=
  Course.ofEnd (exploreAll {} o [] (Course.start o ()) roots)

/-- A visitor that goes on after every call is told what one that only listens is told. -/
theorem traverse_of_going {w : Visitor τ} {s : τ} {roots : List Node} (state : List Call → τ)
    (hbefore : (w.before s roots).1 ≠ .stop) (hstart : (w.before s roots).2 = state [])
    (hgo : ∀ phase calls n t, w.respond phase (state calls) n t =
      (.proceed, state (calls ++ [⟨phase, n, t, .proceed⟩]))) (o : Options) :
    traverse w o s roots =
      (w.after (state (listening o roots).calls) roots, (listening o roots).trail) := by
  have hmirrors : Mirrors ({} : Visitor Unit) w fun calls _ => state calls :=
    ⟨fun phase calls _ n t => by cases phase <;> exact hgo _ calls n t⟩
  have hrun := hmirrors.run o () roots
  unfold traverse
  cases hfirst : w.before s roots with
  | mk answer s' =>
      rw [hfirst] at hbefore hstart
      cases answer with
      | stop => exact absurd rfl hbefore
      | proceed => simp only [show s' = _ from hstart, hrun, Course.seen, listening]
      | skipChildren => simp only [show s' = _ from hstart, hrun, Course.seen, listening]

section Members

variable {roots : List Node} (crew : List (Visitor σ × σ)) {v : Visitor σ} {s : σ}

/-- A visitor that neither ends a walk nor passes over children goes on. -/
theorem Visitor.Withholds.respond_eq (hstop : v.Withholds s roots .stop)
    (hskip : v.Withholds s roots .skipChildren) (phase : Phase) (calls : List Call) (n : Node)
    (t : Trail) : (v.respond phase (replay v (v.before s roots).2 calls) n t).1 = .proceed := by
  cases hanswer : (v.respond phase (replay v (v.before s roots).2 calls) n t).1 with
  | proceed => rfl
  | stop => exact absurd hanswer (hstop.respond calls phase n t)
  | skipChildren => exact absurd hanswer (hskip.respond calls phase n t)

/-- What every member makes of a call. -/
theorem composite_respond (state : Visitor σ × σ → σ) (phase : Phase) (n : Node) (t : Trail) :
    (composite (crew.map Prod.fst)).respond phase (crew.map state) n t =
      (combine (crew.map fun m => (m.1.respond phase (state m) n t).1),
        crew.map fun m => (m.1.respond phase (state m) n t).2) := by
  cases phase <;> simp [composite, Visitor.respond, callAll, List.zipWith_map]

/-- If no member of a composite visitor ends a walk and one never passes over children, then each
member is told what a visitor that only listens is told. -/
theorem traverse_composite (hstop : ∀ m ∈ crew, m.1.Withholds m.2 roots .stop)
    (hmem : (v, s) ∈ crew) (hskip : v.Withholds s roots .skipChildren) (o : Options) :
    traverse (composite (crew.map Prod.fst)) o (crew.map Prod.snd) roots =
      (crew.map fun m => m.1.after
          (replay m.1 (m.1.before m.2 roots).2 (listening o roots).calls) roots,
        (listening o roots).trail) := by
  have hbefore : (composite (crew.map Prod.fst)).before (crew.map Prod.snd) roots =
      (combine (crew.map fun m => (m.1.before m.2 roots).1),
        crew.map fun m => (m.1.before m.2 roots).2) := by
    simp [composite, callAll, List.zipWith_map]
  refine (traverse_of_going
    (fun calls => crew.map fun m => replay m.1 (m.1.before m.2 roots).2 calls)
    ?_ (by rw [hbefore]; rfl) ?_ o).trans ?_
  · rw [hbefore]
    refine combine_ne_stop fun hends => ?_
    obtain ⟨m, hm, hanswer⟩ := List.mem_map.1 hends
    exact (hstop m hm).before hanswer
  · intro phase calls n t
    rw [composite_respond]
    refine Prod.ext (combine_eq_proceed (fun hends => ?_) ?_) ?_
    · obtain ⟨m, hm, hanswer⟩ := List.mem_map.1 hends
      exact (hstop m hm).respond calls phase n t hanswer
    · exact List.mem_map.2 ⟨(v, s), hmem, (hstop _ hmem).respond_eq hskip phase calls n t⟩
    · simp only [Course.replay_concat]
  · simp [composite, List.zipWith_map]

/-- So is a visitor that neither ends a walk nor passes over children, in a walk alone. -/
theorem traverse_alone (hstop : v.Withholds s roots .stop)
    (hskip : v.Withholds s roots .skipChildren) (o : Options) :
    traverse v o s roots =
      (v.after (replay v (v.before s roots).2 (listening o roots).calls) roots,
        (listening o roots).trail) := by
  refine traverse_of_going (replay v (v.before s roots).2) hstop.before rfl
    (fun phase calls n t => ?_) o
  rw [Course.replay_concat]
  exact Prod.ext (hstop.respond_eq hskip phase calls n t) rfl

end Members

/-- **A member is told the same as if it were alone.**  If none of several visitors ever ends a
walk, then one of them that never passes over children gets, in one walk with the others, the calls
of its own walk: the same entries and exits in the same order, at the same nodes and with the same
trails.  It comes to the same state as well, whatever the others answer. -/
theorem members_are_undisturbed (crew : List (Visitor σ × σ)) (o : Options) (roots : List Node)
    (hstop : ∀ m ∈ crew, m.1.Withholds m.2 roots .stop) {i : Nat} {v : Visitor σ} {s : σ}
    (hi : crew[i]? = some (v, s)) (hskip : v.Withholds s roots .skipChildren) :
    (traverse (composite (crew.map fun m => m.1.logged)) o (crew.map fun m => ([], m.2))
      roots).1[i]? = some (traverse v.logged o ([], s) roots).1 := by
  have hmem := List.mem_of_getElem? hi
  have hjoint := traverse_composite (crew.map fun m => (m.1.logged, ([], m.2)))
    (List.forall_mem_map.2 fun m hm => (hstop m hm).logged) (List.mem_map_of_mem hmem)
    hskip.logged o
  rw [List.map_map, List.map_map] at hjoint
  rw [traverse_alone (hstop _ hmem).logged hskip.logged]
  refine (congrArg (fun r => r.1[i]?) hjoint).trans ?_
  simp [hi]

/-- Passes over the children of every node. -/
def passing : Visitor (List Node) :=
  { enter := fun found _ _ => (.skipChildren, found) }

/-- A block with a call in it. -/
def block : Node :=
  { kind := "block", span := { startLine := 1 }
    children := [{ kind := "call", span := { startLine := 1 } }] }

/-- Beside a visitor that passes over all children, one that gathers nodes is still told of the call
in the block. -/
theorem collecting_is_undisturbed :
    let gatherer := collecting fun n => n.kind == "call"
    let crew := [(gatherer, []), (passing, [])]
    (∀ m ∈ crew, m.1.Withholds m.2 [block] .stop) ∧
      gatherer.Withholds [] [block] .skipChildren ∧
      (traverse (composite (crew.map fun m => m.1.logged)) {} (crew.map fun m => ([], m.2))
        [block]).1[0]? = some (traverse gatherer.logged {} ([], []) [block]).1 := by
  intro gatherer crew
  have hgatherer : ∀ answer, .proceed ≠ answer → gatherer.Withholds [] [block] answer :=
    fun _ h => ⟨h, fun calls phase n t => by cases phase <;> exact h⟩
  have hpassing : passing.Withholds [] [block] .stop :=
    ⟨by decide, fun calls phase n t => by cases phase <;> simp [passing, Visitor.respond]⟩
  have hstop : ∀ m ∈ crew, m.1.Withholds m.2 [block] .stop :=
    List.forall_mem_cons.2 ⟨hgatherer .stop (by decide), List.forall_mem_singleton.2 hpassing⟩
  have hskip := hgatherer .skipChildren (by decide)
  exact ⟨hstop, hskip, members_are_undisturbed crew {} [block] hstop rfl hskip⟩

end PhpAudit.Walk
