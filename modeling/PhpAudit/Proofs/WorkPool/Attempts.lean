/-
**A run of the pool counts every attempt.**

The number of an attempt travels with its key: it waits with the key, goes with it to a worker,
comes back increased after a failure, and ends up in the result.  It is a number that is passed on
and not a count of calls, so it is right only if it is raised exactly where a call is made, and not
where a call could not be handed over, where work goes on without workers, or where a key is
cancelled that waits for its next attempt.  This module keeps books of a run.  At every moment the
calls made so far are those that the numbers stand for: all attempts of a key that has a result or
is worked on, and all but the next one of a key that waits.  The count of retries is the sum of
what each key was tried beyond its first attempt.

Main definitions:

* `WorkPool.Run.made`, `WorkPool.Run.repeats` — the calls and the retries that the numbers of a
  state stand for;
* `WorkPool.Result.InRange` — a result with a number of attempts that it may have;
* `WorkPool.Run.Balanced` — the books of a run with some calls under way are in order.

Main results:

* `WorkPool.Run.Balanced.call`, `WorkPool.Run.Balanced.collect` — a call that is made and a call
  that ends leave the books in order;
* `WorkPool.Floor.Balanced.round` — so does a round;
* `WorkPool.complete_balanced` — at the end of a run the books are in order;
* `WorkPool.run_counts_every_attempt` — **the attempts of a result are the calls for its key**, they
  are within the limit, and the count of retries adds up.
-/

import Mathlib.Algebra.BigOperators.Group.List.Basic
import Mathlib.Algebra.Order.Ring.Int
import PhpAudit.Proofs.WorkPool.Moments

set_option autoImplicit false

namespace PhpAudit.WorkPool

variable {σ κ β τ : Type}

/-! ### What the numbers stand for -/

/-- The calls that a key has had with its attempt of a number: one for each attempt so far. -/
def callsUpTo (p : κ × Nat) : List κ :=
  List.replicate p.2 p.1

/-- The calls that the results stand for, and those of the keys that wait for a further attempt. -/
def Run.made (r : Run σ κ β τ) : List κ :=
  (r.results.flatMap fun x => callsUpTo (x.key, x.attempts)) ++
    r.pending.flatMap fun p => callsUpTo (p.1, p.2 - 1)

/-- How often a key was tried again.  A cancelled key was about to be tried once more than it was,
so all its attempts led to a retry. -/
def Result.repeats (x : Result κ β τ) : Int :=
  if x.status = .cancelled then x.attempts else x.attempts - 1

/-- How often the keys were tried again that have a result or wait. -/
def Run.repeats (r : Run σ κ β τ) : Int :=
  (r.results.map Result.repeats).sum + (r.pending.map fun p => (p.2 : Int) - 1).sum

/-- A number of attempts that a result may have: no key was tried too often, and one that failed was
tried as often as it may be. -/
structure Result.InRange (retries : Nat) (x : Result κ β τ) : Prop where
  limit : x.attempts ≤ retries + 1
  failed : x.status = .failed → x.attempts = retries + 1

/-- The key of a call under way with the number of the attempt. -/
def Task.turn (t : Task κ β τ) : κ × Nat :=
  (t.key, t.attempt)

/-- The number of an attempt that can be made. -/
def InTurn (retries : Nat) (p : κ × Nat) : Prop :=
  1 ≤ p.2 ∧ p.2 ≤ retries + 1

/-- The books of a run are in order while some calls are under way, given by their keys and the
numbers of their attempts. -/
structure Run.Balanced (retries : Nat) (underway : List (κ × Nat)) (r : Run σ κ β τ) : Prop where
  calls : r.calls.Perm (underway.flatMap callsUpTo ++ r.made)
  repeats : (r.retries : Int) = (underway.map fun p => (p.2 : Int) - 1).sum + r.repeats
  underway : ∀ p ∈ underway, InTurn retries p
  pending : ∀ p ∈ r.pending, InTurn retries p
  results : ∀ x ∈ r.results, x.InRange retries

/-- The calls of one key may be counted with those under way or with those of the keys that wait. -/
theorem perm_append_inward (calls underway ended waiting : List κ) :
    (calls ++ (underway ++ (ended ++ waiting))).Perm
      (underway ++ (ended ++ (calls ++ waiting))) := by
  simp only [← List.append_assoc]
  refine List.Perm.append_right waiting ?_
  rw [List.append_assoc calls]
  exact List.perm_append_comm

namespace Run.Balanced

variable {retries : Nat} {underway : List (κ × Nat)} {r : Run σ κ β τ}

/-- The books do not depend on the order of the calls under way. -/
theorem perm (h : r.Balanced retries underway) {underway' : List (κ × Nat)}
    (hp : underway.Perm underway') : r.Balanced retries underway' where
  calls := h.calls.trans ((hp.flatMap_right callsUpTo).append_right _)
  repeats := by rw [h.repeats, (hp.map _).sum_eq]
  underway := fun p hp' => h.underway p (hp.mem_iff.2 hp')
  pending := h.pending
  results := h.results

/-- A key that waits is called for. -/
theorem call (h : r.Balanced retries underway) {key : κ} {attempt : Nat} {rest : List (κ × Nat)}
    (hpending : r.pending = (key, attempt) :: rest) (world : σ) :
    Run.Balanced retries ((key, attempt) :: underway)
      { r with world, pending := rest, calls := r.calls ++ [key] } := by
  have hturn : InTurn retries (key, attempt) := h.pending _ (hpending ▸ List.mem_cons_self)
  obtain ⟨n, rfl⟩ : ∃ n, attempt = n + 1 := ⟨attempt - 1, by have := hturn.1; omega⟩
  refine ⟨?_, ?_, ?_, ?_, h.results⟩
  · -- the new call is one more than those of the attempts before
    have hnew : callsUpTo (key, n + 1) = key :: callsUpTo (key, n) := List.replicate_succ
    have hold : r.calls.Perm (callsUpTo (key, n) ++ (underway.flatMap callsUpTo ++
        Run.made { r with pending := rest })) := by
      refine h.calls.trans ?_
      simp only [Run.made, hpending, List.flatMap_cons, Nat.add_sub_cancel]
      exact (perm_append_inward _ _ _ _).symm
    refine (List.perm_append_singleton key r.calls).trans ?_
    rw [List.flatMap_cons, hnew, List.append_assoc, List.cons_append]
    exact hold.cons key
  · have hold := h.repeats
    simp only [Run.repeats, hpending, List.map_cons, List.sum_cons] at hold ⊢
    omega
  · intro p hp
    rcases List.mem_cons.1 hp with rfl | hp
    · exact hturn
    · exact h.underway p hp
  · exact fun p hp => h.pending p (hpending ▸ List.mem_cons_of_mem _ hp)

/-- A call under way comes to a result that is not cancelled. -/
theorem finish {key : κ} {attempt : Nat} (h : r.Balanced retries ((key, attempt) :: underway))
    {x : Result κ β τ} (hkey : x.key = key) (hattempts : x.attempts = attempt)
    (hstatus : x.status ≠ .cancelled) (hfailed : x.status = .failed → attempt = retries + 1) :
    (r.finish x).Balanced retries underway := by
  subst hkey hattempts
  have hlimit := (h.underway _ List.mem_cons_self).2
  refine ⟨?_, ?_, fun p hp => h.underway p (List.mem_cons_of_mem _ hp), h.pending, ?_⟩
  · refine h.calls.trans ?_
    simp only [Run.finish, Run.made, List.flatMap_cons, List.flatMap_append, List.flatMap_nil,
      List.append_nil, List.append_assoc]
    exact perm_append_inward _ _ _ _
  · have hold := h.repeats
    simp only [Run.finish, Run.repeats, List.map_append, List.map_cons, List.map_nil,
      List.sum_append, List.sum_cons, List.sum_nil, Result.repeats, if_neg hstatus] at hold ⊢
    omega
  · intro y hy
    rcases List.mem_append.1 hy with hy | hy
    · exact h.results y hy
    · rw [List.mem_singleton.1 hy]
      exact ⟨hlimit, hfailed⟩

/-- **A call under way ends**: its key has a result, or waits for the next attempt. -/
theorem collect {plan : Plan τ} {key : κ} {attempt : Nat}
    (h : r.Balanced plan.retries ((key, attempt) :: underway)) (elapsed : τ)
    (outcome : Except String β) :
    (r.collect plan key attempt elapsed outcome).Balanced plan.retries underway := by
  have hlimit := (h.underway _ List.mem_cons_self).2
  cases outcome with
  | ok v => exact h.finish rfl rfl (by simp) (by simp)
  | error e =>
      simp only [Run.collect]
      split
      · rename_i hretry
        refine ⟨?_, ?_, fun p hp => h.underway p (List.mem_cons_of_mem _ hp), ?_, h.results⟩
        · -- the calls of the key now belong to a key that waits
          refine h.calls.trans ?_
          simp only [Run.made, List.flatMap_cons, Nat.add_sub_cancel, List.append_assoc]
          exact perm_append_inward _ _ _ _
        · have hold := h.repeats
          simp only [Run.repeats, List.map_cons, List.sum_cons] at hold ⊢
          omega
        · intro p hp
          rcases List.mem_cons.1 hp with rfl | hp
          · exact ⟨by simp, by simpa using hretry⟩
          · exact h.pending p hp
      · rename_i hlast
        refine h.finish rfl rfl (by simp) fun _ => ?_
        simp only at hlimit
        omega

/-- Calls under way are left behind, each with a result of its own. -/
theorem leave {gone : List (Task κ β τ)}
    (h : r.Balanced retries (gone.map Task.turn ++ underway)) {result : Task κ β τ → Result κ β τ}
    (hturn : ∀ t, ((result t).key, (result t).attempts) = t.turn)
    (hstatus : ∀ t, (result t).status = .timedOut) :
    Run.Balanced retries underway { r with results := r.results ++ gone.map result } := by
  induction gone generalizing r with
  | nil =>
      rw [List.map_nil, List.append_nil]
      exact h
  | cons t gone ih =>
      have hfirst : (r.finish (result t)).Balanced retries (gone.map Task.turn ++ underway) := by
        obtain ⟨hkey, hattempts⟩ := Prod.mk.inj (hturn t)
        refine finish h hkey hattempts ?_ ?_
        · rw [hstatus]
          decide
        · rw [hstatus]
          intro hfailed
          cases hfailed
      have hrest := ih hfirst
      rw [List.map_cons]
      simpa only [Run.finish, List.append_assoc, List.singleton_append] using hrest

/-- Every key that waits is cancelled. -/
theorem cancelAll [Timeline τ] (h : r.Balanced retries underway) :
    r.cancelAll.Balanced retries underway := by
  refine ⟨?_, ?_, h.underway, List.forall_mem_nil _, ?_⟩
  · refine h.calls.trans (List.Perm.of_eq ?_)
    simp only [Run.made, Run.cancelAll, List.flatMap_append, List.flatMap_map, List.flatMap_nil,
      List.append_nil]
    rfl
  · have hcancelled : ((r.pending.map fun p => (cancelledResult p.1 p.2 : Result κ β τ)).map
        Result.repeats) = r.pending.map fun p => (p.2 : Int) - 1 := by
      rw [List.map_map]
      refine List.map_congr_left fun p hp => ?_
      have hfirst := (h.pending p hp).1
      simp only [Function.comp_apply, Result.repeats, cancelledResult, if_true]
      omega
    have hold := h.repeats
    simp only [Run.repeats, Run.cancelAll, List.map_append, List.sum_append, List.map_nil,
      List.sum_nil, hcancelled] at hold ⊢
    omega
  · intro x hx
    rcases List.mem_append.1 hx with hx | hx
    · exact h.results x hx
    · obtain ⟨p, hp, rfl⟩ := List.mem_map.1 hx
      have hlimit := (h.pending p hp).2
      refine ⟨?_, by simp [cancelledResult]⟩
      simp only [cancelledResult]
      omega

end Run.Balanced

/-! ### A round -/

theorem map_turn_tick (beat : Beat) (live : List (Task κ β τ)) :
    (live.map (Task.tick beat)).map Task.turn = live.map Task.turn := by
  rw [List.map_map]
  rfl

/-- A call that is handed out comes last among those under way. -/
theorem map_turn_submit (s : Surroundings σ κ β τ) (f : Floor σ κ β τ) (key : κ) (attempt : Nat)
    (rest : List (κ × Nat)) :
    (submit s f key attempt rest).live.map Task.turn =
      f.live.map Task.turn ++ [(key, attempt)] := by
  simp only [submit, List.map_append, map_turn_tick]
  rfl

/-- The books of a state are in order: its calls under way are those of its workers. -/
def Floor.Balanced (retries : Nat) (f : Floor σ κ β τ) : Prop :=
  f.toRun.Balanced retries (f.live.map Task.turn)

namespace Floor.Balanced

variable {retries : Nat} {plan : Plan τ} {f : Floor σ κ β τ}

theorem submit (h : f.Balanced retries) (s : Surroundings σ κ β τ) {key : κ} {attempt : Nat}
    {rest : List (κ × Nat)} (hpending : f.pending = (key, attempt) :: rest) :
    (submit s f key attempt rest).Balanced retries := by
  have hcalled := Run.Balanced.call h hpending (s.call key f.world).2
  unfold Floor.Balanced
  rw [map_turn_submit]
  exact hcalled.perm (List.perm_append_singleton _ _).symm

/-- A call that could not be handed over is not counted. -/
theorem dispatch (h : f.Balanced retries) (s : Surroundings σ κ β τ) (places : Nat) :
    (dispatch s places f).Balanced retries :=
  dispatch_keeps (P := fun g => g.Balanced retries) (fun hpending hg => hg.submit s hpending) id h
    places

theorem handOut [Timeline τ] (h : f.Balanced retries) (s : Surroundings σ κ β τ) :
    (handOut s plan f).Balanced retries := by
  unfold WorkPool.handOut
  refine Floor.Balanced.dispatch ?_ s _
  split
  · exact Run.Balanced.cancelAll h
  · exact h

theorem replace (h : f.Balanced retries) (s : Surroundings σ κ β τ) :
    (replace s f).Balanced retries := by
  unfold WorkPool.replace
  split
  · exact h
  · exact h

/-- Taking in ended calls one after the other leaves those that go on. -/
theorem foldl_gatherOne [Timeline τ] (s : Surroundings σ κ β τ) {ended : List (Task κ β τ)}
    (hended : ∀ t ∈ ended, t.work.isStuck = false)
    (h : f.toRun.Balanced plan.retries ((ended ++ f.live).map Task.turn)) :
    (ended.foldl (gatherOne s plan) f).Balanced plan.retries := by
  induction ended generalizing f with
  | nil => exact h
  | cons t ended ih =>
      have hrest : ∀ u ∈ ended, u.work.isStuck = false :=
        fun u hu => hended u (List.mem_cons_of_mem _ hu)
      rw [List.foldl_cons]
      cases hwork : t.work with
      | stuck stay later =>
          have hnot := hended t List.mem_cons_self
          rw [hwork] at hnot
          cases hnot
      | ended outcome =>
          refine ih hrest ?_
          simp only [gatherOne, hwork]
          exact Run.Balanced.collect h _ outcome

theorem await (h : f.Balanced retries) (s : Surroundings σ κ β τ) :
    (await s f).Balanced retries := by
  unfold WorkPool.await
  split
  · unfold Floor.Balanced
    rw [map_turn_tick]
    exact ⟨h.calls, h.repeats, h.underway, h.pending, h.results⟩
  · exact h

theorem gather [Timeline τ] (h : f.Balanced plan.retries) (s : Surroundings σ κ β τ) :
    (gather s plan f).Balanced plan.retries := by
  refine foldl_gatherOne s ?_ ?_
  · intro t ht
    simpa using (List.mem_filter.1 ht).2
  · have hall := (List.filter_append_perm (fun t => !t.work.isStuck) f.live).map Task.turn
    simp only [Bool.not_not] at hall
    exact Run.Balanced.perm h hall.symm

theorem expire [Timeline τ] (h : f.Balanced plan.retries) (s : Surroundings σ κ β τ) :
    (expire s plan f).Balanced plan.retries := by
  unfold WorkPool.expire
  split
  · exact h
  · rename_i limit _
    have hall := (List.filter_append_perm (fun t => Timeline.exceeds
      (Timeline.since (s.now f.world) t.started) limit) f.live).map Task.turn
    rw [List.map_append] at hall
    exact (Run.Balanced.perm h hall.symm).leave (fun _ => rfl) (fun _ => rfl)

/-- **A round leaves the books in order.** -/
theorem round [Timeline τ] (h : f.Balanced plan.retries) (s : Surroundings σ κ β τ) :
    (round s plan f).Balanced plan.retries := by
  have hout : (WorkPool.handOut s plan f).Balanced plan.retries := h.handOut s
  simp only [WorkPool.round]
  split
  · split
    · exact hout
    · exact hout.replace s
  · exact ((hout.await s).gather s).expire s

end Floor.Balanced

/-! ### Without workers -/

theorem Run.Balanced.collectInline [Timeline τ] {plan : Plan τ} {r : Run σ κ β τ} {key : κ}
    {attempt : Nat} (h : r.Balanced plan.retries [(key, attempt)]) (s : Surroundings σ κ β τ)
    (elapsed : τ) (outcome : Except String β) :
    (r.collectInline s plan key attempt elapsed outcome).Balanced plan.retries [] := by
  unfold Run.collectInline
  split
  · split
    · exact h.finish rfl rfl (by simp) (by simp)
    · exact h.collect elapsed _
  · exact h.collect elapsed _

/-! ### A whole run -/

theorem Floor.balanced_start (retries : Nat) (keys : List κ) (world : σ) :
    (Floor.start keys world : Floor σ κ β τ).Balanced retries := by
  refine ⟨?_, ?_, List.forall_mem_nil _, ?_,
    List.forall_mem_nil _⟩
  · simp [Floor.start, Run.made, callsUpTo, List.flatMap_map]
  · have hzero : ((fun p : κ × Nat => (p.2 : Int) - 1) ∘ fun k => (k, 1)) = fun _ => 0 := rfl
    simp [Floor.start, Run.repeats, hzero]
  · intro p hp
    obtain ⟨k, _, rfl⟩ := List.mem_map.1 hp
    exact ⟨Nat.le_refl 1, Nat.succ_le_succ (Nat.zero_le _)⟩

/-- **At the end of a run the books are in order**, nothing waits and nothing is under way. -/
theorem complete_balanced [Timeline τ] {s : Surroundings σ κ β τ} {plan : Plan τ} {bound : Nat}
    {keys : List κ} {world : σ} {e : Floor σ κ β τ}
    (h : complete s plan bound (Floor.start keys world) = some e) :
    e.toRun.Balanced plan.retries [] ∧ e.pending = [] := by
  have hkept : KeptInline s plan fun r => r.Balanced plan.retries [] :=
    ⟨fun hpending _ _ hr => (hr.call hpending _).collectInline s _ _, fun _ hr => hr.cancelAll⟩
  refine complete_keeps (P := Floor.Balanced plan.retries) h
    (fun _ _ => Floor.balanced_start plan.retries keys world) (fun _ _ hf => hf.round s) ?_ hkept
  intro f hlive hf
  rwa [Floor.Balanced, hlive] at hf

/-- Among the calls that the numbers of distinct keys stand for, those for a key are as many as its
number says. -/
theorem countP_flatMap_callsUpTo [BEq κ] [EquivBEq κ] {turns : List (κ × Nat)}
    (hd : Distinct (turns.map Prod.fst)) {p : κ × Nat} (hp : p ∈ turns) :
    (turns.flatMap callsUpTo).countP (· == p.1) = p.2 := by
  induction turns with
  | nil => cases hp
  | cons q turns ih =>
      obtain ⟨hq, hrest⟩ := List.pairwise_cons.1 hd
      rw [List.flatMap_cons, List.countP_append, callsUpTo, List.countP_replicate]
      rcases List.mem_cons.1 hp with rfl | hp
      · have hothers : (turns.flatMap callsUpTo).countP (· == p.1) = 0 := by
          refine List.countP_eq_zero.2 fun k hk => ?_
          obtain ⟨z, hz, hkz⟩ := List.mem_flatMap.1 hk
          rw [List.eq_of_mem_replicate hkz]
          simp [BEq.symm_false (hq z.1 (List.mem_map_of_mem hz))]
        rw [hothers, if_pos BEq.rfl, Nat.add_zero]
      · have hskip : (q.1 == p.1) = false := hq p.1 (List.mem_map_of_mem hp)
        rw [ih hrest hp, hskip, if_neg Bool.false_ne_true, Nat.zero_add]

/-- Among the calls that results of distinct keys stand for, those for a key are the attempts of
its result. -/
theorem countP_callsUpTo [BEq κ] [EquivBEq κ] {results : List (Result κ β τ)}
    (hd : Distinct (results.map Result.key)) {x : Result κ β τ} (hx : x ∈ results) :
    (results.flatMap fun y => callsUpTo (y.key, y.attempts)).countP (· == x.key) =
      x.attempts := by
  have hkeys : (results.map fun y => (y.key, y.attempts)).map Prod.fst =
      results.map Result.key := by
    rw [List.map_map]
    rfl
  have hmem : (x.key, x.attempts) ∈ results.map fun y => (y.key, y.attempts) :=
    List.mem_map_of_mem hx
  have hcount := countP_flatMap_callsUpTo (hkeys ▸ hd) hmem
  rwa [List.flatMap_map] at hcount

/-- The keys that a state answers for, each with the number of calls that it has had. -/
def Run.turns (underway : List (κ × Nat)) (r : Run σ κ β τ) : List (κ × Nat) :=
  underway ++ (r.results.map (fun x => (x.key, x.attempts)) ++
    r.pending.map fun p => (p.1, p.2 - 1))

/-- **The calls made for a key are those that its number stands for.** -/
theorem Run.Balanced.countP_calls [BEq κ] [EquivBEq κ] {retries : Nat} {underway : List (κ × Nat)}
    {r : Run σ κ β τ} (h : r.Balanced retries underway)
    (hd : Distinct (underway.map Prod.fst ++ r.entrusted)) {p : κ × Nat}
    (hp : p ∈ r.turns underway) : r.calls.countP (· == p.1) = p.2 := by
  have hcalls : (r.turns underway).flatMap callsUpTo = underway.flatMap callsUpTo ++ r.made := by
    simp only [Run.turns, Run.made, List.flatMap_append, List.flatMap_map]
  have hkeys : (r.turns underway).map Prod.fst = underway.map Prod.fst ++ r.entrusted := by
    simp only [Run.turns, Run.entrusted, List.map_append, List.map_map]
    rfl
  rw [h.calls.countP_eq, ← hcalls, countP_flatMap_callsUpTo (hkeys ▸ hd) hp]

/-- The retries of results: those that were not cancelled have one less than attempts. -/
theorem sum_repeats (results : List (Result κ β τ)) :
    (results.map Result.repeats).sum =
      ((results.filter fun x => x.status ≠ .cancelled).map fun x => (x.attempts : Int) - 1).sum +
      ((results.filter fun x => x.status = .cancelled).map fun x => (x.attempts : Int)).sum := by
  induction results with
  | nil => rfl
  | cons x results ih =>
      by_cases hstatus : x.status = .cancelled
      · simp [Result.repeats, hstatus, ih]
        omega
      · simp [Result.repeats, hstatus, ih]
        omega

/-- **A run of the pool counts every attempt.**  For distinct keys, whatever the work function does,
whichever workers can be had, whichever calls can be handed over and whenever the run is cancelled:
if the run returns, there is one result for each key, the attempts of a result are the calls of the
work function for its key, they are at most one more than the retries that are allowed and exactly
so many if the key failed, and the retries that were counted are the attempts beyond the first of
the keys that were not cancelled and all attempts of those that were. -/
theorem run_counts_every_attempt [Timeline τ] [BEq κ] [EquivBEq κ] (s : Surroundings σ κ β τ)
    (plan : Plan τ) (bound : Nat) (keys : List κ) (world : σ) (fin : Finished σ κ β τ)
    (hd : Distinct keys) (h : run s plan bound keys world = some fin) :
    (fin.results.map Result.key).Perm keys ∧
      (∀ x ∈ fin.results, x.attempts = fin.calls.countP (· == x.key)) ∧
      (∀ x ∈ fin.results, x.attempts ≤ plan.retries + 1) ∧
      (∀ x ∈ fin.results, x.status = .failed → x.attempts = plan.retries + 1) ∧
      (fin.tally.retries : Int) =
        ((fin.results.filter fun x => x.status ≠ .cancelled).map
          fun x => (x.attempts : Int) - 1).sum +
        ((fin.results.filter fun x => x.status = .cancelled).map
          fun x => (x.attempts : Int)).sum := by
  obtain ⟨f, hf, rfl⟩ := Option.map_eq_some_iff.1 h
  have hkeys := complete_keys hf
  have hresults := finished_results_perm hd hf
  obtain ⟨hbalanced, hdone⟩ := complete_balanced hf
  have hrange : ∀ x ∈ (f.finished keys).results, x.InRange plan.retries :=
    fun x hx => hbalanced.results x (hresults.mem_iff.1 hx)
  refine ⟨(hresults.map _).trans hkeys, ?_, fun x hx => (hrange x hx).limit,
    fun x hx => (hrange x hx).failed, ?_⟩
  · intro x hx
    have hcalls := hbalanced.calls
    simp only [Run.made, hdone, List.flatMap_nil, List.nil_append, List.append_nil] at hcalls
    have hcount := hcalls.countP_eq (· == x.key)
    rw [countP_callsUpTo (hd.of_perm hkeys) (hresults.mem_iff.1 hx)] at hcount
    exact hcount.symm
  · have hrepeats := hbalanced.repeats
    simp only [Run.repeats, hdone, List.map_nil, List.sum_nil, zero_add, add_zero] at hrepeats
    rw [← sum_repeats, (hresults.map _).sum_eq]
    exact hrepeats

/-- Work in which one key succeeds, one fails, one gets stuck for good and one fails while the run
is being cancelled; each pause takes a quarter of a second. -/
def lateFailure : Surroundings Float String Nat Float where
  now := id
  pause w := w + 0.25
  cancelled w := decide (0.9 < w)
  call key w :=
    match key with
    | "good" => (.ended (.ok 1), w)
    | "bad" => (.ended (.error "no"), w)
    | "stuck" => (.stuck {} (.ok 0), w)
    | _ => (.ended (.error "too late"), w + 1.0)
  late key := key ++ " is late"

/-- A key that failed once is cancelled before its second attempt, and the attempts are
the calls all the same. -/
theorem lateFailure_counts_every_attempt :
    Distinct ["good", "bad", "stuck", "flaky", "rest"] ∧
    ∃ fin, run lateFailure { workers := 1, timeout := some 0.1, retries := 1 } 9
        ["good", "bad", "stuck", "flaky", "rest"] 0.0 = some fin ∧
      fin.results.map (fun x => (x.status, x.attempts)) = [(.completed, 1), (.failed, 2),
        (.timedOut, 1), (.cancelled, 1), (.cancelled, 0)] ∧
      (∀ x ∈ fin.results, x.attempts = fin.calls.countP (· == x.key)) ∧
      (fin.tally.retries : Int) =
        ((fin.results.filter fun x => x.status ≠ .cancelled).map
          fun x => (x.attempts : Int) - 1).sum +
        ((fin.results.filter fun x => x.status = .cancelled).map
          fun x => (x.attempts : Int)).sum := by
  have hd : Distinct ["good", "bad", "stuck", "flaky", "rest"] := by
    unfold Distinct
    decide
  have h : (run lateFailure { workers := 1, timeout := some 0.1, retries := 1 } 9
      ["good", "bad", "stuck", "flaky", "rest"] 0.0).map
        (fun fin => fin.results.map fun x => (x.status, x.attempts)) =
      some [(.completed, 1), (.failed, 2), (.timedOut, 1), (.cancelled, 1), (.cancelled, 0)] := by
    decide +kernel
  obtain ⟨fin, hfin, hstatus⟩ := Option.map_eq_some_iff.1 h
  obtain ⟨_, hcalls, _, _, hretries⟩ := run_counts_every_attempt lateFailure _ 9 _ 0.0 fin hd hfin
  exact ⟨hd, fin, hfin, hstatus, hcalls, hretries⟩

end PhpAudit.WorkPool
