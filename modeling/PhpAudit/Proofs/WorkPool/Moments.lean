/-
**The moments of a run of the pool.**

What a run comes to says little about the way there.  That there are never more than so many calls
at once, or that no call is made after the run was cancelled, is said of every state on the way,
also of those in the middle of a round and of runs that never end.  This module names these states.
A run on workers is in a state between two rounds, has handed out some of the keys of a round, has
waited in it, or has taken in the calls that ended in it; a run without workers is in a state before
each call.

The steps of a round are described here by what they do to the state, so that later proofs need not
look at the loops again.

Main definitions:

* `WorkPool.Floor.HandsOut`, `WorkPool.opened`, `WorkPool.awaited` — handing out some keys, the
  state of a round before any is handed out, and the state after a wait;
* `WorkPool.settled?`, `WorkPool.Task.settled?` — the result that the end of a call leads to;
* `WorkPool.Floor.settled`, `WorkPool.Floor.expired` — the results of the calls that have ended, and
  of those that are left behind;
* `WorkPool.Floor.Reaches`, `WorkPool.Floor.Passes` — the states between rounds, and all states, of
  a run on workers;
* `WorkPool.Run.Passes` — the states of the work without workers;
* `WorkPool.Floor.onWorkers`, `WorkPool.Moment` — the part of a run that is done on workers, and the
  moments of a whole run.

Main results:

* `WorkPool.exists_handsOut` — what handing out does;
* `WorkPool.gather_eq`, `WorkPool.Run.gathered_results` — what taking in the ended calls does;
* `WorkPool.round_calls`, `WorkPool.round_results` — the calls and the results of a round;
* `WorkPool.Floor.Reaches.rounds`, `WorkPool.Run.Passes.sequential` — **from each state that it
  passes a run goes on to the same end**;
* `WorkPool.Floor.Reaches.total`, `WorkPool.Run.Passes.total` — these states follow one another;
* `WorkPool.exists_passes_of_sequential`, `WorkPool.sequential_eq_none_iff` — the state in which the
  work without workers ends, and when it does not.
-/

import PhpAudit.Proofs.WorkPool.Accounts

set_option autoImplicit false

namespace PhpAudit.WorkPool

variable {σ κ β τ : Type}

/-! ### Handing out -/

/-- A call that has ended does not change any more. -/
theorem Work.tick_of_ended {beat : Beat} {w : Work β} (h : w.isStuck = false) :
    w.tick beat = w := by
  cases w with
  | ended outcome => rfl
  | stuck stay later => cases h

/-- Calls that have ended do not change any more. -/
theorem tick_of_ended {beat : Beat} {l : List (Task κ β τ)}
    (h : ∀ t ∈ l, t.work.isStuck = false) : l.map (Task.tick beat) = l := by
  refine (List.map_congr_left fun t ht => ?_).trans (List.map_id _)
  rw [Task.tick, Work.tick_of_ended (h t ht), id]

/-- Nothing is handed out if nothing waits. -/
theorem dispatch_of_nil {s : Surroundings σ κ β τ} {f : Floor σ κ β τ} (h : f.pending = [])
    (n : Nat) : dispatch s n f = f := by
  cases n with
  | zero => rfl
  | succ n => simp only [dispatch, h]

/-- Nothing is handed out once a call could not be handed over. -/
theorem dispatch_of_fallback {s : Surroundings σ κ β τ} {f : Floor σ κ β τ}
    (h : f.fallback = true) (n : Nat) : dispatch s n f = f := by
  cases n with
  | zero => rfl
  | succ n =>
      simp only [dispatch]
      split
      · rfl
      · rw [if_pos h]

/-- Some places first, and then the others. -/
theorem dispatch_add (s : Surroundings σ κ β τ) (n m : Nat) (f : Floor σ κ β τ) :
    dispatch s (n + m) f = dispatch s m (dispatch s n f) := by
  induction n generalizing f with
  | zero => rw [Nat.zero_add, dispatch]
  | succ n ih =>
      rw [Nat.succ_add]
      simp only [dispatch]
      split
      · rename_i hpending
        exact (dispatch_of_nil hpending m).symm
      · split
        · rename_i hfallback
          exact (dispatch_of_fallback hfallback m).symm
        · split
          · exact ih _
          · exact (dispatch_of_fallback rfl m).symm

/-- One state comes from another by handing out some keys, those that waited in front. -/
structure Floor.HandsOut (f g : Floor σ κ β τ) (taken : List (κ × Nat)) : Prop where
  pending : f.pending = taken ++ g.pending
  calls : g.calls = f.calls ++ taken.map Prod.fst
  results : g.results = f.results
  live : g.live.length = f.live.length + taken.length
  held : g.held.length = f.held.length
  created : g.created = f.created
  abandoned : g.abandoned = f.abandoned
  replaced : g.replaced = f.replaced

theorem Floor.HandsOut.submit {f g : Floor σ κ β τ} {taken : List (κ × Nat)}
    (h : f.HandsOut g taken) (s : Surroundings σ κ β τ) {key : κ} {attempt : Nat}
    {rest : List (κ × Nat)} (hpending : g.pending = (key, attempt) :: rest) :
    f.HandsOut (submit s g key attempt rest) (taken ++ [(key, attempt)]) where
  pending := by
    rw [h.pending, hpending, List.append_assoc]
    rfl
  calls := by simp [WorkPool.submit, h.calls]
  results := h.results
  live := by
    simp only [WorkPool.submit, List.length_append, List.length_map, List.length_singleton, h.live]
    omega
  held := by simp [WorkPool.submit, h.held]
  created := h.created
  abandoned := h.abandoned
  replaced := h.replaced

/-- Keys are handed out until there are no places left, nothing waits, or a call cannot be handed
over. -/
theorem exists_handsOut (s : Surroundings σ κ β τ) (n : Nat) (f : Floor σ κ β τ) :
    ∃ taken, taken.length ≤ n ∧ f.HandsOut (dispatch s n f) taken ∧
      (taken.length = n ∨ (dispatch s n f).pending = [] ∨ (dispatch s n f).fallback = true) := by
  obtain ⟨m, ⟨taken, hlength, hout⟩, hend⟩ := dispatch_invariant (s := s) (n := n) (f := f)
    (P := fun m g => ∃ taken, taken.length + m = n ∧ f.HandsOut g taken)
    (fun hpending ⟨taken, hlength, hout⟩ =>
      ⟨_, by rw [List.length_append, List.length_singleton]; omega, hout.submit s hpending⟩)
    (fun ⟨taken, hlength, hout⟩ => ⟨taken, hlength, ⟨hout.pending, hout.calls, hout.results,
      hout.live, hout.held, hout.created, hout.abandoned, hout.replaced⟩⟩)
    ⟨[], by simp, ⟨rfl, by simp, rfl, rfl, rfl, rfl, rfl, rfl⟩⟩
  refine ⟨taken, by omega, hout, hend.imp_left ?_⟩
  intro hnone
  omega

/-- New workers change nothing but the workers. -/
theorem replace_toRun (s : Surroundings σ κ β τ) (f : Floor σ κ β τ) :
    (replace s f).toRun = f.toRun := by
  unfold replace
  split <;> rfl

/-- The state of a round before keys are handed out: keys that wait are cancelled if the run is, and
workers that were held by calls which have ended meanwhile are free again. -/
def opened [Timeline τ] (s : Surroundings σ κ β τ) (f : Floor σ κ β τ) : Floor σ κ β τ :=
  let checked := if s.cancelled f.world then { f with toRun := f.toRun.cancelAll } else f
  { checked with held := checked.held.filter Work.isStuck }

section

variable [Timeline τ] {s : Surroundings σ κ β τ} {plan : Plan τ}

theorem handOut_eq (f : Floor σ κ β τ) :
    handOut s plan f = dispatch s ((opened s f).places plan) (opened s f) := rfl

theorem opened_of_cancelled {f : Floor σ κ β τ} (h : s.cancelled f.world = true) :
    opened s f = { f with toRun := f.toRun.cancelAll, held := f.held.filter Work.isStuck } := by
  simp only [opened, h, if_true]

theorem opened_of_not_cancelled {f : Floor σ κ β τ} (h : s.cancelled f.world = false) :
    opened s f = { f with held := f.held.filter Work.isStuck } := by
  simp only [opened, h, Bool.false_eq_true, if_false]

@[simp] theorem opened_world (f : Floor σ κ β τ) : (opened s f).world = f.world := by
  simp only [opened]
  split <;> rfl

@[simp] theorem opened_calls (f : Floor σ κ β τ) : (opened s f).calls = f.calls := by
  simp only [opened]
  split <;> rfl

@[simp] theorem opened_live (f : Floor σ κ β τ) : (opened s f).live = f.live := by
  simp only [opened]
  split <;> rfl

@[simp] theorem opened_held (f : Floor σ κ β τ) :
    (opened s f).held = f.held.filter Work.isStuck := by
  simp only [opened]
  split <;> rfl

end

/-! ### Waiting -/

/-- There is no wait if a call has ended. -/
theorem await_of_ended {s : Surroundings σ κ β τ} {f : Floor σ κ β τ} {t : Task κ β τ}
    (ht : t ∈ f.live) (hended : t.work.isStuck = false) : await s f = f := by
  rw [await, if_neg]
  intro hall
  rw [List.all_eq_true.1 hall t ht] at hended
  cases hended

/-- What a wait changes: the clock, and which calls are stuck. -/
theorem await_eq (s : Surroundings σ κ β τ) (f : Floor σ κ β τ) :
    ∃ world live held, await s f = { f with world, live, held } := by
  unfold await
  split
  · exact ⟨_, _, _, rfl⟩
  · exact ⟨_, _, _, rfl⟩

@[simp] theorem await_calls (s : Surroundings σ κ β τ) (f : Floor σ κ β τ) :
    (await s f).calls = f.calls := by
  obtain ⟨_, _, _, h⟩ := await_eq s f
  rw [h]

@[simp] theorem await_results (s : Surroundings σ κ β τ) (f : Floor σ κ β τ) :
    (await s f).results = f.results := by
  obtain ⟨_, _, _, h⟩ := await_eq s f
  rw [h]

@[simp] theorem await_pending (s : Surroundings σ κ β τ) (f : Floor σ κ β τ) :
    (await s f).pending = f.pending := by
  obtain ⟨_, _, _, h⟩ := await_eq s f
  rw [h]

@[simp] theorem await_length_live (s : Surroundings σ κ β τ) (f : Floor σ κ β τ) :
    (await s f).live.length = f.live.length := by
  unfold await
  split
  · exact List.length_map _
  · rfl

/-- The clock stands still, or moves by one wait. -/
theorem await_world (s : Surroundings σ κ β τ) (f : Floor σ κ β τ) :
    (await s f).world = f.world ∨ (await s f).world = s.pause f.world := by
  unfold await
  split
  · exact Or.inr rfl
  · exact Or.inl rfl

/-- The state of a round after keys are handed out and, if no call has ended by then, a wait. -/
def awaited [Timeline τ] (s : Surroundings σ κ β τ) (plan : Plan τ) (f : Floor σ κ β τ) :
    Floor σ κ β τ :=
  await s (handOut s plan f)

/-! ### Taking in -/

/-- The result of a key whose call came back with a value. -/
def Result.ofValue (key : κ) (attempt : Nat) (elapsed : τ) (v : β) : Result κ β τ :=
  { key, status := .completed, value := some v, time := elapsed, attempts := attempt }

/-- The result of a key whose last call came back with an error. -/
def Result.ofError (key : κ) (attempt : Nat) (elapsed : τ) (e : String) : Result κ β τ :=
  { key, status := .failed, error := e, time := elapsed, attempts := attempt }

/-- The result that the end of a call leads to, if the key is not tried again. -/
def settled? (plan : Plan τ) (key : κ) (attempt : Nat) (elapsed : τ) :
    Except String β → Option (Result κ β τ)
  | .ok v => some (.ofValue key attempt elapsed v)
  | .error e => if attempt ≤ plan.retries then none else some (.ofError key attempt elapsed e)

/-- A call that has ended leads to a result that says that the key is done, or that its last attempt
failed. -/
theorem settled?_eq_some_iff {plan : Plan τ} {key : κ} {attempt : Nat} {elapsed : τ}
    {outcome : Except String β} {x : Result κ β τ} :
    settled? plan key attempt elapsed outcome = some x ↔
      (∃ v, outcome = .ok v ∧ x = .ofValue key attempt elapsed v) ∨
      ∃ e, outcome = .error e ∧ plan.retries < attempt ∧ x = .ofError key attempt elapsed e := by
  cases outcome with
  | ok v => simp [settled?, eq_comm]
  | error e => simp [settled?, eq_comm]

namespace Run

variable (plan : Plan τ) (r : Run σ κ β τ) (key : κ) (attempt : Nat) (elapsed : τ)
  (outcome : Except String β)

theorem collect_results :
    (r.collect plan key attempt elapsed outcome).results =
      r.results ++ (settled? plan key attempt elapsed outcome).toList := by
  cases outcome with
  | ok v => rfl
  | error e =>
      simp only [collect, settled?]
      split
      · exact (List.append_nil _).symm
      · rfl

/-- A key without a result is tried again. -/
theorem collect_pending :
    (r.collect plan key attempt elapsed outcome).pending =
      if (settled? plan key attempt elapsed outcome).isSome then r.pending
      else (key, attempt + 1) :: r.pending := by
  cases outcome with
  | ok v => rfl
  | error e =>
      simp only [collect, settled?]
      split <;> rfl

@[simp] theorem collect_world :
    (r.collect plan key attempt elapsed outcome).world = r.world := by
  cases outcome with
  | ok v => rfl
  | error e =>
      simp only [collect]
      split <;> rfl

@[simp] theorem collect_calls :
    (r.collect plan key attempt elapsed outcome).calls = r.calls := by
  cases outcome with
  | ok v => rfl
  | error e =>
      simp only [collect]
      split <;> rfl

end Run

section

variable [Timeline τ] {s : Surroundings σ κ β τ} {plan : Plan τ}

/-- The result that a call on a worker leads to at a moment, if it has ended and its key is not
tried again. -/
def Task.settled? (plan : Plan τ) (now : τ) (t : Task κ β τ) : Option (Result κ β τ) :=
  match t.work with
  | .ended outcome => WorkPool.settled? plan t.key t.attempt (Timeline.since now t.started) outcome
  | .stuck _ _ => none

/-- Takes in a call on a worker, if it has ended. -/
def Run.takeIn (s : Surroundings σ κ β τ) (plan : Plan τ) (r : Run σ κ β τ) (t : Task κ β τ) :
    Run σ κ β τ :=
  match t.work with
  | .ended outcome =>
    r.collect plan t.key t.attempt (Timeline.since (s.now r.world) t.started) outcome
  | .stuck _ _ => r

/-- Takes in every call that has ended. -/
def Run.gathered (s : Surroundings σ κ β τ) (plan : Plan τ) (r : Run σ κ β τ)
    (live : List (Task κ β τ)) : Run σ κ β τ :=
  (live.filter fun t => !t.work.isStuck).foldl (takeIn s plan) r

theorem gatherOne_eq (f : Floor σ κ β τ) (t : Task κ β τ) :
    gatherOne s plan f t = { f with toRun := f.toRun.takeIn s plan t } := by
  unfold gatherOne Run.takeIn
  cases t.work with
  | ended outcome => rfl
  | stuck stay later => rfl

theorem foldl_gatherOne_eq (ended : List (Task κ β τ)) (f : Floor σ κ β τ) :
    ended.foldl (gatherOne s plan) f =
      { f with toRun := ended.foldl (Run.takeIn s plan) f.toRun } := by
  induction ended generalizing f with
  | nil => rfl
  | cons t ended ih => rw [List.foldl_cons, gatherOne_eq, ih, List.foldl_cons]

/-- Calls that are stuck stay under way, and nothing else of the state changes than the keys that
wait and the results. -/
theorem gather_eq (f : Floor σ κ β τ) :
    gather s plan f =
      { f with
        live := f.live.filter fun t => t.work.isStuck
        toRun := f.toRun.gathered s plan f.live } :=
  foldl_gatherOne_eq _ _

/-- If no call is stuck, all are taken in. -/
theorem gather_of_ended {f : Floor σ κ β τ} (h : ∀ t ∈ f.live, t.work.isStuck = false) :
    gather s plan f =
      { f with live := [], toRun := f.live.foldl (Run.takeIn s plan) f.toRun } := by
  have hstuck : (f.live.filter fun t => t.work.isStuck) = [] :=
    List.filter_eq_nil_iff.2 fun t ht => by simp [h t ht]
  have hall : (f.live.filter fun t => !t.work.isStuck) = f.live :=
    List.filter_eq_self.2 fun t ht => by simp [h t ht]
  rw [gather_eq, hstuck, Run.gathered, hall]

@[simp] theorem Run.takeIn_world (r : Run σ κ β τ) (t : Task κ β τ) :
    (r.takeIn s plan t).world = r.world := by
  simp only [takeIn]
  split
  · exact collect_world ..
  · rfl

@[simp] theorem Run.takeIn_calls (r : Run σ κ β τ) (t : Task κ β τ) :
    (r.takeIn s plan t).calls = r.calls := by
  simp only [takeIn]
  split
  · exact collect_calls ..
  · rfl

theorem Run.takeIn_results (r : Run σ κ β τ) (t : Task κ β τ) :
    (r.takeIn s plan t).results = r.results ++ (t.settled? plan (s.now r.world)).toList := by
  simp only [takeIn, Task.settled?]
  split
  · exact collect_results ..
  · exact (List.append_nil _).symm

theorem Run.suffix_takeIn_pending (r : Run σ κ β τ) (t : Task κ β τ) :
    r.pending <:+ (r.takeIn s plan t).pending := by
  simp only [takeIn]
  split
  · rw [collect_pending]
    split
    · exact List.suffix_rfl
    · exact List.suffix_cons _ _
  · exact List.suffix_rfl

theorem Run.foldl_takeIn_world (ts : List (Task κ β τ)) (r : Run σ κ β τ) :
    (ts.foldl (takeIn s plan) r).world = r.world := by
  induction ts generalizing r with
  | nil => rfl
  | cons t ts ih => rw [List.foldl_cons, ih, takeIn_world]

theorem Run.foldl_takeIn_calls (ts : List (Task κ β τ)) (r : Run σ κ β τ) :
    (ts.foldl (takeIn s plan) r).calls = r.calls := by
  induction ts generalizing r with
  | nil => rfl
  | cons t ts ih => rw [List.foldl_cons, ih, takeIn_calls]

theorem Run.foldl_takeIn_results (ts : List (Task κ β τ)) (r : Run σ κ β τ) :
    (ts.foldl (takeIn s plan) r).results =
      r.results ++ ts.filterMap (Task.settled? plan (s.now r.world)) := by
  induction ts generalizing r with
  | nil => exact (List.append_nil _).symm
  | cons t ts ih =>
      rw [List.foldl_cons, ih, takeIn_results, takeIn_world, List.append_assoc]
      cases h : t.settled? plan (s.now r.world) with
      | none => rw [List.filterMap_cons_none h]; rfl
      | some x => rw [List.filterMap_cons_some h]; rfl

theorem Run.suffix_foldl_takeIn_pending (ts : List (Task κ β τ)) (r : Run σ κ β τ) :
    r.pending <:+ (ts.foldl (takeIn s plan) r).pending := by
  induction ts generalizing r with
  | nil => exact List.suffix_rfl
  | cons t ts ih => exact (r.suffix_takeIn_pending t).trans (ih _)

@[simp] theorem Run.gathered_calls (r : Run σ κ β τ) (live : List (Task κ β τ)) :
    (r.gathered s plan live).calls = r.calls :=
  foldl_takeIn_calls _ r

/-- The clock stands still while calls are taken in. -/
@[simp] theorem Run.gathered_world (r : Run σ κ β τ) (live : List (Task κ β τ)) :
    (r.gathered s plan live).world = r.world :=
  foldl_takeIn_world _ r

/-- A stuck call has no result. -/
theorem Task.settled?_of_isStuck {now : τ} {t : Task κ β τ} (h : t.work.isStuck = true) :
    t.settled? plan now = none := by
  unfold Task.settled?
  split
  · rename_i hwork
    rw [hwork] at h
    cases h
  · rfl

/-- **The results that taking in adds** are those of the calls that have ended. -/
theorem Run.gathered_results (r : Run σ κ β τ) (live : List (Task κ β τ)) :
    (r.gathered s plan live).results =
      r.results ++ live.filterMap (Task.settled? plan (s.now r.world)) := by
  have hended : (live.filter fun t => !t.work.isStuck).filterMap
      (Task.settled? plan (s.now r.world)) =
        live.filterMap (Task.settled? plan (s.now r.world)) := by
    rw [List.filterMap_filter]
    refine List.filterMap_congr fun t _ => ?_
    cases h : t.work.isStuck with
    | false => rfl
    | true => exact (Task.settled?_of_isStuck h).symm
  rw [gathered, foldl_takeIn_results, hended]

theorem Run.suffix_gathered_pending (r : Run σ κ β τ) (live : List (Task κ β τ)) :
    r.pending <:+ (r.gathered s plan live).pending :=
  suffix_foldl_takeIn_pending _ r

/-! ### Leaving behind -/

/-- Whether a call on a worker has taken longer than it may at a moment. -/
def Task.isLate (limit now : τ) (t : Task κ β τ) : Bool :=
  Timeline.exceeds (Timeline.since now t.started) limit

/-- The results of the calls on workers that are left behind because they take too long. -/
def Floor.expired (s : Surroundings σ κ β τ) (plan : Plan τ) (f : Floor σ κ β τ) :
    List (Result κ β τ) :=
  match plan.timeout with
  | none => []
  | some limit =>
    (f.live.filter (Task.isLate limit (s.now f.world))).map (expiredResult s (s.now f.world))

theorem expire_results (f : Floor σ κ β τ) :
    (expire s plan f).results = f.results ++ f.expired s plan := by
  unfold expire Floor.expired
  cases plan.timeout with
  | none => exact (List.append_nil _).symm
  | some limit => rfl

@[simp] theorem expire_world (f : Floor σ κ β τ) : (expire s plan f).world = f.world := by
  unfold expire
  split <;> rfl

@[simp] theorem expire_calls (f : Floor σ κ β τ) : (expire s plan f).calls = f.calls := by
  unfold expire
  split <;> rfl

@[simp] theorem expire_pending (f : Floor σ κ β τ) : (expire s plan f).pending = f.pending := by
  unfold expire
  split <;> rfl

/-! ### Rounds -/

/-- What a round does once keys are handed out: it was the last one on workers, it makes new
workers, or it waits, takes in and leaves behind. -/
theorem round_cases (s : Surroundings σ κ β τ) (plan : Plan τ) (f : Floor σ κ β τ) :
    ((handOut s plan f).live = [] ∧
        ((handOut s plan f).pending = [] ∨ (handOut s plan f).fallback = true) ∧
        round s plan f = handOut s plan f) ∨
      ((handOut s plan f).live = [] ∧ (handOut s plan f).pending ≠ [] ∧
        (handOut s plan f).fallback = false ∧ round s plan f = replace s (handOut s plan f)) ∨
      ((handOut s plan f).live ≠ [] ∧
        round s plan f = expire s plan (gather s plan (awaited s plan f))) := by
  simp only [round]
  split
  · rename_i hlive
    split
    · rename_i hend
      refine Or.inl ⟨List.isEmpty_iff.1 hlive, ?_, rfl⟩
      simpa [List.isEmpty_iff] using hend
    · rename_i hend
      simp only [Bool.or_eq_true, not_or, Bool.not_eq_true, List.isEmpty_eq_false_iff] at hend
      exact Or.inr (Or.inl ⟨List.isEmpty_iff.1 hlive, hend.1, hend.2, rfl⟩)
  · rename_i hlive
    exact Or.inr (Or.inr ⟨by simpa using hlive, rfl⟩)

/-- The calls of a round are those that are handed out. -/
theorem round_calls (f : Floor σ κ β τ) :
    (round s plan f).calls = (handOut s plan f).calls := by
  rcases round_cases s plan f with ⟨_, _, hround⟩ | ⟨_, _, _, hround⟩ | ⟨_, hround⟩
  · rw [hround]
  · rw [hround, replace_toRun]
  · rw [hround, expire_calls, gather_eq, Run.gathered_calls, awaited, await_calls]

/-- The results of the calls on workers that have ended. -/
def Floor.settled (s : Surroundings σ κ β τ) (plan : Plan τ) (f : Floor σ κ β τ) :
    List (Result κ β τ) :=
  f.live.filterMap (Task.settled? plan (s.now f.world))

/-- The results that the start of a round adds are cancelled ones. -/
theorem exists_opened_results (s : Surroundings σ κ β τ) (f : Floor σ κ β τ) :
    ∃ gone, (opened s f).results = f.results ++ gone ∧ ∀ x ∈ gone, x.status = .cancelled := by
  cases hc : s.cancelled f.world with
  | false =>
      rw [opened_of_not_cancelled hc]
      exact ⟨[], (List.append_nil _).symm, by simp⟩
  | true =>
      rw [opened_of_cancelled hc]
      refine ⟨_, rfl, fun x hx => ?_⟩
      obtain ⟨p, _, rfl⟩ := List.mem_map.1 hx
      rfl

/-- **The results that a round adds**: keys that are cancelled, calls that have ended, and calls
that are left behind. -/
theorem round_results (f : Floor σ κ β τ) :
    (round s plan f).results = (opened s f).results ++
      ((awaited s plan f).settled s plan ++
        (gather s plan (awaited s plan f)).expired s plan) := by
  have hout : (handOut s plan f).results = (opened s f).results := by
    obtain ⟨_, _, hout, _⟩ := exists_handsOut s ((opened s f).places plan) (opened s f)
    exact hout.results
  have hidle (hlive : (handOut s plan f).live = []) : (awaited s plan f).settled s plan ++
      (gather s plan (awaited s plan f)).expired s plan = [] := by
    have hnone : (awaited s plan f).live = [] := by
      rw [← List.length_eq_zero_iff, awaited, await_length_live, hlive, List.length_nil]
    rw [gather_eq]
    simp only [Floor.settled, Floor.expired, hnone, List.filterMap_nil, List.filter_nil,
      List.map_nil, List.nil_append]
    split <;> rfl
  rcases round_cases s plan f with ⟨hlive, _, hround⟩ | ⟨hlive, _, _, hround⟩ | ⟨_, hround⟩
  · rw [hround, hidle hlive, List.append_nil, hout]
  · rw [hround, hidle hlive, List.append_nil, replace_toRun, hout]
  · have htaken : (gather s plan (awaited s plan f)).results =
        (handOut s plan f).results ++ (awaited s plan f).settled s plan := by
      rw [gather_eq, ← await_results s (handOut s plan f)]
      exact Run.gathered_results _ _
    rw [hround, expire_results, htaken, hout, List.append_assoc]

theorem results_subset_round (f : Floor σ κ β τ) : f.results ⊆ (round s plan f).results := by
  obtain ⟨gone, hgone, _⟩ := exists_opened_results s f
  rw [round_results, hgone]
  exact fun x hx => List.mem_append_left _ (List.mem_append_left _ hx)

namespace Floor

/-- The states between the rounds that begin with a state. -/
inductive Reaches (s : Surroundings σ κ β τ) (plan : Plan τ) (f : Floor σ κ β τ) :
    Floor σ κ β τ → Prop
  | start : Reaches s plan f f
  | round {g : Floor σ κ β τ} (h : Reaches s plan f g) (hbusy : g.isBusy = true) :
      Reaches s plan f (round s plan g)

/-- The states that the rounds pass through: between two rounds, after some keys of a round are
handed out, after the wait in it, and after the calls are taken in that ended in it. -/
inductive Passes (s : Surroundings σ κ β τ) (plan : Plan τ) (f : Floor σ κ β τ) :
    Floor σ κ β τ → Prop
  | between {g : Floor σ κ β τ} (h : f.Reaches s plan g) : Passes s plan f g
  | handing {g : Floor σ κ β τ} (h : f.Reaches s plan g) (hbusy : g.isBusy = true) {n : Nat}
      (hn : n ≤ (opened s g).places plan) : Passes s plan f (dispatch s n (opened s g))
  | waiting {g : Floor σ κ β τ} (h : f.Reaches s plan g) (hbusy : g.isBusy = true)
      (hlive : (handOut s plan g).live ≠ []) : Passes s plan f (awaited s plan g)
  | gathered {g : Floor σ κ β τ} (h : f.Reaches s plan g) (hbusy : g.isBusy = true)
      (hlive : (handOut s plan g).live ≠ []) :
      Passes s plan f (gather s plan (awaited s plan g))

/-- What a round keeps holds between all rounds if it holds before the first. -/
theorem Reaches.keeps {P : Floor σ κ β τ → Prop} {f g : Floor σ κ β τ} (h : f.Reaches s plan g)
    (hstart : P f)
    (hround : ∀ m : Floor σ κ β τ, m.isBusy = true → P m → P (WorkPool.round s plan m)) :
    P g := by
  induction h with
  | start => exact hstart
  | round _ hbusy ih => exact hround _ hbusy ih

/-- The last state is one between rounds. -/
theorem reaches_of_rounds {bound : Nat} {f e : Floor σ κ β τ}
    (h : rounds s plan bound f = some e) : f.Reaches s plan e :=
  (rounds_keeps (P := f.Reaches s plan) (fun _ hbusy hm => hm.round hbusy) h .start).1

/-- **From each state between two rounds the rounds go on to the same end.** -/
theorem Reaches.rounds {f g e : Floor σ κ β τ} (h : f.Reaches s plan g) {bound : Nat}
    (he : rounds s plan bound f = some e) : ∃ b, WorkPool.rounds s plan b g = some e := by
  induction h with
  | start => exact ⟨bound, he⟩
  | round _ hbusy ih =>
      obtain ⟨b, hb⟩ := ih
      cases b with
      | zero =>
          simp only [WorkPool.rounds, hbusy, if_true] at hb
          cases hb
      | succ b =>
          simp only [WorkPool.rounds, hbusy, if_true] at hb
          exact ⟨b, hb⟩

/-- What is reached is reached by way of the first round. -/
theorem Reaches.head {f g : Floor σ κ β τ} (h : f.Reaches s plan g) :
    g = f ∨ (f.isBusy = true ∧ (WorkPool.round s plan f).Reaches s plan g) := by
  induction h with
  | start => exact Or.inl rfl
  | round _ hbusy ih =>
      rcases ih with rfl | ⟨hf, ih⟩
      · exact Or.inr ⟨hbusy, .start⟩
      · exact Or.inr ⟨hf, ih.round hbusy⟩

/-- Of two states between rounds, one is reached from the other. -/
theorem Reaches.total {f g m : Floor σ κ β τ} (hg : f.Reaches s plan g)
    (hm : f.Reaches s plan m) : g.Reaches s plan m ∨ m.Reaches s plan g := by
  induction hg with
  | start => exact Or.inl hm
  | round _ hbusy ih =>
      rcases ih with h | h
      · rcases h.head with rfl | ⟨_, h⟩
        · exact Or.inr (Reaches.start.round hbusy)
        · exact Or.inl h
      · exact Or.inr (h.round hbusy)

end Floor

/-! ### Without workers -/

/-- The states that the work without workers passes through from a state on, each before the next
key is looked at. -/
inductive Run.Passes (s : Surroundings σ κ β τ) (plan : Plan τ) (r : Run σ κ β τ) :
    Run σ κ β τ → Prop
  | start : Run.Passes s plan r r
  | call {q : Run σ κ β τ} {key : κ} {attempt : Nat} {rest : List (κ × Nat)}
      {outcome : Except String β} {world : σ} (h : Run.Passes s plan r q)
      (hpending : q.pending = (key, attempt) :: rest) (hcancel : s.cancelled q.world = false)
      (hcall : s.callInline key q.world = some (outcome, world)) :
      Run.Passes s plan r
        (({ q with world, pending := rest, calls := q.calls ++ [key] } : Run σ κ β τ).collectInline
          s plan key attempt (Timeline.since (s.now world) (s.now q.world)) outcome)

/-- **From each state that it passes the work goes on to the same end.** -/
theorem Run.Passes.sequential {r q : Run σ κ β τ} (h : r.Passes s plan q) :
    sequential s plan r = sequential s plan q := by
  induction h with
  | start => rfl
  | call _ hpending hcancel hcall ih =>
      rw [ih, sequential_of_ended s plan hpending (by simp [hcancel]) hcall]

/-- What is passed is passed by way of the first call. -/
theorem Run.Passes.head {r q : Run σ κ β τ} (h : r.Passes s plan q) {key : κ} {attempt : Nat}
    {rest : List (κ × Nat)} {outcome : Except String β} {world : σ}
    (hpending : r.pending = (key, attempt) :: rest)
    (hcall : s.callInline key r.world = some (outcome, world)) :
    q = r ∨
      (({ r with world, pending := rest, calls := r.calls ++ [key] } : Run σ κ β τ).collectInline
        s plan key attempt (Timeline.since (s.now world) (s.now r.world)) outcome).Passes
          s plan q := by
  induction h with
  | start => exact Or.inl rfl
  | call _ hpending' hcancel' hcall' ih =>
      rcases ih with rfl | ih
      · rw [hpending] at hpending'
        obtain ⟨⟨rfl, rfl⟩, rfl⟩ := hpending'
        rw [hcall] at hcall'
        obtain ⟨rfl, rfl⟩ := hcall'
        exact Or.inr .start
      · exact Or.inr (ih.call hpending' hcancel' hcall')

/-- Of two states on the way, one is passed from the other. -/
theorem Run.Passes.total {r q m : Run σ κ β τ} (hq : r.Passes s plan q) (hm : r.Passes s plan m) :
    q.Passes s plan m ∨ m.Passes s plan q := by
  induction hq with
  | start => exact Or.inl hm
  | call _ hpending hcancel hcall ih =>
      rcases ih with h | h
      · rcases h.head hpending hcall with rfl | h
        · exact Or.inr (Run.Passes.start.call hpending hcancel hcall)
        · exact Or.inl h
      · exact Or.inr (h.call hpending hcancel hcall)

/-- The work without workers ends in a state in which nothing waits, or by cancelling what waits. -/
theorem exists_passes_of_sequential {r e : Run σ κ β τ} (h : sequential s plan r = some e) :
    ∃ q, r.Passes s plan q ∧
      ((q.pending = [] ∧ e = q) ∨ (s.cancelled q.world = true ∧ e = q.cancelAll)) := by
  have hgo : ∀ q : Run σ κ β τ, r.Passes s plan q → sequential s plan q = some e →
      ∃ q', r.Passes s plan q' ∧
        ((q'.pending = [] ∧ e = q') ∨ (s.cancelled q'.world = true ∧ e = q'.cancelAll)) := by
    intro q hq he
    -- induction on the calls that are made, as the work itself recurses
    induction q using sequential.induct s plan with
    | case1 q hpending =>
        rw [sequential_of_nil s plan hpending] at he
        cases he
        exact ⟨e, hq, Or.inl ⟨hpending, rfl⟩⟩
    | case2 q key attempt rest hpending hc =>
        rw [sequential_of_cancelled s plan hpending hc] at he
        cases he
        exact ⟨q, hq, Or.inr ⟨hc, rfl⟩⟩
    | case3 q key attempt rest hpending hc hcall =>
        rw [sequential_of_stuck s plan hpending hc hcall] at he
        cases he
    | case4 q key attempt rest hpending hc outcome world hcall called elapsed ih =>
        rw [sequential_of_ended s plan hpending hc hcall] at he
        exact ih (hq.call hpending (by simpa using hc) hcall) he
  exact hgo r .start h

/-- **The work without workers does not end** if and only if it comes to a call that does not. -/
theorem sequential_eq_none_iff {r : Run σ κ β τ} :
    sequential s plan r = none ↔ ∃ q key attempt rest, r.Passes s plan q ∧
      q.pending = (key, attempt) :: rest ∧ s.cancelled q.world = false ∧
      s.callInline key q.world = none := by
  constructor
  · intro h
    have hgo : ∀ q : Run σ κ β τ, r.Passes s plan q → sequential s plan q = none →
        ∃ q key attempt rest, r.Passes s plan q ∧ q.pending = (key, attempt) :: rest ∧
          s.cancelled q.world = false ∧ s.callInline key q.world = none := by
      intro q hq hnone
      -- induction on the calls that are made, as the work itself recurses
      induction q using sequential.induct s plan with
      | case1 q hpending =>
          rw [sequential_of_nil s plan hpending] at hnone
          cases hnone
      | case2 q key attempt rest hpending hc =>
          rw [sequential_of_cancelled s plan hpending hc] at hnone
          cases hnone
      | case3 q key attempt rest hpending hc hcall =>
          exact ⟨q, key, attempt, rest, hq, hpending, by simpa using hc, hcall⟩
      | case4 q key attempt rest hpending hc outcome world hcall called elapsed ih =>
          rw [sequential_of_ended s plan hpending hc hcall] at hnone
          exact ih (hq.call hpending (by simpa using hc) hcall) hnone
    exact hgo r .start h
  · rintro ⟨q, key, attempt, rest, hq, hpending, hc, hcall⟩
    rw [hq.sequential, sequential_of_stuck s plan hpending (by simp [hc]) hcall]

/-- A run returns if its part on workers ends, and so does every call without workers. -/
theorem exists_run_of_onWorkers [BEq κ] {bound : Nat} {keys : List κ} {world : σ}
    {g : Floor σ κ β τ}
    (hg : (Floor.start keys world).onWorkers s plan bound = some g)
    (hs : ∀ key w, (s.callInline key w).isSome = true) :
    ∃ fin, run s plan bound keys world = some fin := by
  refine Option.ne_none_iff_exists'.1 ?_
  rw [run, complete_eq, hg, Option.bind_some, Floor.withoutWorkers, Ne, Option.map_eq_none_iff,
    Option.map_eq_none_iff, sequential_eq_none_iff]
  rintro ⟨q, key, _, _, _, _, _, hnone⟩
  have hsome := hs key q.world
  rw [hnone] at hsome
  cases hsome

end

/-! ### A whole run -/

/-- The state before the first round: the first workers are there. -/
def Floor.begun (keys : List κ) (world : σ) : Floor σ κ β τ :=
  { Floor.start keys world with created := 1 }

theorem Floor.onWorkers_start [Timeline τ] {s : Surroundings σ κ β τ} {plan : Plan τ}
    (hworkers : 0 < plan.workers) (hcreate : s.canCreate 1 = true) (bound : Nat) (keys : List κ)
    (world : σ) :
    (Floor.start keys world).onWorkers s plan bound =
      rounds s plan bound (Floor.begun keys world) := by
  rw [onWorkers, if_neg (by omega), if_pos hcreate]
  rfl

/-- The moments of a run for some keys, each with whether the run does without workers by then. -/
inductive Moment [Timeline τ] (s : Surroundings σ κ β τ) (plan : Plan τ) (bound : Nat)
    (keys : List κ) (world : σ) : Bool → Run σ κ β τ → Prop
  | onWorkers {f : Floor σ κ β τ} (hworkers : 0 < plan.workers) (hcreate : s.canCreate 1 = true)
      (h : (Floor.begun keys world).Passes s plan f) : Moment s plan bound keys world false f.toRun
  | inline {g : Floor σ κ β τ} {r : Run σ κ β τ}
      (hg : (Floor.start keys world).onWorkers s plan bound = some g)
      (h : g.toRun.Passes s plan r) : Moment s plan bound keys world true r

/-- The calls without workers of a run are those of its moments without workers. -/
theorem moment_inline_iff [Timeline τ] {s : Surroundings σ κ β τ} {plan : Plan τ} {bound : Nat}
    {keys : List κ} {world : σ} {g : Floor σ κ β τ}
    (hg : (Floor.start keys world).onWorkers s plan bound = some g) {r : Run σ κ β τ} :
    Moment s plan bound keys world true r ↔ g.toRun.Passes s plan r := by
  constructor
  · intro h
    cases h with
    | inline hg' hr =>
        rw [hg] at hg'
        cases hg'
        exact hr
  · exact .inline hg

end PhpAudit.WorkPool
