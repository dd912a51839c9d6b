/-
**A run of the pool stays within its staff.**

Whether another key can be handed out is worked out anew in each round, from the calls under way and
from a list of calls that were left behind, out of which those that have ended are struck first.
Between two such moments calls end, are left behind and free their workers, and the whole group of
workers may be exchanged.  This module shows that the counts hold all the same, at every moment of a
run: no more calls are under way than keys may be worked on at once, and with the calls left behind
they never need more workers than there are, so that no call waits behind a stuck one.  A group of
workers is given up only when each of them is held by a call that was left behind; so every group
that was given up is paid for by as many keys that took too long.

Main definitions:

* `WorkPool.Floor.Bounded` — the counts of a state are in order.

Main results:

* `WorkPool.Floor.Bounded.handing`, `WorkPool.Floor.Bounded.gather`,
  `WorkPool.Floor.Bounded.expire` — the steps of a round keep the counts in order;
* `WorkPool.Floor.Bounded.full` — where new workers are asked for, all workers are held;
* `WorkPool.Floor.Bounded.round`, `WorkPool.Floor.Bounded.passes` — the counts are in order after a
  round, and at every moment;
* `WorkPool.run_stays_within_staff` — **the bounds of a whole run**.
-/

import Mathlib.Algebra.Order.Ring.Int
import Mathlib.Tactic.Ring
import PhpAudit.Proofs.WorkPool.Moments

set_option autoImplicit false

namespace PhpAudit.WorkPool

variable {σ κ β τ : Type}

/-! ### Counts of results -/

theorem count_append (status : Status) (xs ys : List (Result κ β τ)) :
    count status (xs ++ ys) = count status xs + count status ys := by
  simp [count]

theorem count_eq_zero {status : Status} {xs : List (Result κ β τ)}
    (h : ∀ x ∈ xs, x.status ≠ status) : count status xs = 0 := by
  simpa [count] using h

theorem count_eq_length {status : Status} {xs : List (Result κ β τ)}
    (h : ∀ x ∈ xs, x.status = status) : count status xs = xs.length := by
  have hall : (xs.filter fun x => x.status == status) = xs := by simpa using h
  rw [count, hall]

/-- A call that has ended never counts as one that took too long. -/
theorem status_ne_of_settled? {plan : Plan τ} {key : κ} {attempt : Nat} {elapsed : τ}
    {outcome : Except String β} {x : Result κ β τ}
    (h : settled? plan key attempt elapsed outcome = some x) : x.status ≠ .timedOut := by
  obtain ⟨_, _, rfl⟩ | ⟨_, _, _, rfl⟩ := settled?_eq_some_iff.1 h
  · simp [Result.ofValue]
  · simp [Result.ofError]

/-! ### The counts of a state -/

/-- The counts of a state are in order: the calls under way are no more than may be, together with
those left behind they find a worker each, each call left behind has a result that says so, and each
group of workers that was given up is paid for by such calls, not counting those that hold a worker
of the present group. -/
structure Floor.Bounded (plan : Plan τ) (f : Floor σ κ β τ) : Prop where
  live : (f.live.length : Int) ≤ plan.workers
  staff : (f.live.length : Int) + f.held.length ≤ plan.staff
  abandoned : f.abandoned = count .timedOut f.results
  replaced : (f.replaced : Int) * plan.staff + f.held.length ≤ f.abandoned

namespace Floor.Bounded

variable {plan : Plan τ} {f : Floor σ κ β τ}

/-- There are never more places than the counts allow. -/
theorem handing (h : f.Bounded plan) (s : Surroundings σ κ β τ) {n : Nat}
    (hn : n ≤ f.places plan) : (dispatch s n f).Bounded plan := by
  obtain ⟨taken, hlength, hout, _⟩ := exists_handsOut s n f
  have hlive := h.live
  have hstaff := h.staff
  have hplaces : (f.live.length : Int) + taken.length ≤ plan.workers ∧
      (f.live.length : Int) + taken.length + f.held.length ≤ plan.staff := by
    simp only [Floor.places] at hn
    omega
  refine ⟨?_, ?_, ?_, ?_⟩
  · rw [hout.live]
    push_cast
    exact hplaces.1
  · rw [hout.live, hout.held]
    push_cast
    exact hplaces.2
  · rw [hout.abandoned, hout.results]
    exact h.abandoned
  · rw [hout.replaced, hout.held, hout.abandoned]
    exact h.replaced

/-- A group of workers that is given up was held by calls left behind, so it is paid for. -/
theorem replace (h : f.Bounded plan) (hheld : (f.held.length : Int) = plan.staff)
    (s : Surroundings σ κ β τ) : (replace s f).Bounded plan := by
  have hlive := h.live
  have hstaff := h.staff
  have hreplaced := h.replaced
  unfold WorkPool.replace
  split
  · refine ⟨hlive, ?_, h.abandoned, ?_⟩
    · simp only [List.length_nil]
      omega
    · have hone : ((f.replaced + 1 : Nat) : Int) * plan.staff =
          f.replaced * plan.staff + plan.staff := by
        push_cast
        ring
      simp only [List.length_nil, hone]
      omega
  · refine ⟨hlive, ?_, h.abandoned, ?_⟩
    · simp only [List.length_nil]
      omega
    · simp only [List.length_nil]
      omega

theorem await (h : f.Bounded plan) (s : Surroundings σ κ β τ) :
    (await s f).Bounded plan := by
  unfold WorkPool.await
  split
  · exact ⟨by simpa using h.live, by simpa using h.staff, h.abandoned, by simpa using h.replaced⟩
  · exact h

variable [Timeline τ] {s : Surroundings σ κ β τ}

/-- Cancelled keys do not count, and a worker that is free again is one less that is held. -/
theorem opened (h : f.Bounded plan) : (opened s f).Bounded plan := by
  have hheld : ((f.held.filter Work.isStuck).length : Int) ≤ f.held.length := by
    exact_mod_cast List.length_filter_le _ _
  have hstaff := h.staff
  have hreplaced := h.replaced
  cases hc : s.cancelled f.world with
  | true =>
      rw [opened_of_cancelled hc]
      refine ⟨h.live, by dsimp only; omega, ?_, by dsimp only; omega⟩
      have hnone : count .timedOut (f.pending.map fun p =>
          (Run.cancelledResult p.1 p.2 : Result κ β τ)) = 0 := by
        refine count_eq_zero fun x hx => ?_
        obtain ⟨p, _, rfl⟩ := List.mem_map.1 hx
        simp [Run.cancelledResult]
      simp only [Run.cancelAll, count_append, hnone, Nat.add_zero]
      exact h.abandoned
  | false =>
      rw [opened_of_not_cancelled hc]
      exact ⟨h.live, by dsimp only; omega, h.abandoned, by dsimp only; omega⟩

theorem handOut (h : f.Bounded plan) : (handOut s plan f).Bounded plan :=
  h.opened.handing s (Nat.le_refl _)

theorem awaited (h : f.Bounded plan) : (awaited s plan f).Bounded plan :=
  h.handOut.await s

theorem gather (h : f.Bounded plan) : (gather s plan f).Bounded plan := by
  have hfewer : ((f.live.filter fun t => t.work.isStuck).length : Int) ≤ f.live.length := by
    exact_mod_cast List.length_filter_le _ _
  have hlive := h.live
  have hstaff := h.staff
  have hnone : count .timedOut
      (f.live.filterMap (Task.settled? plan (s.now f.world))) = 0 := by
    refine count_eq_zero fun x hx => ?_
    obtain ⟨t, _, ht⟩ := List.mem_filterMap.1 hx
    unfold Task.settled? at ht
    split at ht
    · exact status_ne_of_settled? ht
    · cases ht
  rw [gather_eq]
  refine ⟨by dsimp only; omega, by dsimp only; omega, ?_, h.replaced⟩
  simp only [Run.gathered_results, count_append, hnone, Nat.add_zero]
  exact h.abandoned

/-- A call that is left behind takes its worker along. -/
theorem expire (h : f.Bounded plan) : (expire s plan f).Bounded plan := by
  unfold WorkPool.expire
  split
  · exact h
  · rename_i limit _
    have hall := (List.filter_append_perm (fun t => Timeline.exceeds
      (Timeline.since (s.now f.world) t.started) limit) f.live).length_eq
    rw [List.length_append] at hall
    have hlive := h.live
    have hstaff := h.staff
    have hreplaced := h.replaced
    refine ⟨?_, ?_, ?_, ?_⟩
    · dsimp only
      omega
    · simp only [List.length_append, List.length_map]
      push_cast
      omega
    · have hgone (gone : List (Task κ β τ)) :
          count .timedOut (gone.map (expiredResult s (s.now f.world))) = gone.length := by
        rw [count_eq_length, List.length_map]
        intro x hx
        obtain ⟨t, _, rfl⟩ := List.mem_map.1 hx
        rfl
      rw [count_append, hgone, h.abandoned]
    · simp only [List.length_append, List.length_map]
      push_cast
      omega

/-- **New workers are asked for only when all workers are held.** -/
theorem full (h : f.Bounded plan) (hworkers : 0 < plan.workers)
    (hlive : (WorkPool.handOut s plan f).live = [])
    (hpending : (WorkPool.handOut s plan f).pending ≠ [])
    (hfallback : (WorkPool.handOut s plan f).fallback = false) :
    ((WorkPool.handOut s plan f).held.length : Int) = plan.staff ∧
      ∀ w ∈ (WorkPool.handOut s plan f).held, w.isStuck = true := by
  have hbound := (h.handOut (s := s)).staff
  obtain ⟨taken, _, hout, hend⟩ :=
    exists_handsOut s ((WorkPool.opened s f).places plan) (WorkPool.opened s f)
  rw [← handOut_eq] at hout hend
  -- nothing was handed out although a key waits, so there was no place
  have hidle : (WorkPool.opened s f).live.length = 0 ∧ taken.length = 0 := by
    have hcount := hout.live
    rw [hlive, List.length_nil] at hcount
    omega
  have hplaces : (WorkPool.opened s f).places plan = 0 := by
    rcases hend with hused | hnone | hfailed
    · rw [← hused, hidle.2]
    · exact absurd hnone hpending
    · rw [hfallback] at hfailed
      cases hfailed
  have hheld := hout.held
  constructor
  · simp only [Floor.places, hidle.1] at hplaces
    rw [hheld]
    rw [hlive, hheld, List.length_nil] at hbound
    omega
  · rw [handOut_eq, hplaces, dispatch, opened_held]
    exact fun w hw => (List.mem_filter.1 hw).2

/-- **A round keeps the counts in order.** -/
theorem round (h : f.Bounded plan) (hworkers : 0 < plan.workers) :
    (round s plan f).Bounded plan := by
  have hout := h.handOut (s := s)
  rcases round_cases s plan f with ⟨_, _, hround⟩ | ⟨hlive, hpending, hfallback, hround⟩ |
    ⟨_, hround⟩
  · rw [hround]
    exact hout
  · rw [hround]
    exact hout.replace (h.full hworkers hlive hpending hfallback).1 s
  · rw [hround]
    exact h.awaited.gather.expire

theorem reaches (h : f.Bounded plan) (hworkers : 0 < plan.workers) {g : Floor σ κ β τ}
    (hg : f.Reaches s plan g) : g.Bounded plan :=
  hg.keeps h fun _ _ hm => hm.round hworkers

/-- **The counts are in order at every moment.** -/
theorem passes (h : f.Bounded plan) (hworkers : 0 < plan.workers) {g : Floor σ κ β τ}
    (hg : f.Passes s plan g) : g.Bounded plan := by
  cases hg with
  | between hg => exact h.reaches hworkers hg
  | handing hg _ hn => exact (h.reaches hworkers hg).opened.handing s hn
  | waiting hg _ _ => exact (h.reaches hworkers hg).awaited
  | gathered hg _ _ => exact (h.reaches hworkers hg).awaited.gather

end Floor.Bounded

/-! ### A whole run -/

theorem Floor.bounded_begun {plan : Plan τ} (hworkers : 0 ≤ plan.workers)
    (hstaff : 0 ≤ plan.staff) (keys : List κ) (world : σ) :
    (Floor.begun keys world : Floor σ κ β τ).Bounded plan := by
  refine ⟨?_, ?_, rfl, ?_⟩
  · simpa [Floor.begun, Floor.start] using hworkers
  · simpa [Floor.begun, Floor.start] using hstaff
  · simp [Floor.begun, Floor.start]

/-- A round asks for new workers only where it replaces them. -/
theorem handOut_of_created_ne [Timeline τ] {s : Surroundings σ κ β τ} {plan : Plan τ}
    {f : Floor σ κ β τ}
    (h : (round s plan f).created ≠ f.created ∨ (round s plan f).replaced ≠ f.replaced) :
    (handOut s plan f).live = [] ∧ (handOut s plan f).pending ≠ [] ∧
      (handOut s plan f).fallback = false := by
  have hopened : (opened s f).created = f.created ∧ (opened s f).replaced = f.replaced := by
    simp only [opened]
    split <;> exact ⟨rfl, rfl⟩
  have hsame : (handOut s plan f).created = f.created ∧
      (handOut s plan f).replaced = f.replaced := by
    obtain ⟨_, _, hout, _⟩ := exists_handsOut s ((opened s f).places plan) (opened s f)
    rw [← handOut_eq] at hout
    exact ⟨hout.created.trans hopened.1, hout.replaced.trans hopened.2⟩
  rcases round_cases s plan f with ⟨_, _, hround⟩ | ⟨hlive, hpending, hfallback, _⟩ | ⟨_, hround⟩
  · rw [hround] at h
    exact absurd hsame (by tauto)
  · exact ⟨hlive, hpending, hfallback⟩
  · have hkept : (round s plan f).created = (handOut s plan f).created ∧
        (round s plan f).replaced = (handOut s plan f).replaced := by
      obtain ⟨_, _, _, hwait⟩ := await_eq s (handOut s plan f)
      rw [hround, gather_eq, awaited, hwait]
      unfold expire
      split <;> exact ⟨rfl, rfl⟩
    rw [hkept.1, hkept.2] at h
    exact absurd hsame (by tauto)

/-- **A run of the pool stays within its staff.**  There are twice as many workers as keys that may
be worked on at once.  Whatever the work function does, however long it takes, whichever stuck calls
end later and whichever calls and workers fail:

* at every moment of a run on workers the calls under way are no more than the keys that may be
  worked on at once, and together with the calls that were left behind and hold a worker they are no
  more than the workers;
* a round asks for new workers only if nothing is under way and every worker is held by a call that
  was left behind and has not ended;
* at every moment, and when the run returns, the calls left behind are the keys that took too long
  on workers, and there are as many of them as workers were given up, or more. -/
theorem run_stays_within_staff [Timeline τ] [BEq κ] (s : Surroundings σ κ β τ) (plan : Plan τ)
    (hworkers : 0 < plan.workers) (hstaff : plan.staff = 2 * plan.workers) (keys : List κ)
    (world : σ) :
    (∀ f : Floor σ κ β τ, (Floor.begun keys world).Passes s plan f →
      (f.live.length : Int) ≤ plan.workers ∧
      (f.live.length : Int) + f.held.length ≤ 2 * plan.workers ∧
      (f.replaced : Int) * (2 * plan.workers) ≤ f.abandoned ∧
      f.abandoned = count .timedOut f.results) ∧
    (∀ f : Floor σ κ β τ, (Floor.begun keys world).Reaches s plan f → f.isBusy = true →
      ((round s plan f).created ≠ f.created ∨ (round s plan f).replaced ≠ f.replaced) →
      (handOut s plan f).live = [] ∧
      ((handOut s plan f).held.length : Int) = 2 * plan.workers ∧
      ∀ w ∈ (handOut s plan f).held, w.isStuck = true) ∧
    (∀ (bound : Nat) (fin : Finished σ κ β τ), run s plan bound keys world = some fin →
      ∃ g : Floor σ κ β τ, (Floor.start keys world).onWorkers s plan bound = some g ∧
        fin.tally.abandoned = count .timedOut g.results ∧
        (fin.tally.replaced : Int) * (2 * plan.workers) ≤ fin.tally.abandoned) := by
  have hstart : (Floor.begun keys world : Floor σ κ β τ).Bounded plan :=
    Floor.bounded_begun (by omega) (by omega) keys world
  have hpaid {f : Floor σ κ β τ} (h : f.Bounded plan) :
      (f.replaced : Int) * (2 * plan.workers) ≤ f.abandoned := by
    have hreplaced := h.replaced
    rw [hstaff] at hreplaced
    omega
  refine ⟨?_, ?_, ?_⟩
  · intro f hf
    have h := hstart.passes hworkers hf
    exact ⟨h.live, hstaff ▸ h.staff, hpaid h, h.abandoned⟩
  · intro f hf _ hnew
    obtain ⟨hlive, hpending, hfallback⟩ := handOut_of_created_ne hnew
    obtain ⟨hheld, hstuck⟩ := (hstart.reaches hworkers hf).full hworkers hlive hpending hfallback
    exact ⟨hlive, hheld.trans hstaff, hstuck⟩
  · intro bound fin hfin
    obtain ⟨e, he, rfl⟩ := Option.map_eq_some_iff.1 hfin
    obtain ⟨g, r, hg, _, rfl⟩ := exists_of_complete he
    have h : g.abandoned = count .timedOut g.results ∧
        (g.replaced : Int) * (2 * plan.workers) ≤ g.abandoned := by
      unfold Floor.onWorkers at hg
      rw [if_neg (by omega)] at hg
      split at hg
      · have hend := hstart.reaches hworkers (Floor.reaches_of_rounds hg)
        exact ⟨hend.abandoned, hpaid hend⟩
      · cases hg
        exact ⟨rfl, by simp [Floor.start]⟩
    exact ⟨g, hg, h.1, h.2⟩

/-- Work in which every key but one gets stuck for good; each pause takes a quarter of a second. -/
def mostlyStuck : Surroundings Float String Nat Float where
  now := id
  pause w := w + 0.25
  cancelled _ := false
  call key w :=
    match key with
    | "good" => (.ended (.ok 1), w)
    | _ => (.stuck {} (.ok 0), w)
  late key := key ++ " is late"

/-- Two stuck keys hold both workers of one key at a time, so that a third waits for new ones: these
are paid for by the two. -/
theorem mostlyStuck_stays_within_staff :
    (0 : Int) < 1 ∧ ∃ fin, run mostlyStuck { workers := 1, timeout := some 0.1 } 9
        ["stone", "log", "good", "sand"] 0.0 = some fin ∧
      fin.results.map Result.status = [.timedOut, .timedOut, .completed, .timedOut] ∧
      fin.tally.replaced = 1 ∧ fin.tally.abandoned = 3 ∧
      (fin.tally.replaced : Int) * (2 * 1) ≤ fin.tally.abandoned := by
  have h : (run mostlyStuck { workers := 1, timeout := some 0.1 } 9
      ["stone", "log", "good", "sand"] 0.0).map (fun fin =>
        (fin.results.map Result.status, fin.tally.replaced, fin.tally.abandoned)) =
      some ([.timedOut, .timedOut, .completed, .timedOut], 1, 3) := by
    decide +kernel
  obtain ⟨fin, hfin, hfacts⟩ := Option.map_eq_some_iff.1 h
  simp only [Prod.mk.injEq] at hfacts
  obtain ⟨hstatus, hreplaced, habandoned⟩ := hfacts
  obtain ⟨_, _, hrun⟩ := run_stays_within_staff mostlyStuck { workers := 1, timeout := some 0.1 }
    (by decide) (by decide) ["stone", "log", "good", "sand"] 0.0
  obtain ⟨_, _, _, hpaid⟩ := hrun 9 fin hfin
  exact ⟨by decide, fin, hfin, hstatus, hreplaced, habandoned, hpaid⟩

end PhpAudit.WorkPool
