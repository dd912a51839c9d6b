/-
**The rounds of the pool come to an end.**

A round may hand out keys, take in calls, try a failed key again, leave calls behind, wait, or only
ask for new workers.  Two numbers fall in turn.  The burden counts the attempts that are left, with
a surcharge for keys that wait: it falls with every key that is handed out, with every call that
ends, even if its key is tried again, and with every call that is left behind.  A round without any
of these only waits, which brings the first call under way nearer to its end or to its limit; or, if
no call is under way, all workers are held and new ones come, once.  All that is asked of the work
is that every call leaves its place after some waits, by its end or by its limit.

What is left when the workers fail is worked through without them, and there a call cannot be left
behind: if one never ends, neither does the run.

Main definitions:

* `WorkPool.Task.Leaves` — a call that gives up its place after some waits;
* `WorkPool.Run.burden`, `WorkPool.Floor.patience` — what falls from round to round;
* `WorkPool.Floor.Lightens` — a step makes the burden lighter or moves only the clock.

Main results:

* `WorkPool.Floor.lightens_handOut`, `WorkPool.Floor.lightens_gather`,
  `WorkPool.Floor.lightens_expire` — the steps of a round do;
* `WorkPool.Floor.Bounded.progress` — **a round after which another is due makes progress**;
* `WorkPool.exists_run` — a run returns if every call leaves its place and ends without workers;
* `WorkPool.run_ends_on_workers` — **the work on workers ends**, even if every call gets stuck, and
  the run returns unless a call without workers never ends;
* `WorkPool.standstill_never_ends` — a run that does not return.
-/

import Mathlib.Algebra.Order.Archimedean.Basic
import Mathlib.Data.Nat.Find
import PhpAudit.Proofs.WorkPool.Cancellation
import PhpAudit.Proofs.WorkPool.Occupancy
import PhpAudit.Proofs.WorkPool.Verdict

set_option autoImplicit false

namespace PhpAudit.WorkPool

variable {σ κ β τ : Type}

/-! ### The burden -/

/-- The attempts for some calls are those for the ones of a kind and those for the others. -/
theorem weight_filter (retries : Nat) (p : Task κ β τ → Bool) (ts : List (Task κ β τ)) :
    weight retries (ts.map Task.turn) =
      weight retries ((ts.filter p).map Task.turn) +
        weight retries ((ts.filter fun t => !p t).map Task.turn) := by
  induction ts with
  | nil => rfl
  | cons t ts ih =>
      cases hp : p t <;>
      · simp only [List.filter_cons, hp, Bool.not_true, Bool.not_false, Bool.false_eq_true, if_true,
          if_false, List.map_cons, weight, ih]
        omega

/-- The attempts that are left for some calls under way and the keys that wait, twice, and the keys
that wait. -/
def Run.burden (plan : Plan τ) (r : Run σ κ β τ) (live : List (Task κ β τ)) : Nat :=
  2 * weight plan.retries (live.map Task.turn ++ r.pending) + r.pending.length

theorem Run.length_pending_takeIn [Timeline τ] (s : Surroundings σ κ β τ) (plan : Plan τ)
    (r : Run σ κ β τ) (t : Task κ β τ) :
    (r.takeIn s plan t).pending.length ≤ r.pending.length + 1 := by
  unfold takeIn
  split
  · rw [collect_pending]
    split
    · exact Nat.le_succ _
    · exact Nat.le_refl _
  · exact Nat.le_succ _

/-- Calls that are taken in make the burden lighter, even if their keys wait again. -/
theorem Run.burden_foldl_takeIn [Timeline τ] (s : Surroundings σ κ β τ) (plan : Plan τ)
    (r : Run σ κ β τ) (live : List (Task κ β τ)) {ended : List (Task κ β τ)}
    (hended : ∀ t ∈ ended, t.work.isStuck = false) :
    (ended.foldl (takeIn s plan) r).burden plan live + ended.length ≤
      r.burden plan (ended ++ live) := by
  have hless := r.weight_foldl_takeIn s plan hended
  have hwait : (ended.foldl (takeIn s plan) r).pending.length ≤
      r.pending.length + ended.length := by
    clear hless hended
    induction ended generalizing r with
    | nil => exact Nat.le_refl _
    | cons t ended ih =>
        have hrest := ih (r.takeIn s plan t)
        have hfirst := r.length_pending_takeIn s plan t
        rw [List.foldl_cons, List.length_cons]
        omega
  simp only [burden, List.map_append, weight_append] at hless ⊢
  omega

/-! ### Leaving a place -/

/-- Whether a call has ended after so many waits and one more. -/
def Work.endsWithin (n : Nat) : Work β → Bool
  | .ended _ => true
  | .stuck stay _ => stay.pauses.any (· ≤ n)

/-- A call that has ended, or ends within some waits, does so if it hears of something. -/
theorem Work.endsWithin_tick {w : Work β} {n : Nat} (h : w.endsWithin n = true) (beat : Beat) :
    (w.tick beat).endsWithin n = true := by
  cases w with
  | ended outcome => exact h
  | stuck stay later =>
      obtain ⟨starts, pauses⟩ := stay
      cases beat with
      | start =>
          rcases starts with _ | _ | starts
          · exact h
          · rfl
          · exact h
      | pause =>
          rcases pauses with _ | _ | pauses
          · exact h
          · rfl
          · simp only [endsWithin, Option.any_some, decide_eq_true_eq] at h
            simp only [tick, Stay.after?, Stay.less?, Option.map_some, endsWithin, Option.any_some,
              decide_eq_true_eq]
            omega

/-- After a wait that does not end it a call has one wait less before it. -/
theorem Work.endsWithin_succ {w : Work β} (h : (w.tick .pause).isStuck = true) (n : Nat) :
    w.endsWithin (n + 1) = (w.tick .pause).endsWithin n := by
  cases w with
  | ended outcome => cases h
  | stuck stay later =>
      obtain ⟨starts, pauses⟩ := stay
      rcases pauses with _ | _ | pauses
      · rfl
      · cases h
      · simp [tick, Stay.after?, Stay.less?, endsWithin]

/-- A call that is stuck after a wait was not to end with it. -/
theorem Work.not_endsWithin_zero {w : Work β} (h : (w.tick .pause).isStuck = true) :
    w.endsWithin 0 = false := by
  cases w with
  | ended outcome => cases h
  | stuck stay later =>
      obtain ⟨starts, pauses⟩ := stay
      rcases pauses with _ | _ | pauses
      · rfl
      · cases h
      · simp [endsWithin]

section

variable [Timeline τ] {s : Surroundings σ κ β τ} {plan : Plan τ}

/-- Whether a call under way has ended or is late after so many waits and one more. -/
def Task.leavesWithin (s : Surroundings σ κ β τ) (plan : Plan τ) (world : σ) (t : Task κ β τ)
    (n : Nat) : Bool :=
  t.work.endsWithin n ||
    plan.timeout.any fun limit => t.isLate limit (s.now (s.pause^[n + 1] world))

/-- A call gives up its place after some waits, whenever these begin: it ends, or is left behind. -/
def Task.Leaves (s : Surroundings σ κ β τ) (plan : Plan τ) (t : Task κ β τ) : Prop :=
  ∀ world, ∃ n, t.leavesWithin s plan world n = true

theorem Task.Leaves.tick {t : Task κ β τ} (h : t.Leaves s plan) (beat : Beat) :
    (t.tick beat).Leaves s plan := by
  intro world
  obtain ⟨n, hn⟩ := h world
  refine ⟨n, ?_⟩
  rcases Bool.or_eq_true_iff.1 hn with hend | hlate
  · exact Bool.or_eq_true_iff.2 (.inl (Work.endsWithin_tick hend beat))
  · exact Bool.or_eq_true_iff.2 (.inr hlate)

/-- Every call that is made gives up its place. -/
def Surroundings.Leaves (s : Surroundings σ κ β τ) (plan : Plan τ) : Prop :=
  ∀ key attempt world, ({ key, attempt, started := s.now world, work := (s.call key world).1 } :
    Task κ β τ).Leaves s plan

/-- The waits before the first call under way leaves its place; if none is under way, the workers
that are held. -/
noncomputable def Floor.patience (s : Surroundings σ κ β τ) (plan : Plan τ) (f : Floor σ κ β τ) :
    Nat :=
  match f.live with
  | [] => f.held.length
  | t :: _ => sInf {n | t.leavesWithin s plan f.world n = true}

/-- After a wait a call that has not left its place is nearer to it. -/
theorem Task.Leaves.sInf_lt {t : Task κ β τ} (h : t.Leaves s plan) {world : σ}
    (hstuck : (t.tick .pause).work.isStuck = true)
    (hlate : ∀ limit ∈ plan.timeout, t.isLate limit (s.now (s.pause world)) = false) :
    sInf {n | (t.tick .pause).leavesWithin s plan (s.pause world) n = true} <
      sInf {n | t.leavesWithin s plan world n = true} := by
  obtain ⟨n, hn⟩ := h world
  have hmem : sInf {n | t.leavesWithin s plan world n = true} ∈
      {n | t.leavesWithin s plan world n = true} := Nat.sInf_mem ⟨n, hn⟩
  generalize sInf {n | t.leavesWithin s plan world n = true} = least at hmem
  have hnone : plan.timeout.any (fun limit => t.isLate limit (s.now (s.pause world))) = false := by
    cases htimeout : plan.timeout with
    | none => rfl
    | some limit => exact hlate limit htimeout
  cases least with
  | zero =>
      rw [Set.mem_ofPred_eq, leavesWithin, Work.not_endsWithin_zero hstuck, Bool.false_or] at hmem
      exact absurd (hnone.symm.trans hmem) Bool.false_ne_true
  | succ least =>
      refine Nat.lt_succ_of_le (Nat.sInf_le ?_)
      rw [Set.mem_ofPred_eq, leavesWithin, Work.endsWithin_succ hstuck,
        Function.iterate_succ_apply] at hmem
      exact hmem

end

theorem Task.turn_iterate_tick (n : Nat) (t : Task κ β τ) :
    ((Task.tick .pause)^[n] t).turn = t.turn := by
  induction n with
  | zero => rfl
  | succ n ih =>
      rw [Function.iterate_succ_apply']
      exact ih

namespace Floor

variable {s : Surroundings σ κ β τ} {plan : Plan τ} {n m : Nat} {f g h : Floor σ κ β τ}

/-- A step makes the burden lighter, or it is no more than so many waits. -/
def Lightens (s : Surroundings σ κ β τ) (plan : Plan τ) (n : Nat) (f g : Floor σ κ β τ) : Prop :=
  g.burden plan g.live < f.burden plan f.live ∨
    g.live = f.live.map (Task.tick .pause)^[n] ∧ g.pending = f.pending ∧
      g.world = s.pause^[n] f.world

theorem lightens_of_eq (hlive : g.live = f.live) (hpending : g.pending = f.pending)
    (hworld : g.world = f.world) : f.Lightens s plan 0 g :=
  .inr ⟨hlive.trans (List.map_id _).symm, hpending, hworld⟩

/-- Waits do not change the burden. -/
theorem burden_congr (hlive : g.live = f.live.map (Task.tick .pause)^[n])
    (hpending : g.pending = f.pending) : g.burden plan g.live = f.burden plan f.live := by
  have hturns : g.live.map Task.turn = f.live.map Task.turn := by
    rw [hlive, List.map_map]
    exact List.map_congr_left fun t _ => Task.turn_iterate_tick n t
  rw [Run.burden, Run.burden, hturns, hpending]

theorem Lightens.burden_le (hfg : f.Lightens s plan n g) :
    g.burden plan g.live ≤ f.burden plan f.live := by
  rcases hfg with hless | ⟨hlive, hpending, _⟩
  · exact hless.le
  · exact (burden_congr hlive hpending).le

theorem Lightens.trans (hfg : f.Lightens s plan n g) (hgh : g.Lightens s plan m h) :
    f.Lightens s plan (m + n) h := by
  rcases hfg with hless | ⟨hlive, hpending, hworld⟩
  · exact .inl (hgh.burden_le.trans_lt hless)
  · rcases hgh with hless' | ⟨hlive', hpending', hworld'⟩
    · exact .inl (hless'.trans_eq (burden_congr hlive hpending))
    · refine .inr ⟨?_, hpending'.trans hpending, ?_⟩
      · rw [hlive', hlive, List.map_map, Function.iterate_add]
      · rw [hworld', hworld, Function.iterate_add_apply]

variable [Timeline τ]

theorem lightens_opened : f.Lightens s plan 0 (opened s f) := by
  cases hc : s.cancelled f.world with
  | false =>
      rw [opened_of_not_cancelled hc]
      exact lightens_of_eq rfl rfl rfl
  | true =>
      rw [opened_of_cancelled hc]
      cases hpending : f.pending with
      | nil => exact lightens_of_eq rfl hpending.symm rfl
      | cons p rest =>
          left
          simp only [Run.burden, Run.cancelAll, hpending, weight_append, weight, List.length_nil,
            List.length_cons]
          omega

/-- A key that is handed out waits no longer. -/
theorem lightens_handOut : f.Lightens s plan 0 (handOut s plan f) := by
  have hout : (opened s f).Lightens s plan 0 (handOut s plan f) := by
    refine dispatch_keeps (P := (opened s f).Lightens s plan 0) ?_ id (lightens_of_eq rfl rfl rfl) _
    intro g key attempt rest hpending hg
    refine .inl (Nat.lt_of_lt_of_le ?_ hg.burden_le)
    simp only [Run.burden, map_turn_submit, hpending, List.append_assoc, List.singleton_append]
    exact Nat.lt_succ_self _
  exact lightens_opened.trans hout

/-- Calls that are taken in make the burden lighter; if none is, nothing changes. -/
theorem gather_lightens (s : Surroundings σ κ β τ) (plan : Plan τ) (f : Floor σ κ β τ) :
    (gather s plan f).burden plan (gather s plan f).live < f.burden plan f.live ∨
      (∀ t ∈ f.live, t.work.isStuck = true) ∧ gather s plan f = f := by
  cases hended : f.live.filter fun t => !t.work.isStuck with
  | nil =>
      have hstuck : ∀ t ∈ f.live, t.work.isStuck = true := fun t ht => by
        simpa using List.filter_eq_nil_iff.1 hended t ht
      refine .inr ⟨hstuck, ?_⟩
      rw [gather_eq, Run.gathered, hended, List.filter_eq_self.2 hstuck]
      rfl
  | cons t ended =>
      left
      rw [gather_eq]
      simp only [Run.gathered, hended]
      have hall : ∀ u ∈ t :: ended, u.work.isStuck = false := fun u hu => by
        rw [← hended] at hu
        simpa using (List.mem_filter.1 hu).2
      have hless := f.toRun.burden_foldl_takeIn s plan (f.live.filter fun t => t.work.isStuck) hall
      have hsplit := weight_filter plan.retries (fun t => t.work.isStuck) f.live
      rw [hended] at hsplit
      simp only [Run.burden, List.map_append, weight_append, List.length_cons] at hless hsplit ⊢
      omega

/-- If no call has ended there is a wait, and otherwise one is taken in. -/
theorem lightens_gather : f.Lightens s plan 1 (gather s plan (await s f)) := by
  cases hall : f.live.all fun t => t.work.isStuck with
  | true =>
      have hwait : await s f =
          { f with
            world := s.pause f.world
            live := f.live.map (Task.tick .pause)
            held := f.held.map (Work.tick .pause) } := by
        rw [await, if_pos hall]
      have hwaited : f.Lightens s plan 1 (await s f) := by
        rw [hwait]
        exact .inr ⟨rfl, rfl, rfl⟩
      rcases gather_lightens s plan (await s f) with hless | ⟨_, hsame⟩
      · exact .inl (hless.trans_le hwaited.burden_le)
      · rwa [hsame]
  | false =>
      have hwait : await s f = f := by rw [await, if_neg (by simp [hall])]
      rw [hwait]
      refine .inl ((gather_lightens s plan f).resolve_right fun hnone => ?_)
      rw [List.all_eq_true.2 hnone.1] at hall
      cases hall

/-- A call that is left behind is not tried again. -/
theorem lightens_expire : f.Lightens s plan 0 (expire s plan f) := by
  unfold expire
  split
  · exact lightens_of_eq rfl rfl rfl
  · rename_i limit _
    have hsplit := weight_filter plan.retries (Task.isLate limit (s.now f.world)) f.live
    cases hlate : f.live.filter (Task.isLate limit (s.now f.world)) with
    | nil =>
        refine lightens_of_eq (List.filter_eq_self.2 fun t ht => ?_) rfl rfl
        simpa [Task.isLate] using List.filter_eq_nil_iff.1 hlate t ht
    | cons t late =>
        rw [hlate, List.map_cons, weight] at hsplit
        simp only [Task.isLate] at hsplit
        left
        simp only [Run.burden, weight_append]
        omega

/-- Calls under way after a round are stuck and in time. -/
theorem of_mem_live_expire {t : Task κ β τ} (ht : t ∈ (expire s plan (gather s plan f)).live) :
    t.work.isStuck = true ∧
      ∀ limit ∈ plan.timeout, t.isLate limit (s.now (gather s plan f).world) = false := by
  have hstuck : ∀ u ∈ (gather s plan f).live, u.work.isStuck = true := by
    rw [gather_eq]
    exact fun u hu => (List.mem_filter.1 hu).2
  unfold expire at ht
  split at ht
  · rename_i hnone
    exact ⟨hstuck t ht, fun limit hlimit => by rw [hnone] at hlimit; cases hlimit⟩
  · rename_i limit hlimit
    obtain ⟨hmem, hintime⟩ := List.mem_filter.1 ht
    refine ⟨hstuck t hmem, fun limit' hlimit' => ?_⟩
    rw [hlimit] at hlimit'
    cases hlimit'
    simpa [Task.isLate] using hintime

end Floor

/-! ### Rounds -/

section

variable [Timeline τ] {s : Surroundings σ κ β τ} {plan : Plan τ}

/-- Every call under way gives up its place. -/
def Floor.Leaves (s : Surroundings σ κ β τ) (plan : Plan τ) (f : Floor σ κ β τ) : Prop :=
  ∀ t ∈ f.live, t.Leaves s plan

namespace Floor.Leaves

variable {f : Floor σ κ β τ}

theorem handOut (hs : s.Leaves plan) (h : f.Leaves s plan) :
    (handOut s plan f).Leaves s plan := by
  rw [handOut_eq]
  refine dispatch_keeps (P := Floor.Leaves s plan) ?_ id ?_ _
  · intro g key attempt rest hpending hg t ht
    rcases List.mem_append.1 ht with ht | ht
    · obtain ⟨u, hu, rfl⟩ := List.mem_map.1 ht
      exact (hg u hu).tick .start
    · rw [List.mem_singleton.1 ht]
      exact hs key attempt g.world
  · rw [Floor.Leaves, opened_live]
    exact h

theorem await (h : f.Leaves s plan) : (await s f).Leaves s plan := by
  unfold WorkPool.await
  split
  · intro t ht
    obtain ⟨u, hu, rfl⟩ := List.mem_map.1 ht
    exact (h u hu).tick .pause
  · exact h

theorem round (hs : s.Leaves plan) (h : f.Leaves s plan) : (round s plan f).Leaves s plan := by
  rcases round_cases s plan f with ⟨_, _, hround⟩ | ⟨_, _, _, hround⟩ | ⟨_, hround⟩
  · rw [hround]
    exact h.handOut hs
  · rw [hround, replace]
    split <;> exact h.handOut hs
  · intro t ht
    rw [hround, gather_eq] at ht
    refine (h.handOut hs).await t ?_
    unfold expire at ht
    split at ht
    · exact (List.mem_filter.1 ht).1
    · exact (List.mem_filter.1 (List.mem_filter.1 ht).1).1

end Floor.Leaves

namespace Floor.Bounded

/-- Where new workers are asked for, some were held before the round. -/
theorem held_pos {f : Floor σ κ β τ} (h : f.Bounded plan) (hworkers : 0 < plan.workers)
    (hstaff : 0 < plan.staff) (hlive : (WorkPool.handOut s plan f).live = [])
    (hpending : (WorkPool.handOut s plan f).pending ≠ [])
    (hfallback : (WorkPool.handOut s plan f).fallback = false) : 0 < f.held.length := by
  obtain ⟨_, _, hhands, _⟩ :=
    exists_handsOut s ((WorkPool.opened s f).places plan) (WorkPool.opened s f)
  have hheld := hhands.held
  rw [← handOut_eq, opened_held] at hheld
  have hfewer := List.length_filter_le Work.isStuck f.held
  have hfull := (h.full hworkers hlive hpending hfallback).1
  omega

/-- **A round after which another is due makes progress.** -/
theorem progress {f : Floor σ κ β τ} (h : f.Bounded plan) (hleaves : f.Leaves s plan)
    (hworkers : 0 < plan.workers) (hstaff : 0 < plan.staff) {g : Floor σ κ β τ}
    (hg : WorkPool.round s plan f = g) (hbusy : g.isBusy = true) :
    Prod.Lex (· < ·) (· < ·) (g.burden plan g.live, g.patience s plan)
      (f.burden plan f.live, f.patience s plan) := by
  have hout : f.Lightens s plan 0 (WorkPool.handOut s plan f) := lightens_handOut
  rw [Prod.lex_def]
  rcases round_cases s plan f with ⟨hlive, hend, hround⟩ | ⟨hlive, hpending, hfallback, hround⟩ |
    ⟨hlive, hround⟩
  · rcases hend with hend | hend <;> simp [← hg, hround, Floor.isBusy, hlive, hend] at hbusy
  · -- no call is under way, so all workers are held; they are exchanged
    have hnew : g.live = (WorkPool.handOut s plan f).live ∧ g.held = [] := by
      rw [← hg, hround, WorkPool.replace]
      split <;> exact ⟨rfl, rfl⟩
    have hsame : g.burden plan g.live =
        (WorkPool.handOut s plan f).burden plan (WorkPool.handOut s plan f).live := by
      have hwaits : g.pending = (WorkPool.handOut s plan f).pending := by
        rw [← hg, hround, replace_toRun]
      rw [Run.burden, Run.burden, hnew.1, hwaits]
    rcases hout with hless | ⟨hlive', hpending', _⟩
    · exact .inl (hsame.trans_lt hless)
    · refine .inr ⟨hsame.trans (burden_congr hlive' hpending'), ?_⟩
      have hnone : f.live = [] := by simpa [hlive] using hlive'.symm
      simp only [patience, hnew, hlive, hnone, List.length_nil]
      exact h.held_pos hworkers hstaff hlive hpending hfallback
  · have hrest : (WorkPool.handOut s plan f).Lightens s plan 1 g := by
      rw [← hg, hround]
      exact lightens_gather.trans lightens_expire
    rcases hout with hless | ⟨hlive', hpending', hworld⟩
    · exact .inl (hrest.burden_le.trans_lt hless)
    rcases hrest with hless | ⟨hsame, hpending, hmoved⟩
    · exact .inl (hless.trans_eq (burden_congr hlive' hpending'))
    -- the round did nothing but wait, and the first call has not left its place
    refine .inr ⟨(burden_congr hsame hpending).trans (burden_congr hlive' hpending'), ?_⟩
    rw [Function.iterate_zero, List.map_id] at hlive'
    rw [Function.iterate_one, hlive'] at hsame
    rw [Function.iterate_one, hworld, Function.iterate_zero, id] at hmoved
    rw [hlive'] at hlive
    obtain ⟨t, ts, hcalls⟩ := List.exists_cons_of_ne_nil hlive
    rw [hcalls, List.map_cons] at hsame
    obtain ⟨hstuck, hintime⟩ : (t.tick .pause).work.isStuck = true ∧
        ∀ limit ∈ plan.timeout, t.isLate limit (s.now (s.pause f.world)) = false := by
      have hmem : t.tick .pause ∈ g.live := by simp [hsame]
      have hclock : (WorkPool.gather s plan (WorkPool.awaited s plan f)).world =
          s.pause f.world := by rw [← hmoved, ← hg, hround, expire_world]
      rw [← hg, hround] at hmem
      have hleft := of_mem_live_expire hmem
      rwa [hclock] at hleft
    simp only [patience, hsame, hcalls, hmoved]
    exact (hleaves t (hcalls ▸ List.mem_cons_self)).sInf_lt hstuck hintime

/-- The rounds from a state on come to an end. -/
theorem exists_end {f : Floor σ κ β τ} (h : f.Bounded plan) (hleaves : f.Leaves s plan)
    (hs : s.Leaves plan) (hworkers : 0 < plan.workers) (hstaff : 0 < plan.staff) :
    ∃ (bound : Nat) (g : Floor σ κ β τ), g.isBusy = false ∧
      ∀ b, bound ≤ b → rounds s plan b f = some g := by
  cases hbusy : f.isBusy with
  | false => exact ⟨0, f, hbusy, fun b _ => rounds_of_idle hbusy b⟩
  | true =>
      have hstep : ∀ b, rounds s plan (b + 1) f = rounds s plan b (WorkPool.round s plan f) :=
        fun b => by rw [rounds, if_pos hbusy]
      have hnext := h.round (s := s) hworkers
      have hgoes := hleaves.round hs
      generalize hg : WorkPool.round s plan f = g at hstep hnext hgoes
      obtain ⟨bound, e, he, hend⟩ : ∃ (bound : Nat) (e : Floor σ κ β τ), e.isBusy = false ∧
          ∀ b, bound ≤ b → rounds s plan b g = some e := by
        cases hagain : g.isBusy with
        | false => exact ⟨0, g, hagain, fun b _ => rounds_of_idle hagain b⟩
        | true =>
            have hless := h.progress hleaves hworkers hstaff hg hagain
            exact hnext.exists_end hgoes hs hworkers hstaff
      refine ⟨bound + 1, e, he, fun b hb => ?_⟩
      obtain ⟨b, rfl⟩ := Nat.exists_eq_add_of_le' (Nat.le_of_add_left_le hb)
      exact (hstep b).trans (hend b (Nat.le_of_succ_le_succ hb))
termination_by (f.burden plan f.live, f.patience s plan)
decreasing_by exact hless

end Floor.Bounded

/-- **The work on workers ends** if every call gives up its place. -/
theorem exists_onWorkers_end (hs : s.Leaves plan) (hworkers : 0 < plan.workers)
    (hstaff : plan.workers ≤ plan.staff) (keys : List κ) (world : σ) :
    ∃ (bound : Nat) (g : Floor σ κ β τ), g.isBusy = false ∧
      ∀ b, bound ≤ b → (Floor.start keys world).onWorkers s plan b = some g := by
  cases hcreate : s.canCreate 1 with
  | false =>
      have hstaffed : ¬plan.workers ≤ 0 := by omega
      exact ⟨0, { Floor.start keys world with created := 1, fallback := true },
        by simp [Floor.isBusy, Floor.start],
        fun b _ => by simp [Floor.onWorkers, hcreate, hstaffed]⟩
  | true =>
      simp only [Floor.onWorkers_start hworkers hcreate]
      exact (Floor.bounded_begun (by omega) (by omega) keys world).exists_end
        (List.forall_mem_nil _) hs hworkers (by omega)

end

/-! ### A whole run -/

section

variable [Timeline τ] [BEq κ] {s : Surroundings σ κ β τ} {plan : Plan τ} {keys : List κ} {world : σ}

/-- **A run returns**, after enough rounds, if every call gives up its place on a worker and ends
without one. -/
theorem exists_run (hs : s.Leaves plan) (hinline : ∀ key w, (s.callInline key w).isSome = true)
    (hstaff : 0 < plan.workers → plan.workers ≤ plan.staff) (keys : List κ) (world : σ) :
    ∃ bound, ∀ b, bound ≤ b → ∃ fin, run s plan b keys world = some fin := by
  by_cases hworkers : 0 < plan.workers
  · obtain ⟨bound, g, _, hend⟩ := exists_onWorkers_end hs hworkers (hstaff hworkers) keys world
    exact ⟨bound, fun b hb => exists_run_of_onWorkers (hend b hb) hinline⟩
  · refine ⟨0, fun b _ => exists_run_of_onWorkers (g := Floor.start keys world) ?_ hinline⟩
    rw [Floor.onWorkers, if_pos (by omega)]

end

/-- Seconds that are counted exactly. -/
instance : Timeline ℚ where
  zero := 0
  add a b := a + b
  since later earlier := later - earlier
  exceeds a b := decide (b < a)

/-- A clock that moves on by the same time with every pause sees every call late. -/
theorem leaves_of_exact {s : Surroundings σ κ β ℚ} {plan : Plan ℚ} {limit interval : ℚ}
    (htimeout : plan.timeout = some limit) (hinterval : 0 < interval)
    (hpause : ∀ w, s.now (s.pause w) = s.now w + interval) : s.Leaves plan := by
  intro key attempt start world
  have hnow : ∀ n : Nat, s.now (s.pause^[n] world) = s.now world + n • interval := by
    intro n
    induction n with
    | zero => simp
    | succ n ih => rw [Function.iterate_succ_apply', hpause, ih, succ_nsmul, add_assoc]
  obtain ⟨n, hn⟩ := Archimedean.arch (limit + s.now start - s.now world) hinterval
  refine ⟨n, Bool.or_eq_true_iff.2 (.inr ?_)⟩
  rw [htimeout, Option.any_some]
  refine decide_eq_true ?_
  change limit < s.now (s.pause^[n + 1] world) - s.now start
  rw [hnow, succ_nsmul]
  linarith

/-- **The work on workers ends.**  Let every pause move the clock on by the same time, and let calls
be left behind after some time.  Then, whatever the work function does, whichever stuck calls end
later, whichever calls and workers fail and whether or not the run is cancelled, so many rounds are
enough that no other is due.  The run returns then if the workers have not failed.  If they have, it
goes on without workers, and it returns unless it comes to a call there that never ends. -/
theorem run_ends_on_workers [BEq κ] (s : Surroundings σ κ β ℚ) (plan : Plan ℚ)
    (hworkers : 1 ≤ plan.workers) (hstaff : plan.staff = 2 * plan.workers) {limit interval : ℚ}
    (htimeout : plan.timeout = some limit) (hinterval : 0 < interval)
    (hpause : ∀ w, s.now (s.pause w) = s.now w + interval) (keys : List κ) (world : σ) :
    ∃ (bound : Nat) (g : Floor σ κ β ℚ), g.isBusy = false ∧ ∀ b, bound ≤ b →
      (Floor.start keys world).onWorkers s plan b = some g ∧
        run s plan b keys world = (g.withoutWorkers s plan).map (Floor.finished keys) ∧
        (g.fallback = false → run s plan b keys world = some (g.finished keys)) ∧
        (run s plan b keys world = none ↔ ∃ q key attempt rest, g.toRun.Passes s plan q ∧
          q.pending = (key, attempt) :: rest ∧ s.cancelled q.world = false ∧
          s.callInline key q.world = none) ∧
        ((∀ key w, (s.callInline key w).isSome = true) →
          (run s plan b keys world).isSome = true) := by
  obtain ⟨bound, g, hidle, hend⟩ := exists_onWorkers_end
    (leaves_of_exact htimeout hinterval hpause) (by omega) (by omega) keys world
  refine ⟨bound, g, hidle, fun b hb => ?_⟩
  have hrun : run s plan b keys world = (g.withoutWorkers s plan).map (Floor.finished keys) := by
    rw [run, complete_eq, hend b hb, Option.bind_some]
  have hnone : run s plan b keys world = none ↔ ∃ q key attempt rest, g.toRun.Passes s plan q ∧
      q.pending = (key, attempt) :: rest ∧ s.cancelled q.world = false ∧
      s.callInline key q.world = none := by
    rw [hrun, Option.map_eq_none_iff, Floor.withoutWorkers, Option.map_eq_none_iff,
      sequential_eq_none_iff]
  refine ⟨hend b hb, hrun, fun hfallback => ?_, hnone, fun hall => ?_⟩
  · have hpending : g.pending = [] := by
      simpa [hfallback] using (Bool.or_eq_false_iff.1 hidle).2
    rw [hrun, Floor.withoutWorkers, sequential_of_nil s plan hpending]
    rfl
  · obtain ⟨fin, hfin⟩ := exists_run_of_onWorkers (hend b hb) hall
    rw [hfin]
    rfl

/-- Work in which every call gets stuck for good; each pause takes a quarter of a second. -/
def standstill : Surroundings ℚ String Nat ℚ where
  now := id
  pause w := w + 1 / 4
  cancelled _ := false
  call _ w := (.stuck {} (.ok 0), w)
  late key := key ++ " is late"

/-- Where every call gets stuck, the work on three keys ends all the same. -/
theorem standstill_ends_on_workers :
    (∀ key w, (standstill.call key w).1.isStuck = true) ∧ (1 : Int) ≤ 1 ∧ (0 : ℚ) < 1 / 4 ∧
      (∀ w, standstill.now (standstill.pause w) = standstill.now w + 1 / 4) ∧
      ∃ (bound : Nat) (g : Floor ℚ String Nat ℚ), g.isBusy = false ∧ ∀ b, bound ≤ b →
        (Floor.start ["stone", "log", "sand"] 0).onWorkers standstill
          { workers := 1, timeout := some (1 / 2) } b = some g := by
  obtain ⟨bound, g, hidle, hend⟩ := run_ends_on_workers standstill
    { workers := 1, timeout := some (1 / 2) } (by decide) (by decide) rfl
    (show (0 : ℚ) < 1 / 4 by norm_num) (fun _ => rfl) ["stone", "log", "sand"] 0
  exact ⟨fun _ _ => rfl, by decide, by norm_num, fun _ => rfl, bound, g, hidle,
    fun b hb => (hend b hb).1⟩

/-- The same, where the first call cannot be handed to a worker. -/
def standstillUnstaffed : Surroundings ℚ String Nat ℚ :=
  { standstill with canSubmit := fun n => n != 1 }

/-- **A run does not return** if its first call cannot be handed to a worker and never ends: the
call is made without workers then, where it has no limit. -/
theorem standstill_never_ends :
    (∀ w, standstillUnstaffed.now (standstillUnstaffed.pause w) =
      standstillUnstaffed.now w + 1 / 4) ∧
    ∀ bound, run standstillUnstaffed { workers := 1, timeout := some (1 / 2) } bound ["stone"] 0 =
      none := by
  refine ⟨fun _ => rfl, fun bound => ?_⟩
  cases bound with
  | zero => rfl
  | succ bound =>
      -- the only round finds that the call cannot be handed over
      have hround : round standstillUnstaffed { workers := 1, timeout := some (1 / 2) }
          (Floor.begun ["stone"] 0) =
            { Floor.begun ["stone"] 0 with submitted := 1, fallback := true } := rfl
      have hworkers : (Floor.start ["stone"] 0).onWorkers standstillUnstaffed
          { workers := 1, timeout := some (1 / 2) } (bound + 1) =
            some { Floor.begun ["stone"] 0 with submitted := 1, fallback := true } := by
        have hbusy : (Floor.begun ["stone"] 0 : Floor ℚ String Nat ℚ).isBusy = true := rfl
        rw [Floor.onWorkers_start (by decide) rfl, rounds, if_pos hbusy, hround]
        exact rounds_of_idle rfl bound
      rw [run, complete_eq, hworkers, Option.bind_some, Floor.withoutWorkers,
        sequential_of_stuck standstillUnstaffed _ rfl Bool.false_ne_true rfl]
      rfl

end PhpAudit.WorkPool
