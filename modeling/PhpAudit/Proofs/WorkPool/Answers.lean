/-
**The results of a run answer its calls.**

If nothing is tried again, each call that a run makes is answered by one result: by its value, by
its error, or by a result that says that it took too long.  Such a call may have been left behind on
a worker, where it may come to an end afterwards or not, or its value came too late without workers.
Keys that were cancelled are answered without a call.  So what the world has gone through, the calls
that were made with what has become of each, can be told from the results, up to the calls that took
too long.

Main definitions:

* `WorkPool.Surroundings.Way` — the calls on the way from one world to another;
* `WorkPool.Result.Answers` — a result that answers a call;
* `WorkPool.Run.Told`, `WorkPool.Floor.Told` — each call made so far is answered or under way.

Main results:

* `WorkPool.Run.Told.callInline` — a call without workers, waited for as long as it takes;
* `WorkPool.keptInline_told` — the work without workers answers every call;
* `WorkPool.Floor.Told.round` — so does a round;
* `WorkPool.run_tells` — **if a run returns, its results answer its calls**.
-/

import PhpAudit.Proofs.WorkPool.Lateness

set_option autoImplicit false

namespace PhpAudit.WorkPool

variable {σ κ β τ : Type}

/-! ### Calls and results -/

/-- What has become of calls after a further one is started, or after a wait. -/
def heard {α : Type} (beat : Beat) (calls : List (α × Work β)) : List (α × Work β) :=
  calls.map fun e => (e.1, e.2.tick beat)

theorem heard_singleton {α : Type} (beat : Beat) (a : α) (work : Work β) :
    heard beat [(a, work)] = [(a, work.tick beat)] := rfl

/-- The calls on the way from one world to another, in order, with what has become of each. -/
inductive Surroundings.Way (s : Surroundings σ κ β τ) (start : σ) : List (κ × Work β) → σ → Prop
  | refl : Way s start [] start
  | call {made : List (κ × Work β)} {w : σ} (h : Way s start made w) (key : κ) :
      Way s start (heard .start made ++ [(key, (s.call key w).1)]) (s.call key w).2
  | pause {made : List (κ × Work β)} {w : σ} (h : Way s start made w) :
      Way s start (heard .pause made) (s.pause w)

/-- A result that answers a call: it says that the call took too long, or holds the value or the
error that it came to. -/
def Result.Answers (x : Result κ β τ) (work : Work β) : Prop :=
  x.status = .timedOut ∨
    (∃ v, work = .ended (.ok v) ∧ x.status = .completed ∧ x.value = some v) ∨
    ∃ e, work = .ended (.error e) ∧ x.status = .failed ∧ x.error = e

theorem Result.Answers.not_cancelled {x : Result κ β τ} {work : Work β} (h : x.Answers work) :
    (x.status != .cancelled) = true := by
  rcases h with h | ⟨_, _, h, _⟩ | ⟨_, _, h, _⟩ <;> rw [h] <;> rfl

/-- An answered call stays so, whether it ends later or not. -/
theorem Result.Answers.tick {x : Result κ β τ} {work : Work β} (h : x.Answers work) (beat : Beat) :
    x.Answers (work.tick beat) := by
  rcases h with h | ⟨v, rfl, h⟩ | ⟨e, rfl, h⟩
  · exact .inl h
  · exact .inr (.inl ⟨v, rfl, h⟩)
  · exact .inr (.inr ⟨e, rfl, h⟩)

/-- Without another attempt, the end of a call is answered. -/
theorem exists_settled? {plan : Plan τ} (hplan : plan.retries = 0) {attempt : Nat}
    (hattempt : 1 ≤ attempt) (key : κ) (elapsed : τ) (outcome : Except String β) :
    ∃ x, settled? plan key attempt elapsed outcome = some x ∧ x.key = key ∧
      x.Answers (.ended outcome) := by
  cases outcome with
  | ok v => exact ⟨_, rfl, rfl, .inr (.inl ⟨v, rfl, rfl, rfl⟩)⟩
  | error e =>
      refine ⟨.ofError key attempt elapsed e, ?_, rfl, .inr (.inr ⟨e, rfl, rfl, rfl⟩)⟩
      rw [settled?, if_neg (by omega)]

/-- The end of a call without workers is that of one on workers, or a value comes too late. -/
theorem Run.collectInline_cases [Timeline τ] (s : Surroundings σ κ β τ) (plan : Plan τ)
    (r : Run σ κ β τ) (key : κ) (attempt : Nat) (elapsed : τ) (outcome : Except String β) :
    r.collectInline s plan key attempt elapsed outcome =
        r.collect plan key attempt elapsed outcome ∨
      r.collectInline s plan key attempt elapsed outcome =
        r.finish (.ofLate s key attempt elapsed) := by
  unfold collectInline
  split
  · split
    · exact .inr rfl
    · exact .inl rfl
  · exact .inl rfl

/-! ### Answered calls -/

/-- Each call made so far is answered by a result or under way, and each result that was not
cancelled answers a call. -/
structure Run.Told (s : Surroundings σ κ β τ) (start : σ) (r : Run σ κ β τ)
    (told : List (Result κ β τ × Work β)) (underway : List (κ × Work β)) : Prop where
  way : ∃ made, s.Way start made r.world ∧
    made.Perm (told.map (fun p => (p.1.key, p.2)) ++ underway)
  results : (r.results.filter fun x => x.status != .cancelled) = told.map Prod.fst
  answers : ∀ p ∈ told, p.1.Answers p.2
  first : ∀ p ∈ r.pending, 1 ≤ p.2

namespace Run.Told

variable {s : Surroundings σ κ β τ} {start : σ} {r : Run σ κ β τ}
  {told : List (Result κ β τ × Work β)} {underway : List (κ × Work β)}

theorem perm (h : r.Told s start told underway) {underway' : List (κ × Work β)}
    (hp : underway'.Perm underway) : r.Told s start told underway' := by
  obtain ⟨made, hway, hmade⟩ := h.way
  exact ⟨⟨made, hway, hmade.trans (hp.symm.append_left _)⟩, h.results, h.answers, h.first⟩

/-- What has become of the calls of a run, answered or under way. -/
theorem perm_heard {made : List (κ × Work β)}
    (h : made.Perm (told.map (fun p => (p.1.key, p.2)) ++ underway)) (beat : Beat) :
    (heard beat made).Perm
      ((heard beat told).map (fun p => (p.1.key, p.2)) ++ heard beat underway) := by
  refine (h.map fun e => (e.1, e.2.tick beat)).trans (List.Perm.of_eq ?_)
  simp [heard, Function.comp_def]

theorem map_fst_heard (told : List (Result κ β τ × Work β)) (beat : Beat) :
    (heard beat told).map Prod.fst = told.map Prod.fst := by
  simp [heard, Function.comp_def]

theorem answers_heard (h : ∀ p ∈ told, p.1.Answers p.2) (beat : Beat) :
    ∀ p ∈ heard beat told, p.1.Answers p.2 := by
  intro p hp
  obtain ⟨q, hq, rfl⟩ := List.mem_map.1 hp
  exact (h q hq).tick beat

/-- A call is made. -/
theorem call (h : r.Told s start told underway) {key : κ} {attempt : Nat} {rest : List (κ × Nat)}
    (hpending : r.pending = (key, attempt) :: rest) (calls : List κ) :
    ({ r with world := (s.call key r.world).2, pending := rest, calls } : Run σ κ β τ).Told s start
      (heard .start told) (heard .start underway ++ [(key, (s.call key r.world).1)]) := by
  obtain ⟨made, hway, hmade⟩ := h.way
  refine ⟨⟨_, hway.call key, ?_⟩, ?_, answers_heard h.answers .start, ?_⟩
  · rw [← List.append_assoc]
    exact (perm_heard hmade .start).append_right _
  · rw [map_fst_heard]
    exact h.results
  · exact fun p hp => h.first p (hpending ▸ List.mem_cons_of_mem _ hp)

/-- A wait. -/
theorem pause (h : r.Told s start told underway) :
    ({ r with world := s.pause r.world } : Run σ κ β τ).Told s start (heard .pause told)
      (heard .pause underway) := by
  obtain ⟨made, hway, hmade⟩ := h.way
  refine ⟨⟨_, hway.pause, perm_heard hmade .pause⟩, ?_, answers_heard h.answers .pause, h.first⟩
  rw [map_fst_heard]
  exact h.results

/-- A call under way is answered. -/
theorem finish {key : κ} {work : Work β} (h : r.Told s start told ((key, work) :: underway))
    {x : Result κ β τ} (hkey : x.key = key) (hanswers : x.Answers work) {r' : Run σ κ β τ}
    (hworld : r'.world = r.world) (hresults : r'.results = r.results ++ [x])
    (hpending : r'.pending = r.pending) : r'.Told s start (told ++ [(x, work)]) underway := by
  obtain ⟨made, hway, hmade⟩ := h.way
  refine ⟨⟨made, hworld ▸ hway, ?_⟩, ?_, ?_, hpending ▸ h.first⟩
  · simpa [hkey] using hmade
  · rw [hresults, List.filter_append, h.results, List.map_append]
    simp [hanswers.not_cancelled]
  · intro p hp
    rcases List.mem_append.1 hp with hp | hp
    · exact h.answers p hp
    · rw [List.mem_singleton.1 hp]
      exact hanswers

/-- A call that has ended is taken in. -/
theorem collect {plan : Plan τ} (hplan : plan.retries = 0) {key : κ} {outcome : Except String β}
    (h : r.Told s start told ((key, .ended outcome) :: underway)) {attempt : Nat}
    (hattempt : 1 ≤ attempt) (elapsed : τ) :
    ∃ told', (r.collect plan key attempt elapsed outcome).Told s start told' underway := by
  obtain ⟨x, hx, hkey, hanswers⟩ := exists_settled? hplan hattempt key elapsed outcome
  refine ⟨_, h.finish hkey hanswers (Run.collect_world ..) ?_ ?_⟩
  · rw [Run.collect_results, hx, Option.toList_some]
  · rw [Run.collect_pending, hx]
    rfl

/-- So is a call without workers, in time or too late. -/
theorem collectInline [Timeline τ] {plan : Plan τ} (hplan : plan.retries = 0) {key : κ}
    {outcome : Except String β} (h : r.Told s start told ((key, .ended outcome) :: underway))
    {attempt : Nat} (hattempt : 1 ≤ attempt) (elapsed : τ) :
    ∃ told',
      (r.collectInline s plan key attempt elapsed outcome).Told s start told' underway := by
  rcases r.collectInline_cases s plan key attempt elapsed outcome with hsame | hlate
  · rw [hsame]
    exact h.collect hplan hattempt elapsed
  · rw [hlate]
    exact ⟨_, h.finish rfl (.inl rfl) rfl rfl rfl⟩

/-- Waits bring a call to its end. -/
theorem waits {key : κ} {stay : Stay} {later : Except String β} {n : Nat}
    (hstay : stay.pauses = some n) (h : r.Told s start told [(key, .stuck stay later)]) :
    ∃ told', ({ r with world := s.waits (n + 1) r.world } : Run σ κ β τ).Told s start told'
      [(key, .ended later)] := by
  induction n generalizing r told stay with
  | zero =>
      have hend : (Work.stuck stay later).tick .pause = .ended later := by
        simp [Work.tick, Stay.after?, Stay.less?, hstay]
      have hwait := h.pause
      rw [heard_singleton, hend] at hwait
      exact ⟨_, hwait⟩
  | succ n ih =>
      have hnext : (Work.stuck stay later).tick .pause =
          .stuck { stay with pauses := some n } later := by
        simp [Work.tick, Stay.after?, Stay.less?, hstay]
      have hwait := h.pause
      rw [heard_singleton, hnext] at hwait
      exact ih rfl hwait

/-- A call without workers is waited for as long as it takes. -/
theorem callInline (h : r.Told s start told []) {key : κ} {attempt : Nat} {rest : List (κ × Nat)}
    (hpending : r.pending = (key, attempt) :: rest) {outcome : Except String β} {world : σ}
    (hcall : s.callInline key r.world = some (outcome, world)) (calls : List κ) :
    ∃ told', ({ r with world, pending := rest, calls } : Run σ κ β τ).Told s start told'
      [(key, .ended outcome)] := by
  have hmade := h.call hpending calls
  cases hdone : s.call key r.world with
  | mk work w =>
      simp only [Surroundings.callInline, hdone] at hcall
      rw [hdone] at hmade
      cases work with
      | ended came =>
          obtain ⟨rfl, rfl⟩ := Prod.mk.inj (Option.some.inj hcall)
          exact ⟨_, hmade⟩
      | stuck stay later =>
          obtain ⟨n, hstay, heq⟩ := Option.map_eq_some_iff.1 hcall
          obtain ⟨rfl, rfl⟩ := Prod.mk.inj heq
          exact hmade.waits hstay

/-- Cancelling answers no call. -/
theorem cancelAll [Timeline τ] (h : r.Told s start told underway) :
    r.cancelAll.Told s start told underway := by
  refine ⟨h.way, ?_, h.answers, List.forall_mem_nil _⟩
  have hnone : ((r.pending.map fun p => (cancelledResult p.1 p.2 : Result κ β τ)).filter fun x =>
      x.status != .cancelled) = [] := by
    refine List.filter_eq_nil_iff.2 fun x hx => ?_
    obtain ⟨p, _, rfl⟩ := List.mem_map.1 hx
    simp [cancelledResult]
  rw [Run.cancelAll, List.filter_append, h.results, hnone, List.append_nil]

end Run.Told

/-- **The work without workers answers every call.** -/
theorem keptInline_told [Timeline τ] {s : Surroundings σ κ β τ} {plan : Plan τ}
    (hplan : plan.retries = 0) (start : σ) :
    KeptInline s plan fun r => ∃ told, r.Told s start told [] := by
  refine ⟨?_, fun _ ⟨told, hr⟩ => ⟨told, hr.cancelAll⟩⟩
  rintro r key attempt rest outcome world hpending _ hcall ⟨told, hr⟩
  obtain ⟨_, hmade⟩ := hr.callInline hpending hcall (r.calls ++ [key])
  exact hmade.collectInline hplan (hr.first (key, attempt) (hpending ▸ List.mem_cons_self)) _

/-! ### A round -/

/-- A call on a worker under its key. -/
def Task.made (t : Task κ β τ) : κ × Work β :=
  (t.key, t.work)

theorem map_made_tick (beat : Beat) (live : List (Task κ β τ)) :
    (live.map (Task.tick beat)).map Task.made = heard beat (live.map Task.made) := by
  rw [heard, List.map_map, List.map_map]
  rfl

/-- Each call made so far is answered or under way on a worker. -/
structure Floor.Told (s : Surroundings σ κ β τ) (start : σ) (f : Floor σ κ β τ)
    (told : List (Result κ β τ × Work β)) : Prop where
  run : f.toRun.Told s start told (f.live.map Task.made)
  attempts : ∀ t ∈ f.live, 1 ≤ t.attempt

/-- Taking in calls that have ended answers all of them. -/
theorem Run.Told.foldl_takeIn [Timeline τ] {s : Surroundings σ κ β τ} {start : σ} {plan : Plan τ}
    (hplan : plan.retries = 0) {ts : List (Task κ β τ)}
    (hended : ∀ t ∈ ts, t.work.isStuck = false) (hattempts : ∀ t ∈ ts, 1 ≤ t.attempt)
    {r : Run σ κ β τ} {told : List (Result κ β τ × Work β)} {underway : List (κ × Work β)}
    (h : r.Told s start told (ts.map Task.made ++ underway)) :
    ∃ told', (ts.foldl (Run.takeIn s plan) r).Told s start told' underway := by
  induction ts generalizing r told with
  | nil => exact ⟨told, h⟩
  | cons t ts ih =>
      have hstuck := hended t List.mem_cons_self
      cases hwork : t.work with
      | stuck stay later =>
          rw [hwork] at hstuck
          cases hstuck
      | ended outcome =>
          have hfirst : r.takeIn s plan t = r.collect plan t.key t.attempt
              (Timeline.since (s.now r.world) t.started) outcome := by
            simp only [Run.takeIn, hwork]
          rw [List.map_cons, List.cons_append, Task.made, hwork] at h
          obtain ⟨_, htaken⟩ := h.collect hplan (hattempts t List.mem_cons_self)
            (Timeline.since (s.now r.world) t.started)
          rw [List.foldl_cons, hfirst]
          exact ih (fun u hu => hended u (List.mem_cons_of_mem _ hu))
            (fun u hu => hattempts u (List.mem_cons_of_mem _ hu)) htaken

/-- Calls that are left behind are answered by results that say so. -/
theorem Run.Told.leave [Timeline τ] {s : Surroundings σ κ β τ} {start : σ} (now : τ)
    {gone : List (Task κ β τ)} {r : Run σ κ β τ} {told : List (Result κ β τ × Work β)}
    {underway : List (κ × Work β)} (h : r.Told s start told (gone.map Task.made ++ underway)) :
    ∃ told', ({ r with results := r.results ++ gone.map (expiredResult s now) } :
      Run σ κ β τ).Told s start told' underway := by
  induction gone generalizing r told with
  | nil =>
      rw [List.map_nil, List.append_nil]
      exact ⟨told, h⟩
  | cons t gone ih =>
      have hnext : (r.finish (expiredResult s now t)).Told s start
          (told ++ [(expiredResult s now t, t.work)]) (gone.map Task.made ++ underway) :=
        h.finish rfl (.inl rfl) rfl rfl rfl
      obtain ⟨told', hrest⟩ := ih hnext
      refine ⟨told', ?_⟩
      rw [List.map_cons]
      simpa only [Run.finish, List.append_assoc, List.singleton_append] using hrest

namespace Floor.Told

variable {s : Surroundings σ κ β τ} {start : σ} {f : Floor σ κ β τ}
  {told : List (Result κ β τ × Work β)} {plan : Plan τ}

/-- The next call is made. -/
theorem submit (h : f.Told s start told) {key : κ} {attempt : Nat} {rest : List (κ × Nat)}
    (hpending : f.pending = (key, attempt) :: rest) :
    (submit s f key attempt rest).Told s start (heard .start told) := by
  refine ⟨?_, ?_⟩
  · have hmade := h.run.call hpending (f.calls ++ [key])
    simp only [WorkPool.submit, List.map_append, map_made_tick]
    exact hmade
  · intro t ht
    rcases List.mem_append.1 ht with ht | ht
    · obtain ⟨u, hu, rfl⟩ := List.mem_map.1 ht
      exact h.attempts u hu
    · rw [List.mem_singleton.1 ht]
      exact h.run.first (key, attempt) (hpending ▸ List.mem_cons_self)

theorem await (h : f.Told s start told) : ∃ told', (await s f).Told s start told' := by
  unfold WorkPool.await
  split
  · refine ⟨heard .pause told, ?_, ?_⟩
    · rw [map_made_tick]
      exact h.run.pause
    · intro t ht
      obtain ⟨u, hu, rfl⟩ := List.mem_map.1 ht
      exact h.attempts u hu
  · exact ⟨told, h⟩

variable [Timeline τ]

theorem handOut (plan : Plan τ) (h : f.Told s start told) :
    ∃ told', (handOut s plan f).Told s start told' := by
  have hopened : (opened s f).Told s start told := by
    cases hc : s.cancelled f.world with
    | false =>
        rw [opened_of_not_cancelled hc]
        exact ⟨h.run, h.attempts⟩
    | true =>
        rw [opened_of_cancelled hc]
        exact ⟨h.run.cancelAll, h.attempts⟩
  rw [handOut_eq]
  exact dispatch_keeps (P := fun g => ∃ told', g.Told s start told')
    (fun hpending ⟨_, hg⟩ => ⟨_, hg.submit hpending⟩)
    (fun ⟨told', hg⟩ => ⟨told', hg.run, hg.attempts⟩) ⟨told, hopened⟩ _

theorem gather (hplan : plan.retries = 0) (h : f.Told s start told) :
    ∃ told', (gather s plan f).Told s start told' := by
  have hall := (List.filter_append_perm (fun t => !t.work.isStuck) f.live).map Task.made
  simp only [Bool.not_not, List.map_append] at hall
  obtain ⟨told', htaken⟩ := (h.run.perm hall).foldl_takeIn hplan
    (fun t ht => by simpa using (List.mem_filter.1 ht).2)
    fun t ht => h.attempts t (List.mem_filter.1 ht).1
  rw [gather_eq]
  exact ⟨told', htaken, fun t ht => h.attempts t (List.mem_filter.1 ht).1⟩

theorem expire (h : f.Told s start told) : ∃ told', (expire s plan f).Told s start told' := by
  unfold WorkPool.expire
  split
  · exact ⟨told, h⟩
  · rename_i limit _
    have hall := (List.filter_append_perm (fun t => Timeline.exceeds
      (Timeline.since (s.now f.world) t.started) limit) f.live).map Task.made
    rw [List.map_append] at hall
    obtain ⟨told', hleft⟩ := (h.run.perm hall).leave (s.now f.world)
    exact ⟨told', hleft, fun t ht => h.attempts t (List.mem_filter.1 ht).1⟩

/-- **A round answers every call that it takes in or leaves behind.** -/
theorem round (hplan : plan.retries = 0) (h : f.Told s start told) :
    ∃ told', (round s plan f).Told s start told' := by
  obtain ⟨_, hout⟩ := h.handOut plan
  rcases round_cases s plan f with ⟨_, _, hround⟩ | ⟨_, _, _, hround⟩ | ⟨_, hround⟩
  · rw [hround]
    exact ⟨_, hout⟩
  · rw [hround, WorkPool.replace]
    split <;> exact ⟨_, hout.run, hout.attempts⟩
  · obtain ⟨_, hwaited⟩ := hout.await
    obtain ⟨_, htaken⟩ := hwaited.gather hplan
    rw [hround]
    exact htaken.expire

end Floor.Told

/-! ### A whole run -/

theorem Floor.told_start (s : Surroundings σ κ β τ) (keys : List κ) (world : σ) :
    (Floor.start keys world : Floor σ κ β τ).Told s world [] := by
  refine ⟨⟨⟨[], .refl, List.Perm.refl _⟩, rfl, List.forall_mem_nil _, ?_⟩, List.forall_mem_nil _⟩
  intro p hp
  obtain ⟨k, _, rfl⟩ := List.mem_map.1 hp
  exact Nat.le_refl 1

section

variable [Timeline τ] {s : Surroundings σ κ β τ} {plan : Plan τ} {bound : Nat} {keys : List κ}
  {world : σ}

/-- **If a run returns, its results answer its calls.**  If nothing is tried again, each call on the
way to the last world is answered by one result, and each result that is not cancelled answers a
call. -/
theorem run_tells [BEq κ] [EquivBEq κ] (hplan : plan.retries = 0) (hd : Distinct keys)
    {fin : Finished σ κ β τ} (h : run s plan bound keys world = some fin) :
    ∃ made, ∃ told : List (Result κ β τ × Work β),
      fin.results.map Result.key = keys ∧
      s.Way world made fin.world ∧ made.Perm (told.map fun p => (p.1.key, p.2)) ∧
      (fin.results.filter fun x => x.status != .cancelled).Perm (told.map Prod.fst) ∧
      ∀ p ∈ told, p.1.Answers p.2 := by
  obtain ⟨e, he, rfl⟩ := Option.map_eq_some_iff.1 h
  have hstart := Floor.told_start (β := β) (τ := τ) s keys world
  have hidle : ∀ f : Floor σ κ β τ, f.live = [] → (∃ told, f.Told s world told) →
      ∃ told, f.toRun.Told s world told [] := by
    rintro f hlive ⟨told, hf⟩
    have hrun := hf.run
    rw [hlive] at hrun
    exact ⟨told, hrun⟩
  obtain ⟨⟨told, htold⟩, _⟩ := complete_keeps (P := fun f => ∃ told, f.Told s world told) he
    (fun _ _ => ⟨[], hstart.run, hstart.attempts⟩) (fun _ _ ⟨_, hf⟩ => hf.round hplan) hidle
    (keptInline_told hplan world)
  obtain ⟨made, hway, hmade⟩ := htold.way
  rw [List.append_nil] at hmade
  refine ⟨made, told, (finished_keys hd he).2, hway, hmade, ?_, htold.answers⟩
  rw [← htold.results]
  exact (finished_results_perm hd he).filter _

end

end PhpAudit.WorkPool
