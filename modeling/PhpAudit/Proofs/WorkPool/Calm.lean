/-
**Runs in which no call gets stuck.**

If every call comes to an end at once, each round takes in whatever it has handed out, so that fewer
attempts are left after it, and the run returns.  If moreover no call takes too long, nobody cancels
and nothing is tried again, then the calls are made one after the other in the order of the keys,
whether there are workers or not, however many keys are handed out in a round, and whenever the
workers fail.  So such a calm run has one course: the list of its keys with what the call for each
came to.  This module shows that a run follows its course to the end.

Main definitions:

* `WorkPool.Surroundings.Prompt` — no call gets stuck;
* `WorkPool.Calm` — the course of a run from one world to another;
* `WorkPool.Result.Tells` — a result that tells what a call came to;
* `WorkPool.Floor.OnTrack` — a state that has followed the course so far.

Main results:

* `WorkPool.Floor.Prompt.round` — fewer attempts are left after a round;
* `WorkPool.run_returns` — **a run in which no call gets stuck returns**;
* `WorkPool.Floor.OnTrack.round` — a round follows the course;
* `WorkPool.run_calm` — **a calm run returns, and its results tell its course in order**.
-/

import Mathlib.Data.List.Forall2
import PhpAudit.Proofs.WorkPool.Attempts

set_option autoImplicit false

namespace PhpAudit.WorkPool

variable {σ κ β τ : Type}

/-! ### The attempts that are left -/

theorem weight_append (retries : Nat) (xs ys : List (κ × Nat)) :
    weight retries (xs ++ ys) = weight retries xs + weight retries ys := by
  induction xs with
  | nil => simp [weight]
  | cons p xs ih =>
      simp only [List.cons_append, weight, ih]
      omega

theorem weight_start (retries : Nat) (keys : List κ) :
    weight retries (keys.map fun k => (k, 1)) = keys.length * (retries + 2) := by
  induction keys with
  | nil => simp [weight]
  | cons k keys ih =>
      simp only [List.map_cons, weight, ih, List.length_cons, Nat.add_mul]
      omega

/-- An attempt that does not end a key has failed, and there may be another. -/
theorem of_settled?_eq_none {plan : Plan τ} {key : κ} {attempt : Nat} {elapsed : τ}
    {came : Except String β} (h : settled? plan key attempt elapsed came = none) :
    came.isOk = false ∧ attempt ≤ plan.retries := by
  cases came with
  | ok v => cases h
  | error e =>
      simp only [settled?] at h
      split at h
      · rename_i hretry
        exact ⟨rfl, hretry⟩
      · cases h

/-- Calls that are taken in leave fewer attempts, even if their keys wait again. -/
theorem Run.weight_foldl_takeIn [Timeline τ] (s : Surroundings σ κ β τ) (plan : Plan τ)
    {ts : List (Task κ β τ)} (hended : ∀ t ∈ ts, t.work.isStuck = false) (r : Run σ κ β τ) :
    weight plan.retries (ts.foldl (takeIn s plan) r).pending + ts.length ≤
      weight plan.retries (ts.map Task.turn ++ r.pending) := by
  induction ts generalizing r with
  | nil => exact Nat.le_refl _
  | cons t ts ih =>
      have hrest := ih (fun u hu => hended u (List.mem_cons_of_mem _ hu)) (r.takeIn s plan t)
      have hfirst : weight plan.retries (r.takeIn s plan t).pending <
          weight plan.retries (t.turn :: r.pending) := by
        have hstuck := hended t List.mem_cons_self
        cases hwork : t.work with
        | stuck stay later =>
            rw [hwork] at hstuck
            cases hstuck
        | ended outcome =>
            simp only [takeIn, hwork, collect_pending]
            cases hsettled : settled? plan t.key t.attempt
              (Timeline.since (s.now r.world) t.started) outcome with
            | some x =>
                simp only [Option.isSome_some, if_true, weight]
                omega
            | none =>
                have hretry := (of_settled?_eq_none hsettled).2
                simp only [Option.isSome_none, Bool.false_eq_true, if_false, weight, Task.turn]
                omega
      simp only [List.foldl_cons, List.map_cons, List.cons_append, weight, weight_append,
        List.length_cons] at hrest hfirst ⊢
      omega

/-! ### Runs in which no call gets stuck -/

/-- No call gets stuck. -/
def Surroundings.Prompt (s : Surroundings σ κ β τ) : Prop :=
  ∀ key w, (s.call key w).1.isStuck = false

/-- Every call under way has ended, and no worker is held. -/
structure Floor.Prompt (f : Floor σ κ β τ) : Prop where
  ended : ∀ t ∈ f.live, t.work.isStuck = false
  held : f.held = []

section

variable [Timeline τ] {s : Surroundings σ κ β τ} {plan : Plan τ}

/-- With no call under way there is none to leave behind. -/
theorem expire_of_nil {f : Floor σ κ β τ} (h : f.live = []) : expire s plan f = f := by
  unfold expire
  split
  · rfl
  · cases f
    subst h
    simp

namespace Floor.Prompt

variable {f : Floor σ κ β τ}

omit [Timeline τ] in
theorem submit (hs : s.Prompt) (h : f.Prompt) (key : κ) (attempt : Nat) (rest : List (κ × Nat)) :
    (submit s f key attempt rest).Prompt := by
  unfold WorkPool.submit
  rw [tick_of_ended h.ended]
  refine ⟨fun t ht => ?_, by simp [h.held]⟩
  rcases List.mem_append.1 ht with ht | ht
  · exact h.ended t ht
  · rw [List.mem_singleton.1 ht]
    exact hs key f.world

/-- Keys are handed out or cancelled, and no more attempts are left than before. -/
theorem handOut (hs : s.Prompt) (h : f.Prompt) (plan : Plan τ) :
    (handOut s plan f).Prompt ∧
      weight plan.retries ((WorkPool.handOut s plan f).live.map Task.turn ++
          (WorkPool.handOut s plan f).pending) ≤
        weight plan.retries (f.live.map Task.turn ++ f.pending) := by
  rw [handOut_eq]
  refine dispatch_keeps (P := fun g => g.Prompt ∧
    weight plan.retries (g.live.map Task.turn ++ g.pending) ≤
      weight plan.retries (f.live.map Task.turn ++ f.pending)) ?_ ?_ ?_ _
  · intro g key attempt rest hpending ⟨hg, hweight⟩
    refine ⟨hg.submit hs key attempt rest, ?_⟩
    rw [hpending] at hweight
    rw [map_turn_submit, List.append_assoc]
    exact hweight
  · exact fun ⟨hg, hweight⟩ => ⟨⟨hg.ended, hg.held⟩, hweight⟩
  · cases hc : s.cancelled f.world with
    | false =>
        rw [opened_of_not_cancelled hc]
        exact ⟨⟨h.ended, by simp [h.held]⟩, Nat.le_refl _⟩
    | true =>
        rw [opened_of_cancelled hc]
        refine ⟨⟨h.ended, by simp [h.held]⟩, ?_⟩
        rw [weight_append, weight_append]
        exact Nat.add_le_add_left (Nat.zero_le _) _

/-- There is no wait, and all calls under way are taken in. -/
theorem gather_eq (h : f.Prompt) (hlive : f.live ≠ []) :
    gather s plan (await s f) =
      { f with toRun := f.live.foldl (Run.takeIn s plan) f.toRun, live := [] } := by
  obtain ⟨t, ht⟩ := List.exists_mem_of_ne_nil _ hlive
  rw [await_of_ended ht (h.ended t ht), gather_of_ended h.ended]

/-- **Fewer attempts are left after a round**, or the workers have failed. -/
theorem round (hs : s.Prompt) (hworkers : 0 < plan.workers) (hstaff : plan.workers ≤ plan.staff)
    (h : f.Prompt) (hlive : f.live = []) (hbusy : f.isBusy = true) :
    (round s plan f).Prompt ∧ (WorkPool.round s plan f).live = [] ∧
      ((WorkPool.round s plan f).fallback = true ∨
        weight plan.retries (WorkPool.round s plan f).pending <
          weight plan.retries f.pending) := by
  obtain ⟨hout, hweight⟩ := h.handOut hs plan
  rw [hlive, List.map_nil, List.nil_append] at hweight
  rcases round_cases s plan f with ⟨hidle, hlast, hround⟩ | ⟨hidle, hpending, hfallback, _⟩ |
    ⟨hsome, hround⟩
  · rw [hround]
    refine ⟨hout, hidle, hlast.symm.imp_right fun hnone => ?_⟩
    have hwaits : f.pending ≠ [] := fun hnone => by simp [Floor.isBusy, hlive, hnone] at hbusy
    obtain ⟨p, rest, hrest⟩ := List.exists_cons_of_ne_nil hwaits
    rw [hnone, hrest]
    simp only [weight]
    omega
  · -- there are places, so something was handed out
    obtain ⟨taken, _, hhands, hend⟩ := exists_handsOut s ((opened s f).places plan) (opened s f)
    rw [← handOut_eq] at hhands hend
    have hcount := hhands.live
    have hplaces : 0 < (opened s f).places plan := by
      simp only [Floor.places, opened_live, opened_held, hlive, h.held, List.filter_nil,
        List.length_nil]
      omega
    rw [hidle, opened_live, hlive, List.length_nil] at hcount
    rw [hfallback] at hend
    rcases hend with hused | hnone | hfailed
    · omega
    · exact absurd hnone hpending
    · cases hfailed
  · have hless := Run.weight_foldl_takeIn s plan hout.ended (WorkPool.handOut s plan f).toRun
    have hpos := List.length_pos_iff.2 hsome
    rw [hround, awaited, hout.gather_eq hsome, expire_of_nil rfl]
    refine ⟨⟨List.forall_mem_nil _, hout.held⟩, rfl, .inr (Nat.lt_of_lt_of_le ?_ hweight)⟩
    exact Nat.lt_of_lt_of_le (Nat.lt_add_of_pos_right hpos) hless

theorem exists_rounds (hs : s.Prompt) (hworkers : 0 < plan.workers)
    (hstaff : plan.workers ≤ plan.staff) (h : f.Prompt) (hlive : f.live = []) {bound : Nat}
    (hbound : f.fallback = true ∨ weight plan.retries f.pending ≤ bound) :
    ∃ g, rounds s plan bound f = some g := by
  induction bound generalizing f with
  | zero =>
      have hidle : f.isBusy = false := by
        rcases hbound with hfallback | hnone
        · simp [Floor.isBusy, hlive, hfallback]
        · cases hpending : f.pending with
          | nil => simp [Floor.isBusy, hlive, hpending]
          | cons p rest =>
              rw [hpending, weight] at hnone
              omega
      exact ⟨f, by simp [WorkPool.rounds, hidle]⟩
  | succ bound ih =>
      simp only [WorkPool.rounds]
      split
      · rename_i hbusy
        obtain ⟨hround, hnone, hnext⟩ := h.round hs hworkers hstaff hlive hbusy
        have hmost : weight plan.retries f.pending ≤ bound + 1 := by
          refine hbound.resolve_left fun hfallback => ?_
          simp [Floor.isBusy, hlive, hfallback] at hbusy
        exact ih hround hnone (hnext.imp_right fun hless => by omega)
      · exact ⟨f, rfl⟩

end Floor.Prompt

/-- **A run in which no call gets stuck returns**, after no more rounds than there are attempts. -/
theorem run_returns [BEq κ] (hs : s.Prompt) (hstaff : 0 < plan.workers → plan.workers ≤ plan.staff)
    {bound : Nat} {keys : List κ} (hbound : keys.length * (plan.retries + 2) ≤ bound) (world : σ) :
    ∃ fin, run s plan bound keys world = some fin := by
  have hstart : ∀ created, ({ Floor.start keys world with created } : Floor σ κ β τ).Prompt :=
    fun _ => ⟨List.forall_mem_nil _, rfl⟩
  obtain ⟨g, hg⟩ : ∃ g, (Floor.start keys world).onWorkers s plan bound = some g := by
    unfold Floor.onWorkers
    split
    · exact ⟨_, rfl⟩
    · rename_i hworkers
      have hworkers : 0 < plan.workers := by omega
      split
      · exact (hstart 1).exists_rounds hs hworkers (hstaff hworkers) rfl
          (.inr (by rwa [← weight_start] at hbound))
      · exact ⟨_, rfl⟩
  refine exists_run_of_onWorkers hg fun key w => ?_
  have hended := hs key w
  unfold Surroundings.callInline
  split
  · rfl
  · rename_i hcall
    rw [hcall] at hended
    cases hended

end

/-! ### Courses -/

/-- The course of a run from one world to another: no call gets stuck or takes longer than it may,
and the run is not cancelled before any of them. -/
inductive Calm [Timeline τ] (s : Surroundings σ κ β τ) (limit : Option τ) :
    σ → List (κ × Except String β) → σ → Prop
  | nil (w : σ) : Calm s limit w [] w
  | cons {w w' w'' : σ} {key : κ} {outcome : Except String β}
      {rest : List (κ × Except String β)} (hcancel : s.cancelled w = false)
      (hcall : s.call key w = (.ended outcome, w'))
      (htime : ∀ most ∈ limit, Timeline.exceeds (Timeline.since (s.now w') (s.now w)) most = false)
      (hrest : Calm s limit w' rest w'') : Calm s limit w ((key, outcome) :: rest) w''

/-- A result that tells what the call for a key came to. -/
structure Result.Tells (r : Result κ β τ) (e : κ × Except String β) : Prop where
  key : r.key = e.1
  value : ∀ v, e.2 = .ok v → r.status = .completed ∧ r.value = some v
  error : ∀ m, e.2 = .error m → r.status = .failed ∧ r.error = m

/-- A call under way that has come to its end at the first attempt. -/
structure Task.Did (t : Task κ β τ) (e : κ × Except String β) : Prop where
  key : t.key = e.1
  attempt : t.attempt = 1
  work : t.work = .ended e.2

/-- The keys of a course, waiting for their first attempt. -/
def waiting (course : List (κ × Except String β)) : List (κ × Nat) :=
  course.map fun e => (e.1, 1)

theorem isStuck_of_did {ts : List (Task κ β τ)} {es : List (κ × Except String β)}
    (h : List.Forall₂ Task.Did ts es) : ∀ t ∈ ts, t.work.isStuck = false := by
  induction h with
  | nil => exact List.forall_mem_nil _
  | cons hdid _ ih =>
      intro t ht
      rcases List.mem_cons.1 ht with rfl | ht
      · rw [hdid.work]
        rfl
      · exact ih t ht

theorem map_key_of_tells {results : List (Result κ β τ)} {course : List (κ × Except String β)}
    (h : List.Forall₂ Result.Tells results course) :
    results.map Result.key = course.map Prod.fst := by
  induction h with
  | nil => rfl
  | cons htells _ ih => rw [List.map_cons, List.map_cons, htells.key, ih]

/-- Without retries the end of a first attempt is a result that tells it. -/
theorem Run.collect_tells {plan : Plan τ} (hplan : plan.retries = 0) (r : Run σ κ β τ) (key : κ)
    (elapsed : τ) (outcome : Except String β) :
    ∃ x : Result κ β τ, r.collect plan key 1 elapsed outcome = r.finish x ∧
      x.Tells (key, outcome) := by
  cases outcome with
  | ok v =>
      refine ⟨_, rfl, rfl, ?_, ?_⟩
      · rintro v' ⟨⟩
        exact ⟨rfl, rfl⟩
      · rintro m ⟨⟩
  | error m =>
      refine ⟨_, if_neg (by omega), rfl, ?_, ?_⟩
      · rintro v ⟨⟩
      · rintro m' ⟨⟩
        exact ⟨rfl, rfl⟩

/-- A run that has results for one part of its course, has made the calls of another, and waits for
the rest. -/
structure Run.OnTrack [Timeline τ] (s : Surroundings σ κ β τ) (limit : Option τ) (last : σ)
    (course : List (κ × Except String β)) (r : Run σ κ β τ)
    (told underway rest : List (κ × Except String β)) : Prop where
  course : course = told ++ underway ++ rest
  results : List.Forall₂ Result.Tells r.results told
  pending : r.pending = waiting rest
  calm : Calm s limit r.world rest last

/-- A state whose results tell one part of the course, whose calls under way have done a second, and
whose keys wait for the rest. -/
structure Floor.OnTrack [Timeline τ] (s : Surroundings σ κ β τ) (limit : Option τ) (last : σ)
    (course : List (κ × Except String β)) (f : Floor σ κ β τ)
    (told underway rest : List (κ × Except String β)) : Prop where
  run : f.toRun.OnTrack s limit last course told underway rest
  live : List.Forall₂ Task.Did f.live underway

section

variable [Timeline τ] {s : Surroundings σ κ β τ} {plan : Plan τ} {limit : Option τ} {last : σ}
  {course told underway rest : List (κ × Except String β)}

namespace Run.OnTrack

variable {r : Run σ κ β τ}

/-- The next call is made, and has ended. -/
theorem call {key : κ} {attempt : Nat} {others : List (κ × Nat)}
    (h : r.OnTrack s limit last course told underway rest)
    (hpending : r.pending = (key, attempt) :: others) :
    ∃ outcome world rest', s.call key r.world = (.ended outcome, world) ∧ attempt = 1 ∧
      (∀ most ∈ limit,
        Timeline.exceeds (Timeline.since (s.now world) (s.now r.world)) most = false) ∧
      ({ r with world, pending := others, calls := r.calls ++ [key] } : Run σ κ β τ).OnTrack s limit
        last course told (underway ++ [(key, outcome)]) rest' := by
  have hwaits := h.pending
  have hcalm := h.calm
  rw [hpending] at hwaits
  cases hcalm with
  | nil => cases hwaits
  | cons hcancel hcall htime hrest =>
      cases hwaits
      exact ⟨_, _, _, hcall, rfl, htime, by simp [h.course], h.results, rfl, hrest⟩

/-- A call is taken in. -/
theorem collect (hplan : plan.retries = 0) {key : κ} {outcome : Except String β}
    (h : r.OnTrack s limit last course told ((key, outcome) :: underway) rest) (elapsed : τ) :
    (r.collect plan key 1 elapsed outcome).OnTrack s limit last course (told ++ [(key, outcome)])
      underway rest := by
  obtain ⟨x, hx, htells⟩ := Run.collect_tells hplan r key elapsed outcome
  rw [hx]
  exact ⟨by simp [h.course], List.rel_append h.results (.cons htells .nil), h.pending, h.calm⟩

theorem foldl_takeIn (hplan : plan.retries = 0) {ts : List (Task κ β τ)}
    (hdid : List.Forall₂ Task.Did ts underway)
    (h : r.OnTrack s limit last course told underway rest) :
    (ts.foldl (takeIn s plan) r).OnTrack s limit last course (told ++ underway) [] rest := by
  induction hdid generalizing r told with
  | nil => rwa [List.append_nil]
  | cons hfirst _ ih =>
      rename_i t _ _ _ _
      have htaken := ih (h.collect hplan (Timeline.since (s.now r.world) t.started))
      rw [List.append_assoc] at htaken
      simp only [List.foldl_cons, takeIn, hfirst.work, hfirst.attempt, hfirst.key]
      exact htaken

/-- The run is not cancelled while keys wait, so a cancellation finds none. -/
theorem cancelAll (h : r.OnTrack s limit last course told underway rest)
    (hc : s.cancelled r.world = true) :
    r.cancelAll.OnTrack s limit last course told underway rest := by
  obtain ⟨hcourse, hresults, hpending, hcalm⟩ := h
  cases hcalm with
  | nil => exact ⟨hcourse, by simpa [Run.cancelAll, hpending, waiting] using hresults, rfl, .nil _⟩
  | cons hcancel _ _ _ =>
      rw [hc] at hcancel
      cases hcancel

end Run.OnTrack

theorem Run.collectInline_of_intime {r : Run σ κ β τ} {key : κ} {attempt : Nat} {elapsed : τ}
    (h : ∀ most ∈ plan.timeout, Timeline.exceeds elapsed most = false) (outcome : Except String β) :
    r.collectInline s plan key attempt elapsed outcome =
      r.collect plan key attempt elapsed outcome := by
  unfold Run.collectInline
  split
  · rename_i limit hlimit
    rw [if_neg (by simp [h limit hlimit])]
  · rfl

/-- **The work without workers follows the course.** -/
theorem keptInline_onTrack (hplan : plan.retries = 0) :
    KeptInline s plan fun r => ∃ told rest, r.OnTrack s plan.timeout last course told [] rest := by
  refine ⟨?_, fun hc ⟨told, rest, hr⟩ => ⟨told, rest, hr.cancelAll hc⟩⟩
  rintro r key attempt others outcome world hpending _ hcall ⟨told, rest, hr⟩
  obtain ⟨_, _, rest', hended, rfl, htime, hnext⟩ := hr.call hpending
  rw [Surroundings.callInline_of_ended hended] at hcall
  cases hcall
  rw [Run.collectInline_of_intime htime]
  exact ⟨_, rest', hnext.collect hplan _⟩

namespace Floor.OnTrack

variable {f : Floor σ κ β τ}

theorem handOut (h : f.OnTrack s limit last course told underway rest) (plan : Plan τ) :
    ∃ underway rest, (handOut s plan f).OnTrack s limit last course told underway rest := by
  rw [handOut_eq]
  refine dispatch_keeps (P := fun g => ∃ underway rest,
    g.OnTrack s limit last course told underway rest) ?_
    (fun ⟨underway, rest, hg⟩ => ⟨underway, rest, hg.run, hg.live⟩) ?_ _
  · rintro g key attempt others hpending ⟨underway, rest, hg⟩
    obtain ⟨outcome, world, rest', hcall, rfl, _, hnext⟩ := hg.run.call hpending
    refine ⟨underway ++ [(key, outcome)], rest', ?_, ?_⟩
    · rw [submit, hcall]
      exact hnext
    · simp only [submit, hcall, tick_of_ended (isStuck_of_did hg.live)]
      exact List.rel_append hg.live (.cons ⟨rfl, rfl, rfl⟩ .nil)
  · cases hc : s.cancelled f.world with
    | false =>
        rw [opened_of_not_cancelled hc]
        exact ⟨underway, rest, h.run, h.live⟩
    | true =>
        rw [opened_of_cancelled hc]
        exact ⟨underway, rest, h.run.cancelAll hc, h.live⟩

/-- **A round follows the course.** -/
theorem round (hplan : plan.retries = 0) (h : f.OnTrack s limit last course told underway rest) :
    ∃ told underway rest, (round s plan f).OnTrack s limit last course told underway rest := by
  obtain ⟨underway, rest, hout⟩ := h.handOut plan
  rcases round_cases s plan f with ⟨_, _, hround⟩ | ⟨_, _, _, hround⟩ | ⟨hsome, hround⟩
  · rw [hround]
    exact ⟨told, underway, rest, hout⟩
  · rw [hround, replace]
    split <;> exact ⟨told, underway, rest, hout.run, hout.live⟩
  · have hended := isStuck_of_did hout.live
    obtain ⟨t, ht⟩ := List.exists_mem_of_ne_nil _ hsome
    rw [hround, awaited, await_of_ended ht (hended t ht), gather_of_ended hended, expire_of_nil rfl]
    exact ⟨_, [], rest, hout.run.foldl_takeIn hplan hout.live, .nil⟩

end Floor.OnTrack

/-! ### A whole run -/

omit [Timeline τ] in
/-- Without repetitions, keys are distinct. -/
theorem distinct_eraseDups [BEq κ] [LawfulBEq κ] : ∀ keys : List κ, Distinct keys.eraseDups
  | [] => List.Pairwise.nil
  | key :: keys => by
      rw [List.eraseDups_cons]
      refine List.pairwise_cons.2 ⟨?_, distinct_eraseDups _⟩
      intro other hother
      have hne : other ≠ key := by
        simpa using (List.mem_filter.1 (List.mem_eraseDups.1 hother)).2
      exact beq_false_of_ne hne.symm
termination_by keys => keys.length
decreasing_by exact Nat.lt_succ_of_le (List.length_filter_le _ _)

/-- **A calm run returns, and its results tell its course in order.** -/
theorem run_calm [BEq κ] [EquivBEq κ] (hs : s.Prompt) (hplan : plan.retries = 0)
    (hstaff : 0 < plan.workers → plan.workers ≤ plan.staff) {world : σ}
    (h : Calm s plan.timeout world course last) (hd : Distinct (course.map Prod.fst)) {bound : Nat}
    (hbound : course.length * 2 ≤ bound) :
    ∃ fin, run s plan bound (course.map Prod.fst) world = some fin ∧
      List.Forall₂ Result.Tells fin.results course := by
  have hrounds : (course.map Prod.fst).length * (plan.retries + 2) ≤ bound := by
    rwa [hplan, List.length_map]
  obtain ⟨fin, hfin⟩ := run_returns hs hstaff hrounds world
  obtain ⟨e, he, rfl⟩ := Option.map_eq_some_iff.1 hfin
  let P (f : Floor σ κ β τ) : Prop :=
    ∃ told underway rest, f.OnTrack s plan.timeout last course told underway rest
  have hidle : ∀ f : Floor σ κ β τ, f.live = [] → P f →
      ∃ told rest, f.toRun.OnTrack s plan.timeout last course told [] rest := by
    rintro f hlive ⟨told, underway, rest, hf⟩
    have hlast := hf.live
    rw [hlive, List.forall₂_nil_left_iff] at hlast
    exact ⟨told, rest, hlast ▸ hf.run⟩
  obtain ⟨⟨told, rest, hend⟩, hdone⟩ := complete_keeps (P := P) he
    (fun _ _ => ⟨[], [], course, ⟨rfl, .nil, by simp [Floor.start, waiting], h⟩, .nil⟩)
    (fun _ _ ⟨_, _, _, hf⟩ => hf.round hplan) hidle (keptInline_onTrack hplan)
  have hcourse := hend.course
  have hpending := hend.pending
  rw [hdone, waiting, eq_comm, List.map_eq_nil_iff] at hpending
  rw [hpending, List.append_nil, List.append_nil] at hcourse
  have htells := hcourse ▸ hend.results
  have hkeys := map_key_of_tells htells
  rw [← hkeys] at hd
  refine ⟨_, hfin, ?_⟩
  simp only [Floor.finished]
  rwa [← hkeys, hd.eraseDups, filterMap_resultOf?_self hd]

end

end PhpAudit.WorkPool
