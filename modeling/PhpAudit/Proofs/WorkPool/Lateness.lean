/-
**Which calls count as too late.**

The two ways of working look at the time limit at different moments.  Without workers it is looked
at after each call, and a value that came too late is dropped.  On workers it is looked at last in a
round, for the calls that are still under way; those that have ended were taken in before, with
their values, however long they took.  So a key may be reported as done although it took longer than
it may, and this module says exactly when: each result that is not a cancelled one is traced back to
the moment of the run at which it arose.

Main definitions:

* `WorkPool.settledInline?` — the result that the end of a call without workers leads to;
* `WorkPool.TakesIn`, `WorkPool.Run.Calls` — the states in which a run takes in the calls on
  workers, and the next call without workers;
* `WorkPool.Origin` — where a result of a run comes from.

Main results:

* `WorkPool.settledInline?_eq_some_iff` — the results of a call without workers;
* `WorkPool.mem_results_of_rounds`, `WorkPool.mem_results_of_sequential` — where the results of all
  rounds, and of all calls without workers, come from;
* `WorkPool.mem_finished_results_iff` — where the results of a whole run come from;
* `WorkPool.run_reports_late_calls` — **what becomes of a call that took too long**.
-/

import PhpAudit.Proofs.WorkPool.Moments

set_option autoImplicit false

namespace PhpAudit.WorkPool

variable {σ κ β τ : Type} [Timeline τ] {s : Surroundings σ κ β τ} {plan : Plan τ}

/-! ### The results on workers -/

theorem Task.settled?_eq_some_iff {now : τ} {t : Task κ β τ} {x : Result κ β τ} :
    t.settled? plan now = some x ↔ ∃ outcome, t.work = .ended outcome ∧
      WorkPool.settled? plan t.key t.attempt (Timeline.since now t.started) outcome = some x := by
  unfold Task.settled?
  cases t.work with
  | ended outcome => simp
  | stuck stay later => simp

theorem Floor.mem_settled {f : Floor σ κ β τ} {x : Result κ β τ} :
    x ∈ f.settled s plan ↔ ∃ t ∈ f.live, ∃ outcome, t.work = .ended outcome ∧
      settled? plan t.key t.attempt (Timeline.since (s.now f.world) t.started) outcome =
        some x := by
  simp only [Floor.settled, List.mem_filterMap, Task.settled?_eq_some_iff]

theorem Floor.mem_expired {limit : τ} (hlimit : plan.timeout = some limit) {f : Floor σ κ β τ}
    {x : Result κ β τ} :
    x ∈ f.expired s plan ↔ ∃ t ∈ f.live, t.isLate limit (s.now f.world) = true ∧
      expiredResult s (s.now f.world) t = x := by
  simp only [Floor.expired, hlimit, List.mem_map, List.mem_filter, and_assoc]

/-- Rounds forget no result. -/
theorem results_subset_of_rounds {bound : Nat} {f e : Floor σ κ β τ}
    (h : rounds s plan bound f = some e) : f.results ⊆ e.results :=
  (Floor.reaches_of_rounds h).keeps (P := fun g => f.results ⊆ g.results) (List.Subset.refl _)
    fun m _ hm => List.Subset.trans hm (results_subset_round m)

/-- Where a result of the states between rounds comes from. -/
theorem Floor.Reaches.mem_results {f g : Floor σ κ β τ} (h : f.Reaches s plan g)
    {x : Result κ β τ} (hx : x ∈ g.results) (hstatus : x.status ≠ .cancelled) :
    x ∈ f.results ∨ ∃ m, f.Reaches s plan m ∧ m.isBusy = true ∧
      (x ∈ (awaited s plan m).settled s plan ∨
        x ∈ (gather s plan (awaited s plan m)).expired s plan) := by
  induction h with
  | start => exact Or.inl hx
  | @round m hm hbusy ih =>
      obtain ⟨gone, hgone, hcancelled⟩ := exists_opened_results s m
      rw [round_results, hgone] at hx
      rcases List.mem_append.1 hx with hx | hx
      · rcases List.mem_append.1 hx with hx | hx
        · exact ih hx
        · exact absurd (hcancelled x hx) hstatus
      · exact Or.inr ⟨m, hm, hbusy, List.mem_append.1 hx⟩

/-- **Where the results of all rounds come from**, apart from cancelled ones. -/
theorem mem_results_of_rounds {bound : Nat} {f e : Floor σ κ β τ}
    (h : rounds s plan bound f = some e) {x : Result κ β τ} (hstatus : x.status ≠ .cancelled) :
    x ∈ e.results ↔ x ∈ f.results ∨ ∃ m, f.Reaches s plan m ∧ m.isBusy = true ∧
      (x ∈ (awaited s plan m).settled s plan ∨
        x ∈ (gather s plan (awaited s plan m)).expired s plan) := by
  refine ⟨fun hx => (Floor.reaches_of_rounds h).mem_results hx hstatus, ?_⟩
  rintro (hx | ⟨m, hm, hbusy, hx⟩)
  · exact results_subset_of_rounds h hx
  · obtain ⟨b, hb⟩ := (hm.round hbusy).rounds h
    refine results_subset_of_rounds hb ?_
    rw [round_results]
    exact List.mem_append_right _ (List.mem_append.2 hx)

/-! ### The results without workers -/

/-- The result of a key whose call without workers came back too late. -/
def Result.ofLate (s : Surroundings σ κ β τ) (key : κ) (attempt : Nat) (elapsed : τ) :
    Result κ β τ :=
  { key, status := .timedOut, error := s.late key, time := elapsed, attempts := attempt }

/-- The result that the end of a call without workers leads to, if the key is not tried again. -/
def settledInline? (s : Surroundings σ κ β τ) (plan : Plan τ) (key : κ) (attempt : Nat)
    (elapsed : τ) (outcome : Except String β) : Option (Result κ β τ) :=
  match outcome, plan.timeout with
  | .ok _, some limit =>
    if Timeline.exceeds elapsed limit then some (.ofLate s key attempt elapsed)
    else settled? plan key attempt elapsed outcome
  | _, _ => settled? plan key attempt elapsed outcome

theorem Run.collectInline_results (r : Run σ κ β τ) (key : κ) (attempt : Nat) (elapsed : τ)
    (outcome : Except String β) :
    (r.collectInline s plan key attempt elapsed outcome).results =
      r.results ++ (settledInline? s plan key attempt elapsed outcome).toList := by
  cases outcome with
  | error e => exact collect_results ..
  | ok v =>
      cases hlimit : plan.timeout with
      | none =>
          simp only [collectInline, settledInline?, hlimit]
          exact collect_results ..
      | some limit =>
          simp only [collectInline, settledInline?, hlimit]
          split
          · rfl
          · exact collect_results ..

/-- A value that came without workers is late, or in time; an error is an error at any time. -/
theorem settledInline?_eq_some_iff {limit : τ} (hlimit : plan.timeout = some limit) {key : κ}
    {attempt : Nat} {elapsed : τ} {outcome : Except String β} {x : Result κ β τ} :
    settledInline? s plan key attempt elapsed outcome = some x ↔
      (∃ v, outcome = .ok v ∧ Timeline.exceeds elapsed limit = true ∧
        x = .ofLate s key attempt elapsed) ∨
      (∃ v, outcome = .ok v ∧ Timeline.exceeds elapsed limit = false ∧
        x = .ofValue key attempt elapsed v) ∨
      ∃ e, outcome = .error e ∧ plan.retries < attempt ∧ x = .ofError key attempt elapsed e := by
  cases outcome with
  | error e =>
      have herror : settledInline? s plan key attempt elapsed (.error e) =
          settled? plan key attempt elapsed (.error e) := rfl
      simp [herror, settled?_eq_some_iff]
  | ok v =>
      simp only [settledInline?, hlimit]
      cases Timeline.exceeds elapsed limit with
      | false => simp [settled?, eq_comm]
      | true => simp [eq_comm]

/-- The next call without workers: for a key, with the number of the attempt, what it comes to and
the world that it leaves. -/
structure Run.Calls (s : Surroundings σ κ β τ) (r : Run σ κ β τ) (key : κ) (attempt : Nat)
    (outcome : Except String β) (world : σ) : Prop where
  pending : ∃ rest, r.pending = (key, attempt) :: rest
  goes : s.cancelled r.world = false
  call : s.callInline key r.world = some (outcome, world)

theorem Run.Passes.results_subset {r q : Run σ κ β τ} (h : r.Passes s plan q) :
    r.results ⊆ q.results := by
  induction h with
  | start => exact List.Subset.refl _
  | call _ _ _ _ ih =>
      rw [collectInline_results]
      exact List.Subset.trans ih (List.subset_append_left _ _)

/-- The work without workers forgets no result. -/
theorem results_subset_of_sequential {r e : Run σ κ β τ} (h : sequential s plan r = some e) :
    r.results ⊆ e.results := by
  obtain ⟨q, hq, ⟨_, rfl⟩ | ⟨_, rfl⟩⟩ := exists_passes_of_sequential h
  · exact hq.results_subset
  · exact List.Subset.trans hq.results_subset (List.subset_append_left _ _)

/-- Where a result of the states on the way comes from. -/
theorem Run.Passes.mem_results {r q : Run σ κ β τ} (h : r.Passes s plan q) {x : Result κ β τ}
    (hx : x ∈ q.results) :
    x ∈ r.results ∨ ∃ m key attempt outcome world, r.Passes s plan m ∧
      m.Calls s key attempt outcome world ∧
      settledInline? s plan key attempt (Timeline.since (s.now world) (s.now m.world)) outcome =
        some x := by
  induction h with
  | start => exact Or.inl hx
  | call hm hpending hcancel hcall ih =>
      rw [collectInline_results] at hx
      rcases List.mem_append.1 hx with hx | hx
      · exact ih hx
      · exact Or.inr ⟨_, _, _, _, _, hm, ⟨⟨_, hpending⟩, hcancel, hcall⟩, Option.mem_toList.1 hx⟩

/-- **Where the results of all calls without workers come from**, apart from cancelled ones. -/
theorem mem_results_of_sequential {r e : Run σ κ β τ} (h : sequential s plan r = some e)
    {x : Result κ β τ} (hstatus : x.status ≠ .cancelled) :
    x ∈ e.results ↔ x ∈ r.results ∨ ∃ m key attempt outcome world, r.Passes s plan m ∧
      m.Calls s key attempt outcome world ∧
      settledInline? s plan key attempt (Timeline.since (s.now world) (s.now m.world)) outcome =
        some x := by
  constructor
  · intro hx
    obtain ⟨q, hq, ⟨_, rfl⟩ | ⟨_, rfl⟩⟩ := exists_passes_of_sequential h
    · exact hq.mem_results hx
    · rcases List.mem_append.1 hx with hx | hx
      · exact hq.mem_results hx
      · obtain ⟨p, _, rfl⟩ := List.mem_map.1 hx
        exact absurd rfl hstatus
  · rintro (hx | ⟨m, key, attempt, outcome, world, hm, ⟨⟨rest, hpending⟩, hgoes, hcall⟩, hx⟩)
    · exact results_subset_of_sequential h hx
    · have hnext := hm.call hpending hgoes hcall
      rw [hnext.sequential] at h
      refine results_subset_of_sequential h ?_
      rw [Run.collectInline_results]
      exact List.mem_append_right _ (Option.mem_toList.2 hx)

/-! ### A whole run -/

/-- The states in which a run for some keys takes in the calls on workers that have ended: those of
a round in which all keys are handed out that can be, and which has waited if no call had ended. -/
def TakesIn (s : Surroundings σ κ β τ) (plan : Plan τ) (keys : List κ) (world : σ)
    (f : Floor σ κ β τ) : Prop :=
  0 < plan.workers ∧ s.canCreate 1 = true ∧
    ∃ g, (Floor.begun keys world).Reaches s plan g ∧ g.isBusy = true ∧ f = awaited s plan g

/-- Where the results of the part of a run come from that is done on workers. -/
theorem mem_results_of_onWorkers {bound : Nat} {keys : List κ} {world : σ} {g : Floor σ κ β τ}
    (h : (Floor.start keys world).onWorkers s plan bound = some g) {x : Result κ β τ}
    (hstatus : x.status ≠ .cancelled) :
    x ∈ g.results ↔ ∃ f, TakesIn s plan keys world f ∧
      (x ∈ f.settled s plan ∨ x ∈ (gather s plan f).expired s plan) := by
  unfold Floor.onWorkers at h
  split at h
  · rename_i hnone
    cases h
    refine ⟨fun hx => absurd hx List.not_mem_nil, ?_⟩
    rintro ⟨f, ⟨hworkers, _⟩, _⟩
    omega
  · rename_i hworkers
    split at h
    · rename_i hcreate
      rw [mem_results_of_rounds h hstatus]
      constructor
      · rintro (hx | ⟨m, hm, hbusy, hx⟩)
        · exact absurd hx List.not_mem_nil
        · exact ⟨_, ⟨by omega, hcreate, m, hm, hbusy, rfl⟩, hx⟩
      · rintro ⟨f, ⟨_, _, m, hm, hbusy, rfl⟩, hx⟩
        exact Or.inr ⟨m, hm, hbusy, hx⟩
    · rename_i hcreate
      cases h
      refine ⟨fun hx => absurd hx List.not_mem_nil, ?_⟩
      rintro ⟨f, ⟨_, hcan, _⟩, _⟩
      exact absurd hcan hcreate

/-- Where a result of a run with a time limit comes from: a call on a worker that has ended or is
left behind, or a call without workers. -/
inductive Origin (s : Surroundings σ κ β τ) (plan : Plan τ) (limit : τ) (bound : Nat)
    (keys : List κ) (world : σ) : Result κ β τ → Prop
  | value {f : Floor σ κ β τ} {t : Task κ β τ} {v : β} (hf : TakesIn s plan keys world f)
      (ht : t ∈ f.live) (hwork : t.work = .ended (.ok v)) :
      Origin s plan limit bound keys world
        (.ofValue t.key t.attempt (Timeline.since (s.now f.world) t.started) v)
  | error {f : Floor σ κ β τ} {t : Task κ β τ} {e : String} (hf : TakesIn s plan keys world f)
      (ht : t ∈ f.live) (hwork : t.work = .ended (.error e)) (hlast : plan.retries < t.attempt) :
      Origin s plan limit bound keys world
        (.ofError t.key t.attempt (Timeline.since (s.now f.world) t.started) e)
  | leftBehind {f : Floor σ κ β τ} {t : Task κ β τ} (hf : TakesIn s plan keys world f)
      (ht : t ∈ (gather s plan f).live)
      (hlate : t.isLate limit (s.now (gather s plan f).world) = true) :
      Origin s plan limit bound keys world (expiredResult s (s.now (gather s plan f).world) t)
  | inlineLate {r : Run σ κ β τ} {key : κ} {attempt : Nat} {v : β} {w : σ}
      (hr : Moment s plan bound keys world true r) (hcall : r.Calls s key attempt (.ok v) w)
      (hlate : Timeline.exceeds (Timeline.since (s.now w) (s.now r.world)) limit = true) :
      Origin s plan limit bound keys world
        (.ofLate s key attempt (Timeline.since (s.now w) (s.now r.world)))
  | inlineValue {r : Run σ κ β τ} {key : κ} {attempt : Nat} {v : β} {w : σ}
      (hr : Moment s plan bound keys world true r) (hcall : r.Calls s key attempt (.ok v) w)
      (hintime : Timeline.exceeds (Timeline.since (s.now w) (s.now r.world)) limit = false) :
      Origin s plan limit bound keys world
        (.ofValue key attempt (Timeline.since (s.now w) (s.now r.world)) v)
  | inlineError {r : Run σ κ β τ} {key : κ} {attempt : Nat} {e : String} {w : σ}
      (hr : Moment s plan bound keys world true r) (hcall : r.Calls s key attempt (.error e) w)
      (hlast : plan.retries < attempt) :
      Origin s plan limit bound keys world
        (.ofError key attempt (Timeline.since (s.now w) (s.now r.world)) e)

theorem Origin.status_ne_cancelled {limit : τ} {bound : Nat} {keys : List κ} {world : σ}
    {x : Result κ β τ} (h : Origin s plan limit bound keys world x) : x.status ≠ .cancelled := by
  cases h <;> exact fun hstatus => by cases hstatus

/-- **Where the results of a whole run come from**, apart from cancelled ones. -/
theorem mem_finished_results_iff [BEq κ] [EquivBEq κ] {limit : τ}
    (hlimit : plan.timeout = some limit) {bound : Nat} {keys : List κ} (hd : Distinct keys)
    {world : σ} {fin : Finished σ κ β τ} (h : run s plan bound keys world = some fin)
    {x : Result κ β τ} :
    x ∈ fin.results ∧ x.status ≠ .cancelled ↔ Origin s plan limit bound keys world x := by
  obtain ⟨e, he, rfl⟩ := Option.map_eq_some_iff.1 h
  rw [(finished_results_perm hd he).mem_iff]
  obtain ⟨g, r, hg, hr, rfl⟩ := exists_of_complete he
  constructor
  · rintro ⟨hx, hstatus⟩
    rcases (mem_results_of_sequential hr hstatus).1 hx with
      hx | ⟨m, key, attempt, outcome, w, hm, hcall, hx⟩
    · obtain ⟨f, hf, hx | hx⟩ := (mem_results_of_onWorkers hg hstatus).1 hx
      · obtain ⟨t, ht, outcome, hwork, hx⟩ := Floor.mem_settled.1 hx
        obtain ⟨v, rfl, rfl⟩ | ⟨err, rfl, hlast, rfl⟩ := settled?_eq_some_iff.1 hx
        · exact .value hf ht hwork
        · exact .error hf ht hwork hlast
      · obtain ⟨t, ht, hlate, rfl⟩ := (Floor.mem_expired hlimit).1 hx
        exact .leftBehind hf ht hlate
    · have hmoment := (moment_inline_iff hg).2 hm
      obtain ⟨v, rfl, hlate, rfl⟩ | ⟨v, rfl, hintime, rfl⟩ | ⟨err, rfl, hlast, rfl⟩ :=
        (settledInline?_eq_some_iff hlimit).1 hx
      · exact .inlineLate hmoment hcall hlate
      · exact .inlineValue hmoment hcall hintime
      · exact .inlineError hmoment hcall hlast
  · intro horigin
    have hstatus := horigin.status_ne_cancelled
    refine ⟨(mem_results_of_sequential hr hstatus).2 ?_, hstatus⟩
    rw [mem_results_of_onWorkers hg hstatus]
    cases horigin with
    | value hf ht hwork =>
        refine Or.inl ⟨_, hf, Or.inl (Floor.mem_settled.2 ⟨_, ht, _, hwork, ?_⟩)⟩
        exact settled?_eq_some_iff.2 (Or.inl ⟨_, rfl, rfl⟩)
    | error hf ht hwork hlast =>
        refine Or.inl ⟨_, hf, Or.inl (Floor.mem_settled.2 ⟨_, ht, _, hwork, ?_⟩)⟩
        exact settled?_eq_some_iff.2 (Or.inr ⟨_, rfl, hlast, rfl⟩)
    | leftBehind hf ht hlate =>
        exact Or.inl ⟨_, hf, Or.inr ((Floor.mem_expired hlimit).2 ⟨_, ht, hlate, rfl⟩)⟩
    | inlineLate hm hcall hlate =>
        refine Or.inr ⟨_, _, _, _, _, (moment_inline_iff hg).1 hm, hcall, ?_⟩
        exact (settledInline?_eq_some_iff hlimit).2 (Or.inl ⟨_, rfl, hlate, rfl⟩)
    | inlineValue hm hcall hintime =>
        refine Or.inr ⟨_, _, _, _, _, (moment_inline_iff hg).1 hm, hcall, ?_⟩
        exact (settledInline?_eq_some_iff hlimit).2 (Or.inr (Or.inl ⟨_, rfl, hintime, rfl⟩))
    | inlineError hm hcall hlast =>
        refine Or.inr ⟨_, _, _, _, _, (moment_inline_iff hg).1 hm, hcall, ?_⟩
        exact (settledInline?_eq_some_iff hlimit).2 (Or.inr (Or.inr ⟨_, rfl, hlast, rfl⟩))

/-- **What becomes of a call that took too long.**  In a run for distinct keys with a time limit,
whatever the work function does to the clock:

* a key is reported as done after more time than it may take if and only if a call on a worker for
  it has come back with a value by the time the calls of a round are taken in, and is late by then;
  without workers this never happens;
* a key is reported as having taken too long if and only if a call on a worker for it is late and
  has not come back by then, or a call without workers for it came back late with a value;
* a key is reported as failed if and only if the call of its last attempt came back with an error,
  on a worker or without, however long it took. -/
theorem run_reports_late_calls [BEq κ] [EquivBEq κ] (s : Surroundings σ κ β τ) (plan : Plan τ)
    (limit : τ) (hlimit : plan.timeout = some limit) (bound : Nat) (keys : List κ)
    (hd : Distinct keys) (world : σ) (fin : Finished σ κ β τ)
    (h : run s plan bound keys world = some fin) (x : Result κ β τ) :
    (x ∈ fin.results ∧ x.status = .completed ∧ Timeline.exceeds x.time limit = true ↔
      ∃ f t v, TakesIn s plan keys world f ∧ t ∈ f.live ∧ t.work = .ended (.ok v) ∧
        t.isLate limit (s.now f.world) = true ∧
        x = .ofValue t.key t.attempt (Timeline.since (s.now f.world) t.started) v) ∧
    (x ∈ fin.results ∧ x.status = .timedOut ↔
      (∃ f t, TakesIn s plan keys world f ∧ t ∈ (gather s plan f).live ∧
        t.isLate limit (s.now (gather s plan f).world) = true ∧
        x = expiredResult s (s.now (gather s plan f).world) t) ∨
      ∃ r key attempt v w, Moment s plan bound keys world true r ∧
        r.Calls s key attempt (.ok v) w ∧
        Timeline.exceeds (Timeline.since (s.now w) (s.now r.world)) limit = true ∧
        x = .ofLate s key attempt (Timeline.since (s.now w) (s.now r.world))) ∧
    (x ∈ fin.results ∧ x.status = .failed ↔
      (∃ f t e, TakesIn s plan keys world f ∧ t ∈ f.live ∧ t.work = .ended (.error e) ∧
        plan.retries < t.attempt ∧
        x = .ofError t.key t.attempt (Timeline.since (s.now f.world) t.started) e) ∨
      ∃ r key attempt e w, Moment s plan bound keys world true r ∧
        r.Calls s key attempt (.error e) w ∧ plan.retries < attempt ∧
        x = .ofError key attempt (Timeline.since (s.now w) (s.now r.world)) e) := by
  have hmem {y : Result κ β τ} := mem_finished_results_iff hlimit hd h (x := y)
  refine ⟨⟨?_, ?_⟩, ⟨?_, ?_⟩, ⟨?_, ?_⟩⟩
  · rintro ⟨hx, hstatus, hlate⟩
    cases hmem.1 ⟨hx, by simp [hstatus]⟩ with
    | value hf ht hwork => exact ⟨_, _, _, hf, ht, hwork, hlate, rfl⟩
    | inlineValue _ _ hintime =>
        rw [Result.ofValue, hintime] at hlate
        cases hlate
    | error | leftBehind | inlineLate | inlineError => cases hstatus
  · rintro ⟨f, t, v, hf, ht, hwork, hlate, rfl⟩
    exact ⟨(hmem.2 (.value hf ht hwork)).1, rfl, hlate⟩
  · rintro ⟨hx, hstatus⟩
    cases hmem.1 ⟨hx, by simp [hstatus]⟩ with
    | leftBehind hf ht hlate => exact Or.inl ⟨_, _, hf, ht, hlate, rfl⟩
    | inlineLate hr hcall hlate => exact Or.inr ⟨_, _, _, _, _, hr, hcall, hlate, rfl⟩
    | value | error | inlineValue | inlineError => cases hstatus
  · rintro (⟨f, t, hf, ht, hlate, rfl⟩ | ⟨r, key, attempt, v, w, hr, hcall, hlate, rfl⟩)
    · exact ⟨(hmem.2 (.leftBehind hf ht hlate)).1, rfl⟩
    · exact ⟨(hmem.2 (.inlineLate hr hcall hlate)).1, rfl⟩
  · rintro ⟨hx, hstatus⟩
    cases hmem.1 ⟨hx, by simp [hstatus]⟩ with
    | error hf ht hwork hlast => exact Or.inl ⟨_, _, _, hf, ht, hwork, hlast, rfl⟩
    | inlineError hr hcall hlast => exact Or.inr ⟨_, _, _, _, _, hr, hcall, hlast, rfl⟩
    | value | leftBehind | inlineLate | inlineValue => cases hstatus
  · rintro (⟨f, t, e, hf, ht, hwork, hlast, rfl⟩ | ⟨r, key, attempt, e, w, hr, hcall, hlast, rfl⟩)
    · exact ⟨(hmem.2 (.error hf ht hwork hlast)).1, rfl⟩
    · exact ⟨(hmem.2 (.inlineError hr hcall hlast)).1, rfl⟩

/-- Work that takes a second for each key, but for one that gets stuck; each pause takes a quarter
of a second. -/
def slow : Surroundings Float String Nat Float where
  now := id
  pause w := w + 0.25
  cancelled _ := false
  call key w :=
    match key with
    | "stuck" => (.stuck {} (.ok 0), w)
    | _ => (.ended (.ok 1), w + 1.0)
  late key := key ++ " is late"

/-- With half a second for each key, one that took a second on a worker is reported as done. -/
theorem slow_reports_late_calls :
    Distinct ["stuck", "walk"] ∧
      ∃ fin x, run slow { workers := 2, timeout := some 0.5 } 9 ["stuck", "walk"] 0.0 = some fin ∧
        fin.results.map Result.status = [.timedOut, .completed] ∧
        x ∈ fin.results ∧ Timeline.exceeds x.time 0.5 = true ∧
        ∃ f t v, TakesIn slow { workers := 2, timeout := some 0.5 } ["stuck", "walk"] 0.0 f ∧
          t ∈ f.live ∧ t.work = .ended (.ok v) ∧ t.isLate 0.5 (slow.now f.world) = true ∧
          x = .ofValue t.key t.attempt (Timeline.since (slow.now f.world) t.started) v := by
  have hd : Distinct ["stuck", "walk"] := by
    unfold Distinct
    decide
  have h : (run slow { workers := 2, timeout := some 0.5 } 9 ["stuck", "walk"] 0.0).map (fun fin =>
      fin.results.map fun x => (x.status, Timeline.exceeds x.time 0.5)) =
      some [(.timedOut, true), (.completed, true)] := by
    decide +kernel
  obtain ⟨fin, hfin, hresults⟩ := Option.map_eq_some_iff.1 h
  have hstatus : fin.results.map Result.status = [.timedOut, .completed] := by
    have hfirst := congrArg (List.map Prod.fst) hresults
    rwa [List.map_map] at hfirst
  have hmem : (Status.completed, true) ∈
      fin.results.map fun x => (x.status, Timeline.exceeds x.time 0.5) := by
    rw [hresults]
    decide
  obtain ⟨x, hx, hdone⟩ := List.mem_map.1 hmem
  obtain ⟨hcompleted, hlate⟩ := Prod.mk.inj hdone
  obtain ⟨hvalue, _⟩ := run_reports_late_calls slow { workers := 2, timeout := some 0.5 } 0.5 rfl 9
    ["stuck", "walk"] hd 0.0 fin hfin x
  exact ⟨hd, fin, x, hfin, hstatus, hx, hlate, hvalue.1 ⟨hx, hcompleted, hlate⟩⟩

/-- **A key may be done after more time than it may take**: on a worker a late value is kept, where
without workers the key is reported as having taken too long. -/
theorem slow_done_too_late :
    (∃ fin, run slow { workers := 1, timeout := some 0.5 } 9 ["walk"] 0.0 = some fin ∧
      ∃ x ∈ fin.results, x.status = .completed ∧ Timeline.exceeds x.time 0.5 = true) ∧
    ∃ fin, run slow { workers := 0, timeout := some 0.5 } 9 ["walk"] 0.0 = some fin ∧
      ∃ x ∈ fin.results, x.status = .timedOut ∧ Timeline.exceeds x.time 0.5 = true := by
  have hends (workers : Int) (status : Status)
      (h : (run slow { workers, timeout := some 0.5 } 9 ["walk"] 0.0).map (fun fin =>
        fin.results.map fun x => (x.status, Timeline.exceeds x.time 0.5)) = some [(status, true)]) :
      ∃ fin, run slow { workers, timeout := some 0.5 } 9 ["walk"] 0.0 = some fin ∧
        ∃ x ∈ fin.results, x.status = status ∧ Timeline.exceeds x.time 0.5 = true := by
    obtain ⟨fin, hfin, hresults⟩ := Option.map_eq_some_iff.1 h
    have hmem : (status, true) ∈
        fin.results.map fun x => (x.status, Timeline.exceeds x.time 0.5) := by
      rw [hresults]
      exact List.mem_singleton_self _
    obtain ⟨x, hx, hends⟩ := List.mem_map.1 hmem
    exact ⟨fin, hfin, x, hx, (Prod.mk.inj hends).1, (Prod.mk.inj hends).2⟩
  exact ⟨hends 1 .completed (by decide +kernel), hends 0 .timedOut (by decide +kernel)⟩

end PhpAudit.WorkPool
