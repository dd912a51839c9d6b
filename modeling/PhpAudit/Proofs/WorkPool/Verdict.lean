/-
**A run comes to the same with any workers.**

With workers the keys are called for in one order, without workers in another, and a run whose
workers fail changes from the one to the other in the middle.  Each way of working has its own code
for what is tried again.  If the work function takes no time, does not get stuck and does not cancel
the run, then none of this shows: each key ends with its first attempt that succeeds, or with the
failure of its last one, whoever works on it and in whichever order.

The work function knows nothing of attempts.  It is only said to come to the same for the same key
and the same number of earlier calls; that this number is the one that the pool passes along with a
key follows from the books of the run.

Main definitions:

* `WorkPool.verdict` — what a key ends with, told from its attempts alone;
* `WorkPool.Surroundings.Steady` — what a call comes to depends on the key and on how often it was
  called for;
* `WorkPool.Run.InStep`, `WorkPool.Floor.InStep` — a state in which the numbers of the attempts are
  right, the attempts so far have failed, and the results are verdicts.

Main results:

* `WorkPool.Run.InStep.call`, `WorkPool.Run.InStep.collect` — a call that is made and a call that
  ends keep in step;
* `WorkPool.Floor.InStep.round` — so does a round;
* `WorkPool.keptInline_inStep` — so does the work without workers;
* `WorkPool.run_reports_verdicts` — **a run returns, and reports the verdict on each key**.
-/

import PhpAudit.Proofs.Number.Order
import PhpAudit.Proofs.WorkPool.Calm

set_option autoImplicit false

namespace PhpAudit.WorkPool

variable {σ κ β τ : Type}

/-! ### Verdicts -/

/-- What a result reports, apart from the time: how the key ended, with which value and which error,
and after how many attempts. -/
def Result.report (x : Result κ β τ) : Status × Option β × String × Nat :=
  (x.status, x.value, x.error, x.attempts)

/-- What is said about a failure. -/
def failure : Except String β → String
  | .ok _ => ""
  | .error e => e

/-- What a key ends with: its first attempt that succeeds, or the failure of the last one. -/
def verdict (outcome : Nat → Except String β) (retries : Nat) : Status × Option β × String × Nat :=
  match (List.range' 1 (retries + 1)).find? fun n => (outcome n).isOk with
  | some n => (.completed, (outcome n).toOption, "", n)
  | none => (.failed, none, failure (outcome (retries + 1)), retries + 1)

/-- All attempts before one of a number fail. -/
def FailsBefore (outcome : Nat → Except String β) (n : Nat) : Prop :=
  ∀ m, 1 ≤ m → m < n → (outcome m).isOk = false

theorem FailsBefore.succ {outcome : Nat → Except String β} {n : Nat} (h : FailsBefore outcome n)
    (hn : (outcome n).isOk = false) : FailsBefore outcome (n + 1) := by
  intro m hm hlt
  rcases Nat.lt_or_eq_of_le (Nat.le_of_lt_succ hlt) with hless | rfl
  · exact h m hm hless
  · exact hn

theorem verdict_of_ok {outcome : Nat → Except String β} {retries n : Nat} {v : β} (hn : 1 ≤ n)
    (hlimit : n ≤ retries + 1) (hbefore : FailsBefore outcome n) (hok : outcome n = .ok v) :
    verdict outcome retries = (.completed, some v, "", n) := by
  have hfirst : ((List.range' 1 (retries + 1)).find? fun n => (outcome n).isOk) = some n := by
    refine List.find?_range'_eq_some.2 ⟨?_, ?_, ?_⟩
    · rw [hok]
      rfl
    · rw [List.mem_range'_1]
      omega
    · intro m hm hless
      simp [hbefore m hm hless]
  rw [verdict, hfirst]
  simp only [hok]
  rfl

theorem verdict_of_error {outcome : Nat → Except String β} {retries : Nat} {e : String}
    (hbefore : FailsBefore outcome (retries + 1)) (herror : outcome (retries + 1) = .error e) :
    verdict outcome retries = (.failed, none, e, retries + 1) := by
  have hlast : (outcome (retries + 1)).isOk = false := by
    rw [herror]
    rfl
  have hnone : ((List.range' 1 (retries + 1)).find? fun n => (outcome n).isOk) = none := by
    refine List.find?_range'_eq_none.2 fun m hm hless => ?_
    simp [hbefore.succ hlast m hm (by omega)]
  rw [verdict, hnone]
  simp only [herror]
  rfl

/-- An attempt that ends a key reports the verdict if those before it have failed. -/
theorem report_of_settled? {plan : Plan τ} {outcome : κ → Nat → Except String β} {key : κ}
    {attempt : Nat} {elapsed : τ} (hturn : InTurn plan.retries (key, attempt))
    (hbefore : FailsBefore (outcome key) attempt) {x : Result κ β τ}
    (h : settled? plan key attempt elapsed (outcome key attempt) = some x) :
    x.report = verdict (outcome x.key) plan.retries := by
  obtain ⟨hfirst, hlimit⟩ := hturn
  cases hend : outcome key attempt with
  | ok v =>
      rw [hend] at h
      cases h
      exact (verdict_of_ok hfirst hlimit hbefore hend).symm
  | error e =>
      rw [hend, settled?] at h
      split at h
      · cases h
      · cases h
        obtain rfl : attempt = plan.retries + 1 := by omega
        exact (verdict_of_error hbefore hend).symm

/-! ### Keeping in step -/

/-- Calls take no time, do not get stuck and do not cancel the run, and what a call comes to depends
on its key and on the number of earlier calls for it, which the world remembers. -/
structure Surroundings.Steady [BEq κ] (s : Surroundings σ κ β τ)
    (outcome : κ → Nat → Except String β) (earlier : σ → κ → Nat) : Prop where
  ends : ∀ key w, (s.call key w).1 = .ended (outcome key (earlier w key + 1))
  counts : ∀ key w k, earlier (s.call key w).2 k = earlier w k + if key == k then 1 else 0
  now : ∀ key w, s.now (s.call key w).2 = s.now w
  cancelled : ∀ key w, s.cancelled (s.call key w).2 = s.cancelled w

/-- A run in which some calls are under way, given by their keys and the numbers of their attempts,
is in step: it answers for the given keys, its books are in order, the world has counted its calls,
the attempts before those under way and those that wait failed, and its results are verdicts. -/
structure Run.InStep [BEq κ] (s : Surroundings σ κ β τ) (outcome : κ → Nat → Except String β)
    (earlier : σ → κ → Nat) (retries : Nat) (keys : List κ) (underway : List (κ × Nat))
    (r : Run σ κ β τ) : Prop where
  entrusted : (underway.map Prod.fst ++ r.entrusted).Perm keys
  balanced : r.Balanced retries underway
  counts : ∀ k ∈ keys, earlier r.world k = r.calls.countP (· == k)
  calm : s.cancelled r.world = false
  underway : ∀ p ∈ underway, FailsBefore (outcome p.1) p.2
  pending : ∀ p ∈ r.pending, FailsBefore (outcome p.1) p.2
  results : ∀ x ∈ r.results, x.report = verdict (outcome x.key) retries

section

variable [BEq κ] {s : Surroundings σ κ β τ} {outcome : κ → Nat → Except String β}
  {earlier : σ → κ → Nat} {keys : List κ}

namespace Run.InStep

variable {retries : Nat} {underway : List (κ × Nat)} {r : Run σ κ β τ}

theorem perm (h : r.InStep s outcome earlier retries keys underway) {underway' : List (κ × Nat)}
    (hp : underway.Perm underway') : r.InStep s outcome earlier retries keys underway' where
  entrusted := (List.Perm.append_right _ (hp.symm.map _)).trans h.entrusted
  balanced := h.balanced.perm hp
  counts := h.counts
  calm := h.calm
  underway := fun p hp' => h.underway p (hp.mem_iff.2 hp')
  pending := h.pending
  results := h.results

/-- **A key that waits is called for**, and the call is the attempt that its number says. -/
theorem call [EquivBEq κ] (hs : s.Steady outcome earlier) (hd : Distinct keys)
    (h : r.InStep s outcome earlier retries keys underway) {key : κ} {attempt : Nat}
    {rest : List (κ × Nat)} (hpending : r.pending = (key, attempt) :: rest) :
    ∃ world, s.call key r.world = (.ended (outcome key attempt), world) ∧
      s.now world = s.now r.world ∧
      Run.InStep s outcome earlier retries keys ((key, attempt) :: underway)
        { r with world, pending := rest, calls := r.calls ++ [key] } := by
  have hmem : (key, attempt) ∈ r.pending := hpending ▸ List.mem_cons_self
  have hfirst : 1 ≤ attempt := (h.balanced.pending _ hmem).1
  have hkey : key ∈ keys := by
    refine h.entrusted.mem_iff.1 (List.mem_append_right _ (List.mem_append_right _ ?_))
    exact List.mem_map_of_mem (f := Prod.fst) hmem
  -- the books say how often the key was called for
  have hmade : r.calls.countP (· == key) = attempt - 1 := by
    refine h.balanced.countP_calls (hd.of_perm h.entrusted) (p := (key, attempt - 1)) ?_
    refine List.mem_append_right _ (List.mem_append_right _ ?_)
    exact List.mem_map_of_mem (f := fun p : κ × Nat => (p.1, p.2 - 1)) hmem
  have hnumber : earlier r.world key + 1 = attempt := by
    rw [h.counts key hkey, hmade]
    omega
  refine ⟨(s.call key r.world).2, ?_, hs.now key r.world, ?_⟩
  · rw [← hnumber, ← hs.ends]
  · refine ⟨?_, h.balanced.call hpending _, ?_, ?_, ?_, ?_, h.results⟩
    · refine List.Perm.trans ?_ h.entrusted
      simp only [Run.entrusted, hpending, List.map_cons, List.cons_append]
      rw [← List.append_assoc, ← List.append_assoc]
      exact List.perm_middle.symm
    · intro k hk
      rw [hs.counts, h.counts k hk, List.countP_append]
      simp [List.countP_cons]
    · rw [hs.cancelled]
      exact h.calm
    · intro p hp
      rcases List.mem_cons.1 hp with rfl | hp
      · exact h.pending _ hmem
      · exact h.underway p hp
    · exact fun p hp => h.pending p (hpending ▸ List.mem_cons_of_mem _ hp)

/-- **A call under way ends**: its key has its verdict, or waits for the next attempt. -/
theorem collect {plan : Plan τ} {key : κ} {attempt : Nat}
    (h : r.InStep s outcome earlier plan.retries keys ((key, attempt) :: underway)) (elapsed : τ) :
    (r.collect plan key attempt elapsed (outcome key attempt)).InStep s outcome earlier
      plan.retries keys underway := by
  have hturn := h.balanced.underway _ List.mem_cons_self
  have hbefore : FailsBefore (outcome key) attempt := h.underway _ List.mem_cons_self
  refine ⟨?_, h.balanced.collect elapsed _, ?_, ?_, ?_, ?_, ?_⟩
  · refine List.Perm.trans ?_ h.entrusted
    exact (List.Perm.append_left _ (r.entrusted_collect plan key attempt elapsed _)).trans
      List.perm_middle
  · rw [collect_world, collect_calls]
    exact h.counts
  · rw [collect_world]
    exact h.calm
  · exact fun p hp => h.underway p (List.mem_cons_of_mem _ hp)
  · intro p hp
    rw [collect_pending] at hp
    split at hp
    · exact h.pending p hp
    · rename_i hopen
      rcases List.mem_cons.1 hp with rfl | hp
      · exact hbefore.succ (of_settled?_eq_none (by simpa using hopen)).1
      · exact h.pending p hp
  · intro x hx
    rw [collect_results] at hx
    rcases List.mem_append.1 hx with hx | hx
    · exact h.results x hx
    · exact report_of_settled? hturn hbefore (by simpa using hx)

/-- Taking in calls that have ended leaves none under way. -/
theorem foldl_takeIn [Timeline τ] {plan : Plan τ} {ts : List (Task κ β τ)}
    (hended : ∀ t ∈ ts, t.work = .ended (outcome t.key t.attempt))
    (h : r.InStep s outcome earlier plan.retries keys (ts.map Task.turn)) :
    (ts.foldl (takeIn s plan) r).InStep s outcome earlier plan.retries keys [] := by
  induction ts generalizing r with
  | nil => exact h
  | cons t ts ih =>
      have hfirst : r.takeIn s plan t = r.collect plan t.key t.attempt
          (Timeline.since (s.now r.world) t.started) (outcome t.key t.attempt) := by
        simp only [takeIn, hended t List.mem_cons_self]
      rw [List.foldl_cons, hfirst]
      exact ih (fun u hu => hended u (List.mem_cons_of_mem _ hu)) (h.collect _)

end Run.InStep

/-! ### A round -/

/-- A state that is in step: every call under way has ended. -/
structure Floor.InStep (s : Surroundings σ κ β τ) (outcome : κ → Nat → Except String β)
    (earlier : σ → κ → Nat) (retries : Nat) (keys : List κ) (f : Floor σ κ β τ) : Prop where
  run : f.toRun.InStep s outcome earlier retries keys (f.live.map Task.turn)
  ended : ∀ t ∈ f.live, t.work = .ended (outcome t.key t.attempt)

namespace Floor.InStep

variable {plan : Plan τ} {f : Floor σ κ β τ}

/-- The next call is made, and has ended. -/
theorem submit [EquivBEq κ] (hs : s.Steady outcome earlier) (hd : Distinct keys) {retries : Nat}
    (h : f.InStep s outcome earlier retries keys) {key : κ} {attempt : Nat}
    {rest : List (κ × Nat)} (hpending : f.pending = (key, attempt) :: rest) :
    (submit s f key attempt rest).InStep s outcome earlier retries keys := by
  obtain ⟨world, hcall, _, hrun⟩ := h.run.call hs hd hpending
  have htick : f.live.map (Task.tick .start) = f.live :=
    tick_of_ended fun t ht => by rw [h.ended t ht]; rfl
  unfold WorkPool.submit
  rw [hcall]
  refine ⟨?_, ?_⟩
  · simp only [htick, List.map_append, List.map_cons, List.map_nil]
    exact hrun.perm (List.perm_append_singleton _ _).symm
  · intro t ht
    simp only [htick] at ht
    rcases List.mem_append.1 ht with ht | ht
    · exact h.ended t ht
    · rw [List.mem_singleton.1 ht]

variable [Timeline τ]

theorem handOut [EquivBEq κ] (hs : s.Steady outcome earlier) (hd : Distinct keys)
    (h : f.InStep s outcome earlier plan.retries keys) :
    (handOut s plan f).InStep s outcome earlier plan.retries keys := by
  have hopened : (opened s f).InStep s outcome earlier plan.retries keys := by
    rw [opened_of_not_cancelled h.run.calm]
    exact ⟨h.run, h.ended⟩
  rw [handOut_eq]
  exact dispatch_keeps (P := fun g => g.InStep s outcome earlier plan.retries keys)
    (fun hpending hg => hg.submit hs hd hpending) (fun hg => ⟨hg.run, hg.ended⟩) hopened _

/-- **A round keeps in step.** -/
theorem round [EquivBEq κ] (hs : s.Steady outcome earlier) (hd : Distinct keys)
    (h : f.InStep s outcome earlier plan.retries keys) :
    (round s plan f).InStep s outcome earlier plan.retries keys := by
  have hout := h.handOut hs hd
  rcases round_cases s plan f with ⟨_, _, hround⟩ | ⟨_, _, _, hround⟩ | ⟨hsome, hround⟩
  · rwa [hround]
  · rw [hround, replace]
    split <;> exact ⟨hout.run, hout.ended⟩
  · have hended : ∀ t ∈ (WorkPool.handOut s plan f).live, t.work.isStuck = false :=
      fun t ht => by rw [hout.ended t ht]; rfl
    obtain ⟨t, ht⟩ := List.exists_mem_of_ne_nil _ hsome
    rw [hround, awaited, await_of_ended ht (hended t ht), gather_of_ended hended, expire_of_nil rfl]
    exact ⟨hout.run.foldl_takeIn hout.ended, List.forall_mem_nil _⟩

end Floor.InStep

/-! ### Without workers -/

/-- **The work without workers keeps in step**, if no time is no time too long. -/
theorem keptInline_inStep [EquivBEq κ] [Timeline τ] {plan : Plan τ}
    (hs : s.Steady outcome earlier) (hd : Distinct keys)
    (htime : ∀ (t : τ), ∀ limit ∈ plan.timeout,
      Timeline.exceeds (Timeline.since t t) limit = false) :
    KeptInline s plan fun r => r.InStep s outcome earlier plan.retries keys [] := by
  refine ⟨fun {r key attempt rest came world} hpending _ hcall hr => ?_, fun {r} hc hr => ?_⟩
  · obtain ⟨_, hended, hnow, hcalled⟩ := hr.call hs hd hpending
    rw [Surroundings.callInline_of_ended hended] at hcall
    cases hcall
    rw [hnow, Run.collectInline_of_intime (htime _)]
    exact hcalled.collect _
  · rw [hr.calm] at hc
    cases hc

/-! ### A whole run -/

theorem Floor.inStep_start (retries : Nat) {world : σ} (hfresh : ∀ k ∈ keys, earlier world k = 0)
    (hcancel : s.cancelled world = false) :
    (Floor.start keys world : Floor σ κ β τ).InStep s outcome earlier retries keys := by
  have hkeys := Floor.entrusted_start (β := β) (τ := τ) keys world
  refine ⟨⟨?_, Floor.balanced_start retries keys world, hfresh, hcancel, ?_, ?_, ?_⟩, ?_⟩
  · exact List.Perm.of_eq hkeys
  · exact List.forall_mem_nil _
  · intro p hp m hm hless
    obtain ⟨k, _, rfl⟩ := List.mem_map.1 hp
    omega
  · exact List.forall_mem_nil _
  · exact List.forall_mem_nil _

/-- Whatever workers there are, a run keeps in step to its end. -/
theorem complete_inStep [EquivBEq κ] [Timeline τ] {plan : Plan τ}
    (hs : s.Steady outcome earlier) (hd : Distinct keys)
    (htime : ∀ (t : τ), ∀ limit ∈ plan.timeout,
      Timeline.exceeds (Timeline.since t t) limit = false)
    {world : σ} (hfresh : ∀ k ∈ keys, earlier world k = 0) (hcancel : s.cancelled world = false)
    {bound : Nat} {e : Floor σ κ β τ}
    (h : complete s plan bound (Floor.start keys world) = some e) :
    ∀ x ∈ e.results, x.report = verdict (outcome x.key) plan.retries := by
  have hstart : (Floor.start keys world : Floor σ κ β τ).InStep s outcome earlier plan.retries
      keys := Floor.inStep_start plan.retries hfresh hcancel
  have hidle : ∀ f : Floor σ κ β τ, f.live = [] →
      f.InStep s outcome earlier plan.retries keys →
      f.toRun.InStep s outcome earlier plan.retries keys [] := by
    intro f hlive hf
    have hrun := hf.run
    rwa [hlive] at hrun
  exact (complete_keeps h (fun _ _ => ⟨hstart.run, hstart.ended⟩)
    (fun _ _ hf => hf.round hs hd) hidle (keptInline_inStep hs hd htime)).1.results

end

/-! ### The clock of a run -/

open Float.Model (UnpackedFloat)

/-- The difference of a double and itself is zero, or no number. -/
theorem unpack_sub_self (x : Float) :
    (x - x).toModel.unpack = .notANumber ∨
      (x - x).toModel.unpack = (0.0 : Float).toModel.unpack := by
  have hsub : (x - x).toModel.unpack =
      (Float.Model.pack (UnpackedFloat.sub .binary64 x.toModel.unpack x.toModel.unpack)).unpack :=
    rfl
  rw [hsub]
  cases x.toModel.unpack with
  | notANumber => exact Or.inl rfl
  | infinity sign =>
      left
      cases sign <;> rfl
  | zero sign =>
      right
      cases sign <;> rfl
  | finite sign m e hm =>
      right
      have hzero : UnpackedFloat.sub .binary64 (.finite sign m e hm) (.finite sign m e hm) =
          .zero .positive := by
        simp [UnpackedFloat.sub, UnpackedFloat.normalize]
      rw [hzero]
      rfl

/-- No time exceeds no limit that is not negative. -/
theorem not_exceeds_since_self {limit : Float} (h : ¬limit < 0.0) (t : Float) :
    Timeline.exceeds (Timeline.since t t) limit = false := by
  have hnot : ¬limit < t - t := by
    rw [Number.lt_iff_compare] at h ⊢
    rcases unpack_sub_self t with hnan | hzero
    · rw [hnan]
      cases limit.toModel.unpack <;> simp [UnpackedFloat.compare]
    · rwa [hzero]
  exact decide_eq_false hnot

/-- **A run comes to the same with any workers.**  If calls take no time, do not get stuck and do
not cancel the run, and what a call comes to depends on its key and on the number of earlier calls
for it, then with no time limit, or one that is not negative, a run for distinct keys returns and
reports for each key the verdict on its attempts: however many keys are worked on at once, without
workers too, and whichever workers and calls fail. -/
theorem run_reports_verdicts [BEq κ] [EquivBEq κ] (s : Surroundings σ κ β Float)
    (outcome : κ → Nat → Except String β) (earlier : σ → κ → Nat) (hs : s.Steady outcome earlier)
    (workers : Int) (timeout : Option Float) (htimeout : ∀ limit ∈ timeout, ¬limit < 0.0)
    (retries bound : Nat) (keys : List κ) (hd : Distinct keys) (world : σ)
    (hfresh : ∀ k ∈ keys, earlier world k = 0) (hcancel : s.cancelled world = false)
    (hbound : keys.length * (retries + 2) ≤ bound) :
    ∃ fin, run s { workers, timeout, retries } bound keys world = some fin ∧
      fin.results.map (fun x => (x.key, x.report)) =
        keys.map fun k => (k, verdict (outcome k) retries) := by
  let plan : Plan Float := { workers, timeout, retries }
  have hstaff : 0 < plan.workers → plan.workers ≤ plan.staff := by
    intro hworkers
    simp only [plan] at hworkers ⊢
    omega
  have htime : ∀ (t : Float), ∀ limit ∈ plan.timeout,
      Timeline.exceeds (Timeline.since t t) limit = false :=
    fun t limit hlimit => not_exceeds_since_self (htimeout limit hlimit) t
  have hprompt : s.Prompt := fun key w => by rw [hs.ends]; rfl
  obtain ⟨fin, hfin⟩ : ∃ fin, run s plan bound keys world = some fin :=
    run_returns hprompt hstaff hbound world
  obtain ⟨f, hf, rfl⟩ := Option.map_eq_some_iff.1 hfin
  have hverdicts := complete_inStep hs hd htime hfresh hcancel hf
  have hresults := finished_results_perm hd hf
  have horder := (finished_keys hd hf).2
  refine ⟨f.finished keys, hfin, ?_⟩
  calc (f.finished keys).results.map (fun x => (x.key, x.report))
      = (f.finished keys).results.map (fun x => (x.key, verdict (outcome x.key) retries)) := by
        refine List.map_congr_left fun x hx => ?_
        rw [hverdicts x (hresults.mem_iff.1 hx)]
    _ = ((f.finished keys).results.map Result.key).map
          (fun k => (k, verdict (outcome k) retries)) := by
        rw [List.map_map]
        rfl
    _ = keys.map fun k => (k, verdict (outcome k) retries) := by rw [horder]

/-- What the attempts for some keys come to. -/
def flakyOutcome : String → Nat → Except String Nat
  | "steady", _ => .ok 1
  | "flaky", n => if n < 2 then .error "not yet" else .ok n
  | _, n => .error (if n < 2 then "not yet" else "never")

/-- Work that takes no time and remembers the keys it was called for; the third call cannot be
handed to a worker. -/
def flakyWork : Surroundings (List String) String Nat Float where
  now _ := 0.0
  pause w := w
  cancelled _ := false
  call key w := (.ended (flakyOutcome key (w.countP (· == key) + 1)), key :: w)
  canSubmit n := n != 3
  late key := key ++ " is late"

theorem flakyWork_steady : flakyWork.Steady flakyOutcome fun w k => w.countP (· == k) where
  ends _ _ := rfl
  counts key w k := by simp [flakyWork, List.countP_cons]
  now _ _ := rfl
  cancelled _ _ := rfl

/-- With workers that fail on the way, and without any, the three keys end alike: at once, with the
second attempt, and with the failure of the second. -/
theorem flakyWork_reports_verdicts :
    Distinct ["steady", "flaky", "broken"] ∧
      (∃ fin, run flakyWork { workers := 2, timeout := some 0.5, retries := 1 } 9
          ["steady", "flaky", "broken"] [] = some fin ∧
        fin.results.map (fun x => (x.key, x.report)) =
          [("steady", .completed, some 1, "", 1), ("flaky", .completed, some 2, "", 2),
            ("broken", .failed, none, "never", 2)]) ∧
      ∃ fin, run flakyWork { workers := -1, timeout := some 0.5, retries := 1 } 9
          ["steady", "flaky", "broken"] [] = some fin ∧
        fin.results.map (fun x => (x.key, x.report)) =
          [("steady", .completed, some 1, "", 1), ("flaky", .completed, some 2, "", 2),
            ("broken", .failed, none, "never", 2)] := by
  have hd : Distinct ["steady", "flaky", "broken"] := by
    unfold Distinct
    decide
  have htimeout : ∀ limit ∈ some (0.5 : Float), ¬limit < 0.0 := by
    intro limit hlimit
    rw [← Option.some.inj hlimit]
    decide +kernel
  have hreports (workers : Int) := run_reports_verdicts flakyWork flakyOutcome _ flakyWork_steady
    workers (some 0.5) htimeout 1 9 ["steady", "flaky", "broken"] hd [] (fun _ _ => rfl) rfl
    (by decide)
  exact ⟨hd, hreports 2, hreports (-1)⟩

end PhpAudit.WorkPool
