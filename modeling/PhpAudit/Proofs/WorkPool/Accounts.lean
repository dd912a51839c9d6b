/-
**A run of the pool accounts for every key exactly once.**

On its way through a run a key changes hands many times: it waits, is handed to a worker, comes
back to wait after a failure, is left behind, is cancelled, or is worked through without workers
once these cannot be had.  What all of these steps have in common is that no key is lost and none is
doubled: the keys with a result, the keys that are worked on and the keys that wait are, taken
together, always the keys that were given, in some order.  A run comes to an end only when nothing
is worked on and nothing waits, so the results alone are then the keys that were given.

Main definitions:

* `WorkPool.Run.entrusted`, `WorkPool.Floor.entrusted` — the keys that a state answers for.

Main results:

* `WorkPool.dispatch_keeps`, `WorkPool.rounds_keeps` — what each call that is handed out, or each
  round, keeps is kept by all of them;
* `WorkPool.KeptInline.sequential` — so is what each call without workers keeps;
* `WorkPool.complete_keeps` — **what both ways of working keep holds at the end of a run**;
* `WorkPool.round_entrusted` — a round keeps the keys that the state answers for;
* `WorkPool.complete_keys` — the results of a whole run are those of the keys that were given;
* `WorkPool.run_accounts_for_every_key` — **one result for each key, in the order of the keys**,
  each key finished once, and figures that add up.
-/

import Mathlib.Data.List.Basic
import PhpAudit.WorkPool.Run

set_option autoImplicit false

namespace PhpAudit.WorkPool

variable {σ κ β τ : Type}

/-! ### The keys that a state answers for -/

/-- The keys that have a result, then those that wait. -/
def Run.entrusted (r : Run σ κ β τ) : List κ :=
  r.results.map Result.key ++ r.pending.map Prod.fst

/-- The keys that are worked on, then those that have a result and those that wait. -/
def Floor.entrusted (f : Floor σ κ β τ) : List κ :=
  f.live.map Task.key ++ f.toRun.entrusted

theorem Floor.entrusted_start (keys : List κ) (world : σ) :
    (Floor.start keys world : Floor σ κ β τ).entrusted = keys := by
  simp only [Floor.entrusted, Run.entrusted, Floor.start, List.map_nil, List.nil_append,
    List.map_map]
  exact List.map_id keys

/-! ### Steps that both ways of working share -/

/-- Cancelling gives each key that waits a result. -/
theorem Run.entrusted_cancelAll [Timeline τ] (r : Run σ κ β τ) :
    r.cancelAll.entrusted = r.entrusted := by
  simp only [Run.entrusted, Run.cancelAll, List.map_append, List.map_map, List.map_nil,
    List.append_nil]
  rfl

theorem Run.entrusted_finish (r : Run σ κ β τ) (x : Result κ β τ) :
    (r.finish x).entrusted.Perm (x.key :: r.entrusted) := by
  simp only [Run.entrusted, Run.finish, List.map_append, List.map_cons, List.map_nil,
    List.append_assoc, List.cons_append, List.nil_append]
  exact List.perm_middle

/-- Whatever a call came to, its key is taken back. -/
theorem Run.entrusted_collect (plan : Plan τ) (r : Run σ κ β τ) (key : κ) (attempt : Nat)
    (elapsed : τ) (outcome : Except String β) :
    (r.collect plan key attempt elapsed outcome).entrusted.Perm (key :: r.entrusted) := by
  cases outcome with
  | ok v => exact r.entrusted_finish _
  | error e =>
      simp only [Run.collect]
      split
      · -- the key waits again
        simp only [Run.entrusted, List.map_cons]
        exact List.perm_middle
      · exact r.entrusted_finish _

/-! ### Loops -/

/-- What every call that is handed out keeps, and what a call that cannot be handed over keeps, is
kept by handing out.  The number counts the places that are left; some are left in the end only if
nothing waits or a call could not be handed over. -/
theorem dispatch_invariant {s : Surroundings σ κ β τ} {P : Nat → Floor σ κ β τ → Prop}
    (hsubmit : ∀ {n : Nat} {f : Floor σ κ β τ} {key : κ} {attempt : Nat} {rest : List (κ × Nat)},
      f.pending = (key, attempt) :: rest → P (n + 1) f → P n (submit s f key attempt rest))
    (hrefuse : ∀ {n : Nat} {f : Floor σ κ β τ}, P n f →
      P n { f with submitted := f.submitted + 1, fallback := true })
    {n : Nat} {f : Floor σ κ β τ} (h : P n f) :
    ∃ m, P m (dispatch s n f) ∧
      (m = 0 ∨ (dispatch s n f).pending = [] ∨ (dispatch s n f).fallback = true) := by
  induction n generalizing f with
  | zero => exact ⟨0, h, Or.inl rfl⟩
  | succ n ih =>
      simp only [dispatch]
      split
      · rename_i hpending
        exact ⟨n + 1, h, Or.inr (Or.inl hpending)⟩
      · rename_i key attempt rest hpending
        split
        · rename_i hfallback
          exact ⟨n + 1, h, Or.inr (Or.inr hfallback)⟩
        · split
          · exact ih (hsubmit hpending h)
          · exact ⟨n + 1, hrefuse h, Or.inr (Or.inr rfl)⟩

/-- The same for what does not depend on the places. -/
theorem dispatch_keeps {s : Surroundings σ κ β τ} {P : Floor σ κ β τ → Prop}
    (hsubmit : ∀ {f : Floor σ κ β τ} {key : κ} {attempt : Nat} {rest : List (κ × Nat)},
      f.pending = (key, attempt) :: rest → P f → P (submit s f key attempt rest))
    (hrefuse : ∀ {f : Floor σ κ β τ}, P f →
      P { f with submitted := f.submitted + 1, fallback := true })
    {f : Floor σ κ β τ} (h : P f) (n : Nat) : P (dispatch s n f) := by
  obtain ⟨_, hkept, _⟩ := dispatch_invariant (P := fun _ g => P g) (n := n) hsubmit hrefuse h
  exact hkept

/-- What a round keeps holds after the last one if it holds before the first; then no other round is
due. -/
theorem rounds_keeps [Timeline τ] {s : Surroundings σ κ β τ} {plan : Plan τ}
    {P : Floor σ κ β τ → Prop}
    (hround : ∀ f : Floor σ κ β τ, f.isBusy = true → P f → P (round s plan f)) {bound : Nat}
    {f g : Floor σ κ β τ} (h : rounds s plan bound f = some g) (hf : P f) :
    P g ∧ g.isBusy = false := by
  induction bound generalizing f with
  | zero =>
      simp only [rounds] at h
      split at h
      · cases h
      · rename_i hidle
        cases h
        exact ⟨hf, by simpa using hidle⟩
  | succ bound ih =>
      simp only [rounds] at h
      split at h
      · rename_i hbusy
        exact ih h (hround f hbusy hf)
      · rename_i hidle
        cases h
        exact ⟨hf, by simpa using hidle⟩

/-! ### A round -/

theorem map_key_tick (beat : Beat) (live : List (Task κ β τ)) :
    (live.map (Task.tick beat)).map Task.key = live.map Task.key := by
  rw [List.map_map]
  rfl

theorem submit_entrusted (s : Surroundings σ κ β τ) (f : Floor σ κ β τ) (key : κ) (attempt : Nat)
    (rest : List (κ × Nat)) (h : f.pending = (key, attempt) :: rest) :
    (submit s f key attempt rest).entrusted.Perm f.entrusted := by
  simp only [submit, Floor.entrusted, Run.entrusted, List.map_append, map_key_tick, h,
    List.map_cons, List.map_nil, List.append_assoc, List.cons_append, List.nil_append]
  exact List.Perm.append_left _ List.perm_middle.symm

theorem dispatch_entrusted (s : Surroundings σ κ β τ) (places : Nat) (f : Floor σ κ β τ) :
    (dispatch s places f).entrusted.Perm f.entrusted :=
  dispatch_keeps (P := fun g => g.entrusted.Perm f.entrusted)
    (fun hpending hg => (submit_entrusted s _ _ _ _ hpending).trans hg) id (List.Perm.refl _) places

theorem replace_entrusted (s : Surroundings σ κ β τ) (f : Floor σ κ β τ) :
    (replace s f).entrusted = f.entrusted := by
  unfold replace
  split <;> rfl

theorem gatherOne_entrusted [Timeline τ] (s : Surroundings σ κ β τ) (plan : Plan τ)
    (f : Floor σ κ β τ) (t : Task κ β τ) (h : t.work.isStuck = false) :
    (gatherOne s plan f t).entrusted.Perm (t.key :: f.entrusted) := by
  unfold gatherOne
  split
  · simp only [Floor.entrusted]
    exact (List.Perm.append_left _ (Run.entrusted_collect plan _ _ _ _ _)).trans List.perm_middle
  · rename_i hwork
    simp [hwork, Work.isStuck] at h

/-- Taking in ended calls one after the other, each brings its key. -/
theorem foldl_gatherOne_entrusted [Timeline τ] (s : Surroundings σ κ β τ) (plan : Plan τ)
    (ended : List (Task κ β τ)) (f : Floor σ κ β τ) (h : ∀ t ∈ ended, t.work.isStuck = false) :
    (ended.foldl (gatherOne s plan) f).entrusted.Perm (ended.map Task.key ++ f.entrusted) := by
  induction ended generalizing f with
  | nil => exact List.Perm.refl _
  | cons t ended ih =>
      have hfirst := gatherOne_entrusted s plan f t (h t List.mem_cons_self)
      have hrest := ih (gatherOne s plan f t) fun u hu => h u (List.mem_cons_of_mem _ hu)
      exact hrest.trans ((List.Perm.append_left _ hfirst).trans List.perm_middle)

/-- The calls of one kind and the calls of the other are all calls. -/
theorem entrusted_of_partition (f : Floor σ κ β τ) (p : Task κ β τ → Bool) :
    ((f.live.filter p).map Task.key ++ ((f.live.filter fun t => !p t).map Task.key ++
      f.toRun.entrusted)).Perm f.entrusted := by
  rw [← List.append_assoc, ← List.map_append]
  exact List.Perm.append_right _ ((List.filter_append_perm p f.live).map Task.key)

theorem await_entrusted (s : Surroundings σ κ β τ) (f : Floor σ κ β τ) :
    (await s f).entrusted = f.entrusted := by
  unfold await
  split
  · simp only [Floor.entrusted, map_key_tick]
    rfl
  · rfl

theorem gather_entrusted [Timeline τ] (s : Surroundings σ κ β τ) (plan : Plan τ)
    (f : Floor σ κ β τ) : (gather s plan f).entrusted.Perm f.entrusted := by
  have hended : ∀ t ∈ f.live.filter fun t => !t.work.isStuck, t.work.isStuck = false := by
    intro t ht
    simpa using (List.mem_filter.1 ht).2
  refine (foldl_gatherOne_entrusted s plan _ _ hended).trans ?_
  have hall := entrusted_of_partition f fun t => !t.work.isStuck
  simpa only [Bool.not_not, Floor.entrusted] using hall

theorem expire_entrusted [Timeline τ] (s : Surroundings σ κ β τ) (plan : Plan τ)
    (f : Floor σ κ β τ) : (expire s plan f).entrusted.Perm f.entrusted := by
  unfold expire
  split
  · exact List.Perm.refl _
  · rename_i limit _
    have hkeys (gone : List (Task κ β τ)) :
        (gone.map (expiredResult s (s.now f.world))).map Result.key = gone.map Task.key := by
      rw [List.map_map]
      rfl
    have hall := entrusted_of_partition f fun t =>
      Timeline.exceeds (Timeline.since (s.now f.world) t.started) limit
    simp only [Floor.entrusted, Run.entrusted, List.map_append, hkeys, List.append_assoc] at hall ⊢
    -- the keys of the calls left behind come last among the results, not first
    refine List.Perm.trans ?_ hall
    simp only [← List.append_assoc]
    refine List.Perm.append_right _ ?_
    exact List.perm_append_comm.trans (by rw [List.append_assoc])

theorem handOut_entrusted [Timeline τ] (s : Surroundings σ κ β τ) (plan : Plan τ)
    (f : Floor σ κ β τ) : (handOut s plan f).entrusted.Perm f.entrusted := by
  unfold handOut
  refine (dispatch_entrusted s _ _).trans ?_
  split
  · simp only [Floor.entrusted, Run.entrusted_cancelAll]
    exact List.Perm.refl _
  · exact List.Perm.refl _

/-- **A round loses no key and doubles none.** -/
theorem round_entrusted [Timeline τ] (s : Surroundings σ κ β τ) (plan : Plan τ)
    (f : Floor σ κ β τ) : (round s plan f).entrusted.Perm f.entrusted := by
  have hout := handOut_entrusted s plan f
  simp only [round]
  split
  · split
    · exact hout
    · rw [replace_entrusted]
      exact hout
  · refine (expire_entrusted s plan _).trans ((gather_entrusted s plan _).trans ?_)
    rw [await_entrusted]
    exact hout

/-- Rounds go on as long as a key is worked on. -/
theorem rounds_live [Timeline τ] (s : Surroundings σ κ β τ) (plan : Plan τ) {bound : Nat}
    {f g : Floor σ κ β τ} (h : rounds s plan bound f = some g) : g.live = [] := by
  have hidle := (rounds_keeps (P := fun _ => True) (fun _ _ hm => hm) h trivial).2
  simp only [Floor.isBusy, Bool.or_eq_false_iff, Bool.not_eq_false', List.isEmpty_iff] at hidle
  exact hidle.1

/-! ### Without workers -/

theorem Run.entrusted_collectInline [Timeline τ] (s : Surroundings σ κ β τ) (plan : Plan τ)
    (r : Run σ κ β τ) (key : κ) (attempt : Nat) (elapsed : τ) (outcome : Except String β) :
    (r.collectInline s plan key attempt elapsed outcome).entrusted.Perm (key :: r.entrusted) := by
  unfold Run.collectInline
  split
  · split
    · exact r.entrusted_finish _
    · exact r.entrusted_collect plan _ _ _ _
  · exact r.entrusted_collect plan _ _ _ _

/-- A call that ends at once is not waited for. -/
theorem Surroundings.callInline_of_ended {s : Surroundings σ κ β τ} {key : κ} {world world' : σ}
    {outcome : Except String β} (h : s.call key world = (.ended outcome, world')) :
    s.callInline key world = some (outcome, world') := by
  rw [callInline, h]

/-- Nothing waits: the work is done. -/
theorem sequential_of_nil [Timeline τ] (s : Surroundings σ κ β τ) (plan : Plan τ)
    {r : Run σ κ β τ} (h : r.pending = []) : sequential s plan r = some r := by
  rw [sequential]
  split
  · rfl
  · simp_all

/-- The run was cancelled: so are the keys that wait. -/
theorem sequential_of_cancelled [Timeline τ] (s : Surroundings σ κ β τ) (plan : Plan τ)
    {r : Run σ κ β τ} {key : κ} {attempt : Nat} {rest : List (κ × Nat)}
    (h : r.pending = (key, attempt) :: rest) (hc : s.cancelled r.world = true) :
    sequential s plan r = some r.cancelAll := by
  rw [sequential]
  split
  · simp_all
  · rw [if_pos hc]

/-- The next call does not end: there is no result. -/
theorem sequential_of_stuck [Timeline τ] (s : Surroundings σ κ β τ) (plan : Plan τ)
    {r : Run σ κ β τ} {key : κ} {attempt : Nat} {rest : List (κ × Nat)}
    (h : r.pending = (key, attempt) :: rest) (hc : ¬s.cancelled r.world = true)
    (hcall : s.callInline key r.world = none) :
    sequential s plan r = none := by
  rw [sequential]
  split
  · simp_all
  · rename_i key' attempt' rest' h'
    rw [h] at h'
    obtain ⟨⟨rfl, rfl⟩, rfl⟩ := h'
    rw [if_neg hc, hcall]

/-- The next call ends: it is taken in, and the work goes on. -/
theorem sequential_of_ended [Timeline τ] (s : Surroundings σ κ β τ) (plan : Plan τ)
    {r : Run σ κ β τ} {key : κ} {attempt : Nat} {rest : List (κ × Nat)}
    (h : r.pending = (key, attempt) :: rest) (hc : ¬s.cancelled r.world = true)
    {outcome : Except String β} {world : σ}
    (hcall : s.callInline key r.world = some (outcome, world)) :
    sequential s plan r = sequential s plan
      (({ r with world, pending := rest, calls := r.calls ++ [key] } : Run σ κ β τ).collectInline
        s plan key attempt (Timeline.since (s.now world) (s.now r.world)) outcome) := by
  rw [sequential]
  split
  · simp_all
  · rename_i key' attempt' rest' h'
    rw [h] at h'
    obtain ⟨⟨rfl, rfl⟩, rfl⟩ := h'
    rw [if_neg hc, hcall]

/-- Something is kept by each call without workers and by the cancellation of the keys that wait. -/
structure KeptInline [Timeline τ] (s : Surroundings σ κ β τ) (plan : Plan τ)
    (Q : Run σ κ β τ → Prop) : Prop where
  call : ∀ {r : Run σ κ β τ} {key : κ} {attempt : Nat} {rest : List (κ × Nat)}
    {outcome : Except String β} {world : σ}, r.pending = (key, attempt) :: rest →
    s.cancelled r.world = false → s.callInline key r.world = some (outcome, world) → Q r →
    Q (({ r with world, pending := rest, calls := r.calls ++ [key] } : Run σ κ β τ).collectInline
      s plan key attempt (Timeline.since (s.now world) (s.now r.world)) outcome)
  cancel : ∀ {r : Run σ κ β τ}, s.cancelled r.world = true → Q r → Q r.cancelAll

/-- What is kept without workers holds when the work without workers is done; then no key waits. -/
theorem KeptInline.sequential [Timeline τ] {s : Surroundings σ κ β τ} {plan : Plan τ}
    {Q : Run σ κ β τ → Prop} (hkept : KeptInline s plan Q) {r r' : Run σ κ β τ}
    (h : sequential s plan r = some r') (hr : Q r) : Q r' ∧ r'.pending = [] := by
  -- induction on the calls that are made, as the work itself recurses
  induction r using sequential.induct s plan with
  | case1 r hpending =>
      rw [sequential_of_nil s plan hpending] at h
      exact Option.some.inj h ▸ ⟨hr, hpending⟩
  | case2 r key attempt rest hpending hc =>
      rw [sequential_of_cancelled s plan hpending hc] at h
      exact Option.some.inj h ▸ ⟨hkept.cancel hc hr, rfl⟩
  | case3 r key attempt rest hpending hc hnone =>
      rw [sequential_of_stuck s plan hpending hc hnone] at h
      cases h
  | case4 r key attempt rest hpending hc outcome world hsome called elapsed ih =>
      rw [sequential_of_ended s plan hpending hc hsome] at h
      exact ih h (hkept.call hpending (by simpa using hc) hsome hr)

/-! ### A whole run -/

/-- The part of a run that is done on workers, and the state that it leaves behind. -/
def Floor.onWorkers [Timeline τ] (s : Surroundings σ κ β τ) (plan : Plan τ) (bound : Nat)
    (f : Floor σ κ β τ) : Option (Floor σ κ β τ) :=
  if plan.workers ≤ 0 then some f
  else if s.canCreate 1 then rounds s plan bound { f with created := 1 }
  else some { f with created := 1, fallback := true }

section

variable [Timeline τ] {s : Surroundings σ κ β τ} {plan : Plan τ} {bound : Nat} {keys : List κ}
  {world : σ}

theorem complete_eq (s : Surroundings σ κ β τ) (plan : Plan τ) (bound : Nat) (f : Floor σ κ β τ) :
    complete s plan bound f =
      (f.onWorkers s plan bound).bind (Floor.withoutWorkers s plan) := by
  simp only [complete, Floor.onWorkers]
  split
  · rfl
  · split <;> rfl

/-- A run that returns has a part on workers and a part without. -/
theorem exists_of_complete {f e : Floor σ κ β τ} (h : complete s plan bound f = some e) :
    ∃ g r, f.onWorkers s plan bound = some g ∧ sequential s plan g.toRun = some r ∧
      e = { g with toRun := r } := by
  rw [complete_eq] at h
  obtain ⟨g, hg, he⟩ := Option.bind_eq_some_iff.1 h
  obtain ⟨r, hr, rfl⟩ := Option.map_eq_some_iff.1 he
  exact ⟨g, r, hg, hr, rfl⟩

/-- What holds at the start, whatever becomes of the first workers, and is kept by each round, holds
after the part of a run on workers; then no call is under way. -/
theorem Floor.onWorkers_keeps {P : Floor σ κ β τ → Prop} {g : Floor σ κ β τ}
    (h : (Floor.start keys world).onWorkers s plan bound = some g)
    (hstart : ∀ created fallback, P { Floor.start keys world with created, fallback })
    (hround : ∀ f : Floor σ κ β τ, f.isBusy = true → P f → P (round s plan f)) :
    P g ∧ g.live = [] := by
  unfold Floor.onWorkers at h
  split at h
  · exact Option.some.inj h ▸ ⟨hstart 0 false, rfl⟩
  · split at h
    · exact ⟨(rounds_keeps hround h (hstart 1 false)).1, rounds_live s plan h⟩
    · exact Option.some.inj h ▸ ⟨hstart 1 true, rfl⟩

/-- **What both ways of working keep holds at the end of a run**, and then no key waits. -/
theorem complete_keeps {P : Floor σ κ β τ → Prop} {Q : Run σ κ β τ → Prop} {e : Floor σ κ β τ}
    (h : complete s plan bound (Floor.start keys world) = some e)
    (hstart : ∀ created fallback, P { Floor.start keys world with created, fallback })
    (hround : ∀ f : Floor σ κ β τ, f.isBusy = true → P f → P (round s plan f))
    (hidle : ∀ f : Floor σ κ β τ, f.live = [] → P f → Q f.toRun) (hkept : KeptInline s plan Q) :
    Q e.toRun ∧ e.pending = [] := by
  obtain ⟨g, r, hg, hr, rfl⟩ := exists_of_complete h
  obtain ⟨hend, hlive⟩ := Floor.onWorkers_keeps hg hstart hround
  exact hkept.sequential hr (hidle g hlive hend)

/-- **The results of a run are those of the keys that were given**, each once. -/
theorem complete_keys {e : Floor σ κ β τ}
    (h : complete s plan bound (Floor.start keys world) = some e) :
    (e.results.map Result.key).Perm keys := by
  have hstart : (Floor.start keys world : Floor σ κ β τ).entrusted.Perm keys :=
    .of_eq (Floor.entrusted_start keys world)
  have hkept : KeptInline s plan fun r => r.entrusted.Perm keys := by
    refine ⟨fun {r key attempt rest outcome world} hpending _ _ hr => ?_, fun {r} _ hr => ?_⟩
    · refine (Run.entrusted_collectInline s plan _ key attempt _ outcome).trans (.trans ?_ hr)
      simp only [Run.entrusted, hpending, List.map_cons]
      exact List.perm_middle.symm
    · rwa [Run.entrusted_cancelAll]
  obtain ⟨hkeys, hdone⟩ := complete_keeps (P := fun f => f.entrusted.Perm keys) h
    (fun _ _ => hstart) (fun f _ hf => (round_entrusted s plan f).trans hf)
    (fun f hlive hf => by simpa [Floor.entrusted, hlive] using hf) hkept
  simpa only [Run.entrusted, hdone, List.map_nil, List.append_nil] using hkeys

end

/-! ### Results by key -/

/-- The four ways to end are all there are. -/
theorem count_add (results : List (Result κ β τ)) :
    count .completed results + count .failed results + count .timedOut results +
      count .cancelled results = results.length := by
  induction results with
  | nil => rfl
  | cons r results ih =>
      have hstatus (status : Status) : count status (r :: results) =
          count status results + if r.status = status then 1 else 0 := by
        simp only [count, List.filter_cons, beq_iff_eq]
        split <;> rfl
      simp only [hstatus, List.length_cons]
      cases r.status <;> simp <;> omega

/-- No key of a list equals a later one. -/
def Distinct [BEq κ] (keys : List κ) : Prop :=
  keys.Pairwise fun a b => (a == b) = false

theorem Distinct.of_perm [BEq κ] [EquivBEq κ] {keys keys' : List κ} (h : Distinct keys)
    (hp : keys'.Perm keys) : Distinct keys' :=
  (hp.pairwise_iff fun hab => BEq.symm_false hab).2 h

theorem Distinct.eraseDups [BEq κ] [EquivBEq κ] {keys : List κ} (h : Distinct keys) :
    keys.eraseDups = keys := by
  induction keys with
  | nil => rfl
  | cons k keys ih =>
      obtain ⟨hk, hrest⟩ := List.pairwise_cons.1 h
      have hkept : (keys.filter fun b => !b == k) = keys := by
        refine List.filter_eq_self.2 ?_
        intro b hb
        simp [BEq.symm_false (hk b hb)]
      rw [List.eraseDups_cons, hkept, ih hrest]

/-- Of distinct keys, each finds its own result. -/
theorem resultOf?_of_mem [BEq κ] [EquivBEq κ] {results : List (Result κ β τ)}
    (hd : Distinct (results.map Result.key)) {r : Result κ β τ} (hr : r ∈ results) :
    resultOf? results r.key = some r := by
  induction results with
  | nil => exact absurd hr (by simp)
  | cons x results ih =>
      obtain ⟨hx, hrest⟩ := List.pairwise_cons.1 hd
      rcases List.mem_cons.1 hr with rfl | hr
      · have hothers : (results.filter fun y => y.key == r.key) = [] := by
          refine List.filter_eq_nil_iff.2 ?_
          intro y hy
          simp [BEq.symm_false (hx y.key (List.mem_map_of_mem hy))]
        simp [resultOf?, hothers]
      · have hskip : (x.key == r.key) = false := hx r.key (List.mem_map_of_mem hr)
        simpa [resultOf?, List.filter_cons, hskip] using ih hrest hr

theorem key_of_resultOf? [BEq κ] {results : List (Result κ β τ)} {k : κ} {r : Result κ β τ}
    (h : resultOf? results k = some r) : r.key = k := by
  obtain ⟨x, _, rfl⟩ := Option.map_eq_some_iff.1 h
  rfl

/-- Keys that all find a result are the keys of what they find. -/
theorem map_key_filterMap_resultOf? [BEq κ] {results : List (Result κ β τ)} {keys : List κ}
    (h : ∀ k ∈ keys, (resultOf? results k).isSome = true) :
    (keys.filterMap (resultOf? results)).map Result.key = keys := by
  induction keys with
  | nil => rfl
  | cons k keys ih =>
      obtain ⟨r, hr⟩ := Option.isSome_iff_exists.1 (h k List.mem_cons_self)
      have hrest := ih fun k' hk' => h k' (List.mem_cons_of_mem _ hk')
      rw [List.filterMap_cons_some hr, List.map_cons, key_of_resultOf? hr, hrest]

/-- Looking up all keys in the order of the results gives the results back. -/
theorem filterMap_resultOf?_self [BEq κ] [EquivBEq κ] {results : List (Result κ β τ)}
    (hd : Distinct (results.map Result.key)) :
    (results.map Result.key).filterMap (resultOf? results) = results := by
  rw [List.filterMap_map, Function.comp_def]
  calc results.filterMap (fun r => resultOf? results r.key)
      = results.filterMap some := List.filterMap_congr fun r hr => resultOf?_of_mem hd hr
    _ = results := List.filterMap_some

/-- Looking up all keys gives all results back. -/
theorem filterMap_resultOf?_perm [BEq κ] [EquivBEq κ] {results : List (Result κ β τ)}
    {keys : List κ} (hd : Distinct keys) (hp : (results.map Result.key).Perm keys) :
    (keys.filterMap (resultOf? results)).Perm results := by
  have hlookup := (hp.filterMap (resultOf? results)).symm
  rwa [filterMap_resultOf?_self (hd.of_perm hp)] at hlookup

/-- What a run for distinct keys returns are all results of the state that it ends in. -/
theorem finished_results_perm [Timeline τ] [BEq κ] [EquivBEq κ] {s : Surroundings σ κ β τ}
    {plan : Plan τ} {bound : Nat} {keys : List κ} {world : σ} {f : Floor σ κ β τ}
    (hd : Distinct keys) (h : complete s plan bound (Floor.start keys world) = some f) :
    (f.finished keys).results.Perm f.results := by
  simp only [Floor.finished, hd.eraseDups]
  exact filterMap_resultOf?_perm hd (complete_keys h)

/-- They are returned in the order of the keys. -/
theorem finished_keys [Timeline τ] [BEq κ] [EquivBEq κ] {s : Surroundings σ κ β τ}
    {plan : Plan τ} {bound : Nat} {keys : List κ} {world : σ} {f : Floor σ κ β τ}
    (hd : Distinct keys) (h : complete s plan bound (Floor.start keys world) = some f) :
    (∀ k ∈ keys, (resultOf? f.results k).isSome = true) ∧
      (f.finished keys).results.map Result.key = keys := by
  have hfound : ∀ k ∈ keys, (resultOf? f.results k).isSome = true := by
    intro k hk
    obtain ⟨r, hr, rfl⟩ := List.mem_map.1 ((complete_keys h).mem_iff.2 hk)
    rw [resultOf?_of_mem (hd.of_perm (complete_keys h)) hr]
    rfl
  refine ⟨hfound, ?_⟩
  simp only [Floor.finished, hd.eraseDups]
  exact map_key_filterMap_resultOf? hfound

/-- **Whenever a run of the pool returns, it accounts for every key exactly once.**  The state `f`
that the run ends in keeps one item in `f.results` for each time that a key was finished.  For
distinct keys, whatever the work function does, whichever workers can be had, whichever calls can
be handed over and whenever the run is cancelled: each key was finished once, each key finds its
result, the results are returned in the order of the keys, and the four counts add up to the number
of keys. -/
theorem run_accounts_for_every_key [Timeline τ] [BEq κ] [EquivBEq κ] (s : Surroundings σ κ β τ)
    (plan : Plan τ) (bound : Nat) (keys : List κ) (world : σ) (fin : Finished σ κ β τ)
    (hd : Distinct keys) (h : run s plan bound keys world = some fin) :
    ∃ f : Floor σ κ β τ, complete s plan bound (Floor.start keys world) = some f ∧
      fin = f.finished keys ∧
      (f.results.map Result.key).Perm keys ∧
      (∀ k ∈ keys, (resultOf? f.results k).isSome = true) ∧
      fin.results.map Result.key = keys ∧
      fin.results.Perm f.results ∧
      fin.tally.completed + fin.tally.failed + fin.tally.timedOut + fin.tally.cancelled =
        fin.tally.submitted ∧
      fin.tally.submitted = keys.length := by
  obtain ⟨f, hf, rfl⟩ := Option.map_eq_some_iff.1 h
  have hkeys := complete_keys hf
  obtain ⟨hfound, horder⟩ := finished_keys hd hf
  have hlength : f.results.length = keys.length := by
    rw [← hkeys.length_eq, List.length_map]
  refine ⟨f, hf, rfl, hkeys, hfound, horder, finished_results_perm hd hf, ?_, rfl⟩
  simp only [Floor.finished, Floor.tally, count_add, hlength]

/-- Work in which one key succeeds, one fails and the others get stuck for good; each pause takes a
quarter of a second, and the run is cancelled once the clock has moved. -/
def fourEnds : Surroundings Float String Nat Float where
  now := id
  pause w := w + 0.25
  cancelled w := decide (0.2 < w)
  call key w :=
    match key with
    | "good" => (.ended (.ok 1), w)
    | "bad" => (.ended (.error "no"), w)
    | _ => (.stuck {} (.ok 0), w)
  late key := key ++ " is late"

/-- The keys end in the four ways that there are, and all of them are accounted
for. -/
theorem fourEnds_accounts_for_every_key :
    ∃ fin, run fourEnds { workers := 1, timeout := some 0.1, retries := 1 } 9
        ["good", "bad", "stuck", "rest"] 0.0 = some fin ∧
      fin.results.map Result.status = [.completed, .failed, .timedOut, .cancelled] ∧
      fin.results.map Result.key = ["good", "bad", "stuck", "rest"] ∧
      fin.tally.completed + fin.tally.failed + fin.tally.timedOut + fin.tally.cancelled =
        fin.tally.submitted := by
  have h : (run fourEnds { workers := 1, timeout := some 0.1, retries := 1 } 9
      ["good", "bad", "stuck", "rest"] 0.0).map (fun fin => fin.results.map Result.status) =
        some [.completed, .failed, .timedOut, .cancelled] := by
    decide +kernel
  obtain ⟨fin, hfin, hstatus⟩ := Option.map_eq_some_iff.1 h
  have hd : Distinct ["good", "bad", "stuck", "rest"] := by
    unfold Distinct
    decide
  obtain ⟨f, _, _, _, _, hkeys, _, hsum, _⟩ :=
    run_accounts_for_every_key fourEnds _ 9 _ 0.0 fin hd hfin
  exact ⟨fin, hfin, hstatus, hkeys, hsum⟩

end PhpAudit.WorkPool
