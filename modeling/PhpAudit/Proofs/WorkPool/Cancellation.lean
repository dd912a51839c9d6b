/-
**A cancelled run makes no further calls.**

Whether a run was cancelled is looked at once in a round, before keys are handed out, and without
workers before each call.  In between, failed keys come back to wait, and a run whose workers fail
goes on without them.  This module shows that a run which is cancelled in the middle of all this
still stops: the calls that a round had yet to hand out may be made, and then no others, not even
for keys that failed; every key that waits ends as cancelled.

Main definitions:

* `WorkPool.Surroundings.StaysCancelled` — nothing takes back that a run was cancelled;
* `WorkPool.Floor.Due` — a further attempt that a state would make if the run were not cancelled.

Main results:

* `WorkPool.pending_round_of_due` — an attempt that is due once keys are handed out waits after the
  round;
* `WorkPool.Floor.Reaches.of_cancelled`, `WorkPool.Floor.Reaches.due` — the rounds of a cancelled
  run make no calls, and what is due is cancelled;
* `WorkPool.Floor.Passes.exists_next` — the calls of a round that are still made once the run is
  cancelled;
* `WorkPool.run_stops_when_cancelled` — **what is still done by a run that is cancelled**.
-/

import PhpAudit.Proofs.WorkPool.Attempts

set_option autoImplicit false

namespace PhpAudit.WorkPool

variable {σ κ β τ : Type}

/-- A run that was cancelled stays so, whatever the work function does or how long one waits. -/
structure Surroundings.StaysCancelled (s : Surroundings σ κ β τ) : Prop where
  call : ∀ key w, s.cancelled w = true → s.cancelled (s.call key w).2 = true
  pause : ∀ w, s.cancelled w = true → s.cancelled (s.pause w) = true

/-- A further attempt of a number is due for a key: the key waits for it, or its call has come back
with an error and may be made again. -/
def Floor.Due (plan : Plan τ) (f : Floor σ κ β τ) (p : κ × Nat) : Prop :=
  p ∈ f.pending ∨
    ∃ t ∈ f.live, ∃ e, t.work = .ended (.error e) ∧ t.attempt ≤ plan.retries ∧
      p = (t.key, t.attempt + 1)

variable {s : Surroundings σ κ β τ} {plan : Plan τ}

/-! ### Handing out -/

theorem Surroundings.StaysCancelled.dispatch (hs : s.StaysCancelled) {f : Floor σ κ β τ}
    (h : s.cancelled f.world = true) (n : Nat) :
    s.cancelled (dispatch s n f).world = true :=
  dispatch_keeps (P := fun g => s.cancelled g.world = true) (fun _ hg => hs.call _ _ hg)
    (fun hg => hg) h n

/-- A call that has ended stays among those under way until it is taken in. -/
theorem mem_live_dispatch {f : Floor σ κ β τ} {t : Task κ β τ} (ht : t ∈ f.live)
    {outcome : Except String β} (hwork : t.work = .ended outcome) (n : Nat) :
    t ∈ (dispatch s n f).live := by
  have htick : t.tick .start = t := by
    rw [Task.tick, Work.tick_of_ended (by rw [hwork]; rfl)]
  refine dispatch_keeps (P := fun g => t ∈ g.live) (fun _ hg => ?_) (fun hg => hg) ht n
  exact List.mem_append_left _ (List.mem_map.2 ⟨t, hg, htick⟩)

theorem prefix_dispatch_calls (n : Nat) (f : Floor σ κ β τ) :
    f.calls <+: (dispatch s n f).calls := by
  obtain ⟨taken, _, hout, _⟩ := exists_handsOut s n f
  rw [hout.calls]
  exact List.prefix_append _ _

theorem places_le (hworkers : 0 ≤ plan.workers) (f : Floor σ κ β τ) :
    (f.places plan : Int) ≤ plan.workers := by
  simp only [Floor.places]
  omega

/-- What is due stays so during a wait. -/
theorem Floor.Due.await {f : Floor σ κ β τ} {p : κ × Nat} (h : f.Due plan p) :
    (await s f).Due plan p := by
  rcases h with hp | ⟨t, ht, e, hwork, hagain⟩
  · left
    rwa [await_pending]
  · rw [await_of_ended ht (by rw [hwork]; rfl)]
    exact Or.inr ⟨t, ht, e, hwork, hagain⟩

variable [Timeline τ]

/-- Nothing is handed out in a run that was cancelled before. -/
theorem handOut_of_cancelled {f : Floor σ κ β τ} (h : s.cancelled f.world = true) :
    handOut s plan f = opened s f := by
  have hnone : (opened s f).pending = [] := by
    rw [opened_of_cancelled h]
    rfl
  rw [handOut_eq, dispatch_of_nil hnone]

/-! ### A round -/

theorem Surroundings.StaysCancelled.round (hs : s.StaysCancelled) {f : Floor σ κ β τ}
    (h : s.cancelled (handOut s plan f).world = true) :
    s.cancelled (round s plan f).world = true := by
  rcases round_cases s plan f with ⟨_, _, hround⟩ | ⟨_, _, _, hround⟩ | ⟨_, hround⟩
  · rw [hround, h]
  · rw [hround, replace_toRun, h]
  · rw [hround, expire_world, gather_eq, Run.gathered_world]
    rcases await_world s (handOut s plan f) with hw | hw
    · rw [awaited, hw, h]
    · rw [awaited, hw, hs.pause _ h]

/-- A key whose call came back with an error waits again once it is taken in. -/
theorem Run.mem_foldl_takeIn_pending {ts : List (Task κ β τ)} {t : Task κ β τ} (ht : t ∈ ts)
    {e : String} (hwork : t.work = .ended (.error e)) (hretry : t.attempt ≤ plan.retries)
    (r : Run σ κ β τ) : (t.key, t.attempt + 1) ∈ (ts.foldl (takeIn s plan) r).pending := by
  induction ts generalizing r with
  | nil => cases ht
  | cons u ts ih =>
      rw [List.foldl_cons]
      rcases List.mem_cons.1 ht with rfl | ht
      · have hfirst : (t.key, t.attempt + 1) ∈ (r.takeIn s plan t).pending := by
          simp [takeIn, hwork, collect, hretry]
        exact (suffix_foldl_takeIn_pending ts _).subset hfirst
      · exact ih ht _

theorem Run.mem_gathered_pending {live : List (Task κ β τ)} {t : Task κ β τ} (ht : t ∈ live)
    {e : String} (hwork : t.work = .ended (.error e)) (hretry : t.attempt ≤ plan.retries)
    (r : Run σ κ β τ) : (t.key, t.attempt + 1) ∈ (r.gathered s plan live).pending := by
  have hended : t ∈ live.filter fun t => !t.work.isStuck := by
    refine List.mem_filter.2 ⟨ht, ?_⟩
    rw [hwork]
    rfl
  exact mem_foldl_takeIn_pending hended hwork hretry r

/-- **An attempt that is due after the wait of a round waits after the round.** -/
theorem pending_round_of_due {f : Floor σ κ β τ} {p : κ × Nat}
    (h : (awaited s plan f).Due plan p) : p ∈ (round s plan f).pending := by
  have hidle (hlive : (handOut s plan f).live = []) : (awaited s plan f).live = [] := by
    rw [← List.length_eq_zero_iff, awaited, await_length_live, hlive, List.length_nil]
  rcases round_cases s plan f with ⟨hlive, _, hround⟩ | ⟨hlive, _, _, hround⟩ | ⟨_, hround⟩
  · rcases h with hp | ⟨t, ht, _⟩
    · rwa [hround, ← await_pending s]
    · rw [hidle hlive] at ht
      cases ht
  · rcases h with hp | ⟨t, ht, _⟩
    · rwa [hround, replace_toRun, ← await_pending s]
    · rw [hidle hlive] at ht
      cases ht
  · rw [hround, expire_pending, gather_eq]
    rcases h with hp | ⟨t, ht, e, hwork, hretry, rfl⟩
    · exact (Run.suffix_gathered_pending _ _).subset hp
    · exact Run.mem_gathered_pending ht hwork hretry _

theorem prefix_round_calls (f : Floor σ κ β τ) : f.calls <+: (round s plan f).calls := by
  rw [round_calls, handOut_eq, ← opened_calls (s := s) f]
  exact prefix_dispatch_calls _ _

/-! ### The rounds of a cancelled run -/

/-- A round of a cancelled run makes no call. -/
theorem round_of_cancelled (hs : s.StaysCancelled) {f : Floor σ κ β τ}
    (h : s.cancelled f.world = true) :
    s.cancelled (round s plan f).world = true ∧ (round s plan f).calls = f.calls := by
  have hout : handOut s plan f = opened s f := handOut_of_cancelled h
  refine ⟨hs.round ?_, ?_⟩
  · rwa [hout, opened_world]
  · rw [round_calls, hout, opened_calls]

/-- A cancelled run without calls under way is over after a round. -/
theorem round_of_idle (plan : Plan τ) {f : Floor σ κ β τ} (h : s.cancelled f.world = true)
    (hlive : f.live = []) :
    round s plan f = opened s f ∧ (round s plan f).isBusy = false := by
  have hout : handOut s plan f = opened s f := handOut_of_cancelled h
  have hpending : (opened s f).pending = [] := by
    rw [opened_of_cancelled h]
    rfl
  have hround : round s plan f = opened s f := by
    rcases round_cases s plan f with ⟨_, _, hround⟩ | ⟨_, hwaits, _⟩ | ⟨hbusy, _⟩
    · rw [hround, hout]
    · rw [hout] at hwaits
      exact absurd hpending hwaits
    · rw [hout, opened_live] at hbusy
      exact absurd hlive hbusy
  refine ⟨hround, ?_⟩
  rw [hround, Floor.isBusy, opened_live, hlive, hpending]
  rfl

/-- What is due is cancelled in a round if its key waits, and waits after it otherwise. -/
theorem due_round_of_cancelled {f : Floor σ κ β τ} (h : s.cancelled f.world = true) {p : κ × Nat}
    (hp : f.Due plan p) :
    (round s plan f).Due plan p ∨ Run.cancelledResult p.1 p.2 ∈ (round s plan f).results := by
  rcases hp with hp | ⟨t, ht, hagain⟩
  · right
    rw [round_results, opened_of_cancelled h]
    exact List.mem_append_left _ (List.mem_append_right _ (List.mem_map.2 ⟨p, hp, rfl⟩))
  · left
    refine Or.inl (pending_round_of_due (Floor.Due.await (Or.inr ⟨t, ?_, hagain⟩)))
    rwa [handOut_of_cancelled h, opened_live]

namespace Floor

theorem Reaches.prefix_calls {f g : Floor σ κ β τ} (h : f.Reaches s plan g) :
    f.calls <+: g.calls :=
  h.keeps (P := fun m => f.calls <+: m.calls) List.prefix_rfl
    fun m _ hm => hm.trans (prefix_round_calls m)

/-- **The rounds of a cancelled run make no calls.** -/
theorem Reaches.of_cancelled (hs : s.StaysCancelled) {f g : Floor σ κ β τ}
    (h : f.Reaches s plan g) (hc : s.cancelled f.world = true) :
    s.cancelled g.world = true ∧ g.calls = f.calls := by
  refine h.keeps (P := fun m => s.cancelled m.world = true ∧ m.calls = f.calls) ⟨hc, rfl⟩ ?_
  rintro m _ ⟨hm, hcalls⟩
  obtain ⟨hnext, hsame⟩ := round_of_cancelled hs hm
  exact ⟨hnext, hsame.trans hcalls⟩

/-- **What is due in a cancelled run is cancelled in its rounds**, or is still due after them. -/
theorem Reaches.due (hs : s.StaysCancelled) {f g : Floor σ κ β τ} (h : f.Reaches s plan g)
    (hc : s.cancelled f.world = true) {p : κ × Nat} (hp : f.Due plan p) :
    g.Due plan p ∨ Run.cancelledResult p.1 p.2 ∈ g.results := by
  have hkept : s.cancelled g.world = true ∧
      (g.Due plan p ∨ Run.cancelledResult p.1 p.2 ∈ g.results) := by
    refine h.keeps (P := fun m => s.cancelled m.world = true ∧
      (m.Due plan p ∨ Run.cancelledResult p.1 p.2 ∈ m.results)) ⟨hc, Or.inl hp⟩ ?_
    rintro m _ ⟨hm, hdue | hdone⟩
    · exact ⟨(round_of_cancelled hs hm).1, due_round_of_cancelled hm hdue⟩
    · exact ⟨(round_of_cancelled hs hm).1, Or.inr (results_subset_round m hdone)⟩
  exact hkept.2

/-- Every state of the rounds is followed by one between two rounds, which has made its calls. -/
theorem Passes.exists_prefix {f m : Floor σ κ β τ} (h : f.Passes s plan m) :
    ∃ n, f.Reaches s plan n ∧ m.calls <+: n.calls := by
  cases h with
  | between h => exact ⟨m, h, List.prefix_rfl⟩
  | @handing g h hbusy k hk =>
      obtain ⟨rest, hrest⟩ := Nat.exists_eq_add_of_le hk
      refine ⟨_, h.round hbusy, ?_⟩
      rw [round_calls, handOut_eq, hrest, dispatch_add]
      exact prefix_dispatch_calls _ _
  | @waiting g h hbusy _ =>
      refine ⟨_, h.round hbusy, [], ?_⟩
      rw [List.append_nil, round_calls, awaited, await_calls]
  | @gathered g h hbusy _ =>
      refine ⟨_, h.round hbusy, [], ?_⟩
      rw [List.append_nil, round_calls, gather_eq, Run.gathered_calls, awaited, await_calls]

theorem round_of_live {g : Floor σ κ β τ} (hlive : (handOut s plan g).live ≠ []) :
    round s plan g = expire s plan (gather s plan (awaited s plan g)) := by
  rcases round_cases s plan g with ⟨hidle, _⟩ | ⟨hidle, _⟩ | ⟨_, hround⟩
  · exact absurd hidle hlive
  · exact absurd hidle hlive
  · exact hround

/-- Once the run is cancelled, a round goes on to hand out fewer keys than there are workers, and
none if a call could not be handed over. -/
theorem HandsOut.length_le_of_cancelled (hworkers : 0 < plan.workers) {g : Floor σ κ β τ}
    {k rest : Nat} {taken : List (κ × Nat)} (hplaces : (opened s g).places plan = k + rest)
    (hc : s.cancelled (dispatch s k (opened s g)).world = true) (hlength : taken.length ≤ rest)
    (h : (dispatch s k (opened s g)).HandsOut (dispatch s rest (dispatch s k (opened s g))) taken) :
    (taken.length : Int) ≤
      if (dispatch s k (opened s g)).fallback then 0 else plan.workers - 1 := by
  split
  · rename_i hfallback
    have hsame := h.live
    rw [dispatch_of_fallback hfallback] at hsame
    omega
  · cases k with
    | zero =>
        -- the run was cancelled before the round, so that nothing waits
        have hwaits := h.pending
        rw [dispatch] at hc hwaits
        rw [opened_world] at hc
        rw [opened_of_cancelled hc] at hwaits
        have hnil : taken = [] := (List.append_eq_nil_iff.1 hwaits.symm).1
        rw [hnil, List.length_nil]
        omega
    | succ k =>
        have hmost : ((opened s g).places plan : Int) ≤ plan.workers := places_le (by omega) _
        omega

/-- **The calls of a round that are still made once the run is cancelled** are those that the round
has yet to hand out, without the one that is just being made; other attempts stay due. -/
theorem Passes.exists_next (hs : s.StaysCancelled) (hworkers : 0 < plan.workers)
    {f m : Floor σ κ β τ} (h : f.Passes s plan m) (hc : s.cancelled m.world = true) :
    ∃ n further, f.Reaches s plan n ∧ s.cancelled n.world = true ∧
      n.calls = m.calls ++ further ∧
      (further.length : Int) ≤ (if m.fallback then 0 else plan.workers - 1) ∧
      ∀ p, m.Due plan p → p.1 ∉ further → n.Due plan p := by
  have hnone : ((([] : List κ).length : Nat) : Int) ≤
      (if m.fallback then 0 else plan.workers - 1) := by
    simp only [List.length_nil]
    split <;> omega
  cases h with
  | between h => exact ⟨m, [], h, hc, (List.append_nil _).symm, hnone, fun _ hp _ => hp⟩
  | @waiting g h hbusy hlive =>
      refine ⟨_, [], h.round hbusy, ?_, ?_, hnone, fun p hp _ => Or.inl (pending_round_of_due hp)⟩
      · rwa [round_of_live hlive, expire_world, gather_eq, Run.gathered_world]
      · rw [round_calls, awaited, await_calls, List.append_nil]
  | @gathered g h hbusy hlive =>
      refine ⟨_, [], h.round hbusy, ?_, ?_, hnone, ?_⟩
      · rwa [round_of_live hlive, expire_world]
      · rw [round_of_live hlive, expire_calls, List.append_nil]
      · rintro p (hp | ⟨t, ht, e, hwork, _⟩) _
        · left
          rwa [round_of_live hlive, expire_pending]
        · -- no call that has ended is left after those have been taken in
          rw [gather_eq] at ht
          have hstuck := (List.mem_filter.1 ht).2
          rw [hwork] at hstuck
          cases hstuck
  | @handing g h hbusy k hk =>
      obtain ⟨rest, hrest⟩ := Nat.exists_eq_add_of_le hk
      have hout : handOut s plan g = dispatch s rest (dispatch s k (opened s g)) := by
        rw [handOut_eq, hrest, dispatch_add]
      obtain ⟨taken, hlength, htaken, _⟩ := exists_handsOut s rest (dispatch s k (opened s g))
      have hfew := htaken.length_le_of_cancelled hworkers hrest hc hlength
      rw [← hout] at htaken
      refine ⟨_, taken.map Prod.fst, h.round hbusy, ?_, ?_, ?_, ?_⟩
      · refine hs.round ?_
        rw [hout]
        exact hs.dispatch hc rest
      · rw [round_calls, htaken.calls]
      · rwa [List.length_map]
      · rintro p hp hother
        refine Or.inl (pending_round_of_due (Floor.Due.await ?_))
        rcases hp with hp | ⟨t, ht, e, hwork, hagain⟩
        · rw [htaken.pending] at hp
          rcases List.mem_append.1 hp with hp | hp
          · exact absurd (List.mem_map_of_mem hp) hother
          · exact Or.inl hp
        · refine Or.inr ⟨t, ?_, e, hwork, hagain⟩
          rw [hout]
          exact mem_live_dispatch ht hwork rest

end Floor

theorem rounds_of_idle {f : Floor σ κ β τ} (h : f.isBusy = false) (bound : Nat) :
    rounds s plan bound f = some f := by
  cases bound with
  | zero => simp only [rounds, h, Bool.false_eq_true, if_false]
  | succ bound => simp only [rounds, h, Bool.false_eq_true, if_false]

/-! ### Without workers -/

/-- Without workers a cancelled run ends at once. -/
theorem sequential_of_stopped {r : Run σ κ β τ} (h : s.cancelled r.world = true) :
    sequential s plan r = some r.cancelAll := by
  cases hpending : r.pending with
  | nil =>
      have hnone : r.cancelAll = r := by
        rw [Run.cancelAll, hpending, List.map_nil, List.append_nil, ← hpending]
      rw [sequential_of_nil s plan hpending, hnone]
  | cons p rest => exact sequential_of_cancelled s plan hpending h

theorem Run.collectInline_calls (r : Run σ κ β τ) (key : κ) (attempt : Nat) (elapsed : τ)
    (outcome : Except String β) :
    (r.collectInline s plan key attempt elapsed outcome).calls = r.calls := by
  unfold collectInline
  split
  · split
    · rfl
    · exact collect_calls ..
  · exact collect_calls ..

theorem Run.Passes.prefix_calls {r q : Run σ κ β τ} (h : r.Passes s plan q) :
    r.calls <+: q.calls := by
  induction h with
  | start => exact List.prefix_rfl
  | call _ _ _ _ ih =>
      rw [collectInline_calls]
      exact ih.trans (List.prefix_append _ _)

theorem Run.Passes.eq_of_cancelled {r q : Run σ κ β τ} (h : r.Passes s plan q)
    (hc : s.cancelled r.world = true) : q = r := by
  induction h with
  | start => rfl
  | call _ _ hcancel _ ih =>
      rw [ih, hc] at hcancel
      cases hcancel

/-! ### A whole run -/

section

variable {bound : Nat} {keys : List κ} {world : σ}

/-- No moment of a run has more calls than a state between two rounds in which it is cancelled. -/
theorem Moment.prefix_calls_of_reaches (hs : s.StaysCancelled) (hworkers : 0 < plan.workers)
    (hcreate : s.canCreate 1 = true) {n : Floor σ κ β τ}
    (hn : (Floor.begun keys world).Reaches s plan n) (hc : s.cancelled n.world = true)
    {inline : Bool} {m : Run σ κ β τ} (h : Moment s plan bound keys world inline m) :
    m.calls <+: n.calls := by
  cases h with
  | onWorkers _ _ hm =>
      obtain ⟨k, hk, hcalls⟩ := hm.exists_prefix
      refine hcalls.trans ?_
      rcases hn.total hk with hlater | hearlier
      · exact (hlater.of_cancelled hs hc).2 ▸ List.prefix_rfl
      · exact hearlier.prefix_calls
  | @inline g _ hg hm =>
      rw [Floor.onWorkers_start hworkers hcreate] at hg
      obtain ⟨b, hb⟩ := hn.rounds hg
      obtain ⟨hstop, hcalls⟩ := (Floor.reaches_of_rounds hb).of_cancelled hs hc
      rw [hm.eq_of_cancelled hstop]
      exact hcalls ▸ List.prefix_rfl

/-- No moment of a run has more calls than one without workers in which it is cancelled. -/
theorem Moment.prefix_calls_of_inline {r : Run σ κ β τ}
    (hr : Moment s plan bound keys world true r) (hc : s.cancelled r.world = true)
    {inline : Bool} {m : Run σ κ β τ} (h : Moment s plan bound keys world inline m) :
    m.calls <+: r.calls := by
  cases hr with
  | @inline g _ hg hr =>
      cases h with
      | onWorkers hworkers hcreate hm =>
          rw [Floor.onWorkers_start hworkers hcreate] at hg
          obtain ⟨k, hk, hcalls⟩ := hm.exists_prefix
          obtain ⟨b, hb⟩ := hk.rounds hg
          exact (hcalls.trans (Floor.reaches_of_rounds hb).prefix_calls).trans hr.prefix_calls
      | inline hg' hm =>
          rw [hg] at hg'
          cases hg'
          rcases hr.total hm with hlater | hearlier
          · exact hlater.eq_of_cancelled hc ▸ List.prefix_rfl
          · exact hearlier.prefix_calls

/-- The end of a run that is cancelled between two rounds. -/
theorem complete_of_reaches (hs : s.StaysCancelled) (hworkers : 0 < plan.workers)
    (hcreate : s.canCreate 1 = true) {n : Floor σ κ β τ}
    (hn : (Floor.begun keys world).Reaches s plan n) (hc : s.cancelled n.world = true)
    {e : Floor σ κ β τ} (h : complete s plan bound (Floor.start keys world) = some e) :
    e.calls = n.calls ∧ ∀ p, n.Due plan p → Run.cancelledResult p.1 p.2 ∈ e.results := by
  obtain ⟨g, r, hg, hr, rfl⟩ := exists_of_complete h
  rw [Floor.onWorkers_start hworkers hcreate] at hg
  obtain ⟨b, hb⟩ := hn.rounds hg
  have hreaches := Floor.reaches_of_rounds hb
  obtain ⟨hstop, hcalls⟩ := hreaches.of_cancelled hs hc
  rw [sequential_of_stopped hstop] at hr
  cases hr
  refine ⟨hcalls, fun p hp => ?_⟩
  rcases hreaches.due hs hc hp with hdue | hdone
  · rcases hdue with hpending | ⟨t, ht, _⟩
    · exact List.mem_append_right _ (List.mem_map.2 ⟨p, hpending, rfl⟩)
    · rw [rounds_live s plan hb] at ht
      cases ht
  · exact List.mem_append_left _ hdone

/-- The end of a run that is cancelled while it does without workers. -/
theorem complete_of_inline {r : Run σ κ β τ} (hr : Moment s plan bound keys world true r)
    (hc : s.cancelled r.world = true) {e : Floor σ κ β τ}
    (h : complete s plan bound (Floor.start keys world) = some e) : e.toRun = r.cancelAll := by
  obtain ⟨g, q, hg, hq, rfl⟩ := exists_of_complete h
  rw [((moment_inline_iff hg).1 hr).sequential, sequential_of_stopped hc] at hq
  cases hq
  rfl

/-- A run that is cancelled before it begins ends at once, with all keys cancelled. -/
theorem complete_of_cancelled (plan : Plan τ) (keys : List κ) (hc : s.cancelled world = true)
    (hbound : 0 < bound) :
    ∃ e : Floor σ κ β τ, complete s plan bound (Floor.start keys world) = some e ∧
      e.toRun = (Floor.start keys world).toRun.cancelAll := by
  have honWorkers : ∃ g : Floor σ κ β τ,
      (Floor.start keys world).onWorkers s plan bound = some g ∧ s.cancelled g.world = true ∧
        g.toRun.cancelAll = (Floor.start keys world).toRun.cancelAll := by
    unfold Floor.onWorkers
    split
    · exact ⟨_, rfl, hc, rfl⟩
    · split
      · obtain ⟨b, rfl⟩ : ∃ b, bound = b + 1 := ⟨bound - 1, by omega⟩
        rw [rounds]
        split
        · -- all keys are cancelled in the first round, which is then the last
          obtain ⟨hround, hidle⟩ := round_of_idle plan
            (f := { Floor.start keys world with created := 1 }) hc rfl
          refine ⟨_, rounds_of_idle hidle b, ?_, ?_⟩
          · rwa [hround, opened_world]
          · rw [hround, opened_of_cancelled hc]
            simp [Run.cancelAll]
        · exact ⟨_, rfl, hc, rfl⟩
      · exact ⟨_, rfl, hc, rfl⟩
  obtain ⟨g, hg, hstop, hsame⟩ := honWorkers
  refine ⟨{ g with toRun := g.toRun.cancelAll }, ?_, hsame⟩
  rw [complete_eq, hg, Option.bind_some, Floor.withoutWorkers, sequential_of_stopped hstop]
  rfl

/-- The attempts of the results of a run are the calls of their keys. -/
theorem complete_countP_calls [BEq κ] [EquivBEq κ] (hd : Distinct keys) {e : Floor σ κ β τ}
    (h : complete s plan bound (Floor.start keys world) = some e) {x : Result κ β τ}
    (hx : x ∈ e.results) : e.calls.countP (· == x.key) = x.attempts := by
  obtain ⟨hbalanced, hdone⟩ := complete_balanced h
  have hkeys : Distinct (([] : List (κ × Nat)).map Prod.fst ++ e.toRun.entrusted) := by
    rw [List.map_nil, List.nil_append, Run.entrusted, hdone, List.map_nil, List.append_nil]
    exact hd.of_perm (complete_keys h)
  refine hbalanced.countP_calls hkeys (p := (x.key, x.attempts)) ?_
  exact List.mem_append_right _ (List.mem_append_left _ (List.mem_map_of_mem hx))

end

/-- **A cancelled run makes no further calls.**  Let nothing take back that a run for distinct keys
was cancelled; whatever else the work function does, whichever workers can be had and whichever
calls can be handed over: * a run that is cancelled before it begins returns, with no call and every
key cancelled before its first attempt; * if it is cancelled at a moment on workers, then at no
moment more calls have been made than those so far and one less than keys may be worked on at once,
or none more if what is left has to be worked through without workers; when the run returns, every
key with a further attempt due, also after a failure, is cancelled before this attempt unless it is
among those few calls; * if it is cancelled at a moment without workers, then no more calls are
made, and every key that waits is cancelled; * when the run returns there is one result for each
key, and the attempts of those that were cancelled are the calls that were made for them. -/
theorem run_stops_when_cancelled [BEq κ] [EquivBEq κ] (s : Surroundings σ κ β τ)
    (hs : s.StaysCancelled) (plan : Plan τ) (bound : Nat) (keys : List κ) (hd : Distinct keys)
    (world : σ) :
    (s.cancelled world = true → 0 < bound →
      ∃ fin, run s plan bound keys world = some fin ∧ fin.calls = [] ∧
        fin.results = keys.map fun k => Run.cancelledResult k 1) ∧
    (0 < plan.workers → s.canCreate 1 = true →
      ∀ f : Floor σ κ β τ, (Floor.begun keys world).Passes s plan f → s.cancelled f.world = true →
        ∃ further, (further.length : Int) ≤ (if f.fallback then 0 else plan.workers - 1) ∧
          (∀ inline m, Moment s plan bound keys world inline m → m.calls <+: f.calls ++ further) ∧
          ∀ fin, run s plan bound keys world = some fin →
            fin.calls = f.calls ++ further ∧
            ∀ p, f.Due plan p → p.1 ∉ further → Run.cancelledResult p.1 p.2 ∈ fin.results) ∧
    (∀ r : Run σ κ β τ, Moment s plan bound keys world true r → s.cancelled r.world = true →
      (∀ inline m, Moment s plan bound keys world inline m → m.calls <+: r.calls) ∧
      ∀ fin, run s plan bound keys world = some fin →
        fin.calls = r.calls ∧ ∀ p ∈ r.pending, Run.cancelledResult p.1 p.2 ∈ fin.results) ∧
    ∀ fin, run s plan bound keys world = some fin →
      (fin.results.map Result.key).Perm keys ∧
      ∀ x ∈ fin.results, x.status = .cancelled → x.attempts = fin.calls.countP (· == x.key) := by
  refine ⟨?_, ?_, ?_, ?_⟩
  · intro hc hbound
    obtain ⟨e, he, hend⟩ := complete_of_cancelled plan keys hc hbound
    have hresults : e.results = keys.map fun k => Run.cancelledResult k 1 := by
      simp [hend, Floor.start, Run.cancelAll, Function.comp_def]
    have hkeys : e.results.map Result.key = keys := by
      rw [hresults, List.map_map]
      exact List.map_id keys
    refine ⟨e.finished keys, by rw [run, he]; rfl, by rw [Floor.finished, hend]; rfl, ?_⟩
    calc (e.finished keys).results
        = (e.results.map Result.key).filterMap (resultOf? e.results) := by
          rw [Floor.finished, hd.eraseDups, hkeys]
      _ = e.results := filterMap_resultOf?_self (hkeys.symm ▸ hd)
      _ = keys.map fun k => Run.cancelledResult k 1 := hresults
  · intro hworkers hcreate f hf hc
    obtain ⟨n, further, hn, hstop, hcalls, hlength, hdue⟩ := hf.exists_next hs hworkers hc
    refine ⟨further, hlength, ?_, ?_⟩
    · intro inline m hm
      rw [← hcalls]
      exact hm.prefix_calls_of_reaches hs hworkers hcreate hn hstop
    · intro fin hfin
      obtain ⟨e, he, rfl⟩ := Option.map_eq_some_iff.1 hfin
      obtain ⟨hsame, hdone⟩ := complete_of_reaches hs hworkers hcreate hn hstop he
      refine ⟨hsame.trans hcalls, fun p hp hother => ?_⟩
      exact (finished_results_perm hd he).mem_iff.2 (hdone p (hdue p hp hother))
  · intro r hr hc
    refine ⟨fun inline m hm => hr.prefix_calls_of_inline hc hm, fun fin hfin => ?_⟩
    obtain ⟨e, he, rfl⟩ := Option.map_eq_some_iff.1 hfin
    have hend := complete_of_inline hr hc he
    refine ⟨by rw [Floor.finished, hend]; rfl, fun p hp => ?_⟩
    rw [(finished_results_perm hd he).mem_iff, hend]
    exact List.mem_append_right _ (List.mem_map.2 ⟨p, hp, rfl⟩)
  · intro fin hfin
    obtain ⟨e, he, rfl⟩ := Option.map_eq_some_iff.1 hfin
    have hresults := finished_results_perm hd he
    refine ⟨(hresults.map _).trans (complete_keys he), fun x hx _ => ?_⟩
    exact (complete_countP_calls hd he (hresults.mem_iff.1 hx)).symm

/-- Work in which a call for one key cancels the run, and a call for another one fails; the world is
whether the run was cancelled. -/
def cancelsMidway : Surroundings Bool String Nat Float where
  now _ := 0.0
  pause w := w
  cancelled w := w
  call key w :=
    match key with
    | "bell" => (.ended (.ok 1), true)
    | "flaky" => (.ended (.error "not yet"), w)
    | _ => (.ended (.ok 2), w)
  late key := key ++ " is late"

theorem alarm_staysCancelled : cancelsMidway.StaysCancelled where
  call key w hw := by
    simp only [cancelsMidway] at hw ⊢
    split
    · rfl
    · exact hw
    · exact hw
  pause _ hw := hw

/-- Two keys are worked on at once, and the first call cancels the run: the other one of its round
is still made and fails, but is not made again, and the third key is never called for. -/
theorem cancelsMidway_stops_when_cancelled :
    cancelsMidway.StaysCancelled ∧ Distinct ["bell", "flaky", "late"] ∧
      ∃ fin further,
        run cancelsMidway { workers := 2, retries := 1 } 9 ["bell", "flaky", "late"] false =
          some fin ∧
        fin.calls = ["bell"] ++ further ∧ further = ["flaky"] ∧
        (further.length : Int) ≤ 2 - 1 ∧
        fin.results.map (fun x => (x.key, x.status, x.attempts)) =
          [("bell", .completed, 1), ("flaky", .cancelled, 1), ("late", .cancelled, 0)] ∧
        Run.cancelledResult "late" 1 ∈ fin.results := by
  have hd : Distinct ["bell", "flaky", "late"] := by
    unfold Distinct
    decide
  have h : (run cancelsMidway { workers := 2, retries := 1 } 9 ["bell", "flaky", "late"] false).map
      (fun fin => (fin.calls, fin.results.map fun x => (x.key, x.status, x.attempts))) =
      some (["bell", "flaky"],
        [("bell", .completed, 1), ("flaky", .cancelled, 1), ("late", .cancelled, 0)]) := by
    decide +kernel
  obtain ⟨fin, hfin, hfacts⟩ := Option.map_eq_some_iff.1 h
  obtain ⟨hcalls, hresults⟩ := Prod.mk.inj hfacts
  obtain ⟨_, honWorkers, _⟩ := run_stops_when_cancelled cancelsMidway alarm_staysCancelled
    { workers := 2, retries := 1 } 9 ["bell", "flaky", "late"] hd false
  obtain ⟨further, hlength, _, hend⟩ := honWorkers (by decide) rfl _
    (.handing .start rfl (n := 1) (by decide)) rfl
  obtain ⟨hsplit, hdue⟩ := hend fin hfin
  have hfurther : "bell" :: ["flaky"] = "bell" :: further := hcalls.symm.trans hsplit
  obtain rfl : further = ["flaky"] := (List.cons.inj hfurther).2.symm
  refine ⟨alarm_staysCancelled, hd, fin, _, hfin, hsplit, rfl, hlength, hresults, ?_⟩
  exact hdue ("late", 1) (Or.inl (by decide)) (by decide)

end PhpAudit.WorkPool
