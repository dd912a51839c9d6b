/-
Working through the keys one after another.

There is no way to interrupt a call here: one that took too long is let finish, and its value is
dropped.  A call that no wait brings to its end holds up everything, and then there is no end.
-/

import PhpAudit.WorkPool.Basic

set_option autoImplicit false

namespace PhpAudit.WorkPool

variable {σ κ β τ : Type}

/-- So many waits, one after another. -/
def Surroundings.waits (s : Surroundings σ κ β τ) : Nat → σ → σ
  | 0, world => world
  | n + 1, world => s.waits n (s.pause world)

/-- A call without workers.  A stuck one is waited for as long as it takes; there is no result if no
wait brings it to its end. -/
def Surroundings.callInline (s : Surroundings σ κ β τ) (key : κ) (world : σ) :
    Option (Except String β × σ) :=
  match s.call key world with
  | (.ended outcome, world) => some (outcome, world)
  | (.stuck stay later, world) =>
    stay.pauses.map fun others => (later, s.waits (others + 1) world)

/-- The attempts that can still be made for the keys that wait, and one for each key. -/
def weight (retries : Nat) : List (κ × Nat) → Nat
  | [] => 0
  | p :: rest => (retries + 2 - p.2) + 1 + weight retries rest

/-- The end of a call that could not be interrupted: a value that came too late is dropped. -/
def Run.collectInline [Timeline τ] (s : Surroundings σ κ β τ) (plan : Plan τ) (r : Run σ κ β τ)
    (key : κ) (attempt : Nat) (elapsed : τ) (outcome : Except String β) : Run σ κ β τ :=
  match outcome, plan.timeout with
  | .ok _, some limit =>
    if Timeline.exceeds elapsed limit then
      r.finish
        { key, status := .timedOut, error := s.late key, time := elapsed, attempts := attempt }
    else r.collect plan key attempt elapsed outcome
  | _, _ => r.collect plan key attempt elapsed outcome

/-- Taking in the end of a call leaves fewer attempts than there were with the key in front. -/
theorem Run.weight_collectInline_lt [Timeline τ] (s : Surroundings σ κ β τ) (plan : Plan τ)
    (r : Run σ κ β τ) (key : κ) (attempt : Nat) (elapsed : τ) (outcome : Except String β) :
    weight plan.retries (r.collectInline s plan key attempt elapsed outcome).pending <
      weight plan.retries ((key, attempt) :: r.pending) := by
  unfold collectInline collect finish
  split
  · split <;> simp only [weight] <;> omega
  · split
    · simp only [weight]
      omega
    · split
      · simp only [weight]
        omega
      · simp only [weight]
        omega

/-- Works through the keys that wait.  There is no result if a call does not end. -/
def sequential [Timeline τ] (s : Surroundings σ κ β τ) (plan : Plan τ) (r : Run σ κ β τ) :
    Option (Run σ κ β τ) :=
  match _h : r.pending with
  | [] => some r
  | (key, attempt) :: rest =>
    if s.cancelled r.world then some r.cancelAll
    else
      match s.callInline key r.world with
      | none => none
      | some (outcome, world) =>
        let called : Run σ κ β τ :=
          { r with world, pending := rest, calls := r.calls ++ [key] }
        let elapsed := Timeline.since (s.now world) (s.now r.world)
        sequential s plan (called.collectInline s plan key attempt elapsed outcome)
termination_by weight plan.retries r.pending
decreasing_by
  rw [_h]
  exact Run.weight_collectInline_lt s plan called key attempt elapsed outcome

end PhpAudit.WorkPool
