/-
A pool of workers that runs one piece of work for every key.

What a piece of work does, how the clock moves, whether somebody cancels the run and whether new
workers can be had is given from outside.  A call of the work function may come to an end at once
or get stuck, and a stuck call may come to an end when later calls are made or while the pool waits.
-/

import PhpAudit.Decimal.Round
import PhpAudit.Timeline

set_option autoImplicit false

namespace PhpAudit.WorkPool

/-! ### What is given -/

/-- What can bring a stuck call to its end: a further call is started, or the pool waits. -/
inductive Beat where
  | start
  | pause

/-- How long a stuck call stays under way: it ends with the call or with the wait that comes after
so many others, if ever. -/
structure Stay where
  starts : Option Nat := none
  pauses : Option Nat := none

/-- What is left of a count, or nothing if it has run out. -/
def Stay.less? : Option Nat → Option (Option Nat)
  | none => some none
  | some 0 => none
  | some (n + 1) => some (some n)

/-- What is left of a stay, or nothing if the call ends. -/
def Stay.after? (beat : Beat) (stay : Stay) : Option Stay :=
  match beat with
  | .start => (less? stay.starts).map fun starts => { stay with starts }
  | .pause => (less? stay.pauses).map fun pauses => { stay with pauses }

/-- A call of the work function: ended, with a value or with an error, or stuck. -/
inductive Work (β : Type) where
  | ended (outcome : Except String β)
  | stuck (stay : Stay) (later : Except String β)

/-- Whether a call is stuck. -/
def Work.isStuck {β : Type} : Work β → Bool
  | .ended _ => false
  | .stuck _ _ => true

/-- The call after a further one is started, or after a wait. -/
def Work.tick {β : Type} (beat : Beat) : Work β → Work β
  | .ended outcome => .ended outcome
  | .stuck stay later =>
    match stay.after? beat with
    | some stay => .stuck stay later
    | none => .ended later

/-- What surrounds a run: states `σ`, keys `κ`, values `β` and moments `τ`. -/
structure Surroundings (σ κ β τ : Type) where
  /-- The moment on the clock. -/
  now : σ → τ
  /-- A wait of the pool. -/
  pause : σ → σ
  /-- Whether the run was cancelled. -/
  cancelled : σ → Bool
  /-- A call of the work function for a key. -/
  call : κ → σ → Work β × σ
  /-- Whether the group of workers of a number can be made. -/
  canCreate : Nat → Bool := fun _ => true
  /-- Whether the call of a number can be handed to the workers. -/
  canSubmit : Nat → Bool := fun _ => true
  /-- What is said about a key that took too long. -/
  late : κ → String

/-- How many keys are worked on at once, how many workers there are for them, how long each key may
take, and how often a failed one is tried again. -/
structure Plan (τ : Type) where
  workers : Int
  staff : Int := workers * 2
  timeout : Option τ := none
  retries : Nat := 0

/-! ### What comes of it -/

/-- How a key ended. -/
inductive Status where
  | completed
  | failed
  | timedOut
  | cancelled
  deriving DecidableEq

/-- The word for a status. -/
def Status.name : Status → String
  | completed => "completed"
  | failed => "failed"
  | timedOut => "timeout"
  | cancelled => "cancelled"

/-- What became of a key. -/
structure Result (κ β τ : Type) where
  key : κ
  status : Status
  value : Option β := none
  error : String := ""
  time : τ
  attempts : Nat

/-- Whether the work for the key was done. -/
def Result.succeeded {κ β τ : Type} (r : Result κ β τ) : Bool :=
  r.status == .completed

/-! ### The state -/

/-- Keys that wait with the number of their next attempt, results in the order in which they came,
and the calls made. -/
structure Run (σ κ β τ : Type) where
  world : σ
  pending : List (κ × Nat)
  results : List (Result κ β τ) := []
  retries : Nat := 0
  calls : List κ := []

namespace Run

variable {σ κ β τ : Type}

/-- One more result. -/
def finish (r : Run σ κ β τ) (x : Result κ β τ) : Run σ κ β τ :=
  { r with results := r.results ++ [x] }

/-- Takes in the end of a call: a failed key goes back to the front of those that wait as long as
it may be tried again. -/
def collect (plan : Plan τ) (r : Run σ κ β τ) (key : κ) (attempt : Nat) (elapsed : τ) :
    Except String β → Run σ κ β τ
  | .ok v =>
    r.finish { key, status := .completed, value := some v, time := elapsed, attempts := attempt }
  | .error e =>
    if attempt ≤ plan.retries then
      { r with retries := r.retries + 1, pending := (key, attempt + 1) :: r.pending }
    else
      r.finish { key, status := .failed, error := e, time := elapsed, attempts := attempt }

/-- The result of a key that was cancelled before its next attempt. -/
def cancelledResult [Timeline τ] (key : κ) (attempt : Nat) : Result κ β τ :=
  { key, status := .cancelled, error := "Cancelled before start", time := Timeline.zero
    attempts := attempt - 1 }

/-- Cancels every key that waits. -/
def cancelAll [Timeline τ] (r : Run σ κ β τ) : Run σ κ β τ :=
  { r with
    pending := []
    results := r.results ++ r.pending.map fun p => cancelledResult p.1 p.2 }

end Run

end PhpAudit.WorkPool
