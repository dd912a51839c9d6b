/-
Working on several keys at once.

There are twice as many workers as keys that are worked on at once, so that a call which took too
long can be left behind without slowing the others down.  When every worker is held by such a call,
a new group of workers is made.  If that is not possible, or a call cannot be handed over, what is
left is worked through one after another.

One round cancels, hands out, waits, collects and leaves behind, in this order.  Rounds go on while
a key is being worked on or still waits for a worker; their number is bounded from outside.

* `WorkPool.Task`, `WorkPool.Floor` — calls under way, and the whole state;
* `WorkPool.dispatch`, `WorkPool.await`, `WorkPool.gather`, `WorkPool.expire`, `WorkPool.replace` —
  the steps;
* `WorkPool.round`, `WorkPool.rounds` — one round, and all of them.
-/

import PhpAudit.WorkPool.Basic

set_option autoImplicit false

namespace PhpAudit.WorkPool

variable {σ κ β τ : Type}

/-- A call under way. -/
structure Task (κ β τ : Type) where
  key : κ
  attempt : Nat
  started : τ
  work : Work β

/-- The call after a further one is started, or after a wait. -/
def Task.tick (beat : Beat) (t : Task κ β τ) : Task κ β τ :=
  { t with work := t.work.tick beat }

/-- The state of a run on workers. -/
structure Floor (σ κ β τ : Type) extends Run σ κ β τ where
  /-- Calls under way, in the order in which they were handed out. -/
  live : List (Task κ β τ) := []
  /-- Calls that were left behind and hold a worker of the present group. -/
  held : List (Work β) := []
  /-- How many groups of workers were asked for. -/
  created : Nat := 0
  /-- How many calls were handed out, failures included. -/
  submitted : Nat := 0
  /-- How many calls were left behind. -/
  abandoned : Nat := 0
  /-- How often a new group of workers was made. -/
  replaced : Nat := 0
  /-- Whether what is left has to be worked through without workers. -/
  fallback : Bool := false

namespace Floor

/-- Whether another round is due. -/
def isBusy (f : Floor σ κ β τ) : Bool :=
  !f.live.isEmpty || (!f.pending.isEmpty && !f.fallback)

/-- How many calls can be handed out now. -/
def places (plan : Plan τ) (f : Floor σ κ β τ) : Nat :=
  let free := plan.staff - (f.held.length : Int)
  (min plan.workers free - (f.live.length : Int)).toNat

end Floor

/-- Hands out one key: stuck calls hear of it first, then the call is made. -/
def submit (s : Surroundings σ κ β τ) (f : Floor σ κ β τ) (key : κ) (attempt : Nat)
    (rest : List (κ × Nat)) : Floor σ κ β τ :=
  let (work, world) := s.call key f.world
  { f with
    world
    pending := rest
    calls := f.calls ++ [key]
    submitted := f.submitted + 1
    live := f.live.map (Task.tick .start) ++ [{ key, attempt, started := s.now f.world, work }]
    held := f.held.map (Work.tick .start) }

/-- Hands out keys as long as there are places. -/
def dispatch (s : Surroundings σ κ β τ) : Nat → Floor σ κ β τ → Floor σ κ β τ
  | 0, f => f
  | places + 1, f =>
    match f.pending with
    | [] => f
    | (key, attempt) :: rest =>
      if f.fallback then f
      else if s.canSubmit (f.submitted + 1) then
        dispatch s places (submit s f key attempt rest)
      else { f with submitted := f.submitted + 1, fallback := true }

/-- Makes a new group of workers, if it can be made. -/
def replace (s : Surroundings σ κ β τ) (f : Floor σ κ β τ) : Floor σ κ β τ :=
  if s.canCreate (f.created + 1) then
    { f with created := f.created + 1, replaced := f.replaced + 1, held := [] }
  else { f with created := f.created + 1, fallback := true, held := [] }

/-- Waits if no call has ended. -/
def await (s : Surroundings σ κ β τ) (f : Floor σ κ β τ) : Floor σ κ β τ :=
  if f.live.all fun t => t.work.isStuck then
    { f with
      world := s.pause f.world
      live := f.live.map (Task.tick .pause)
      held := f.held.map (Work.tick .pause) }
  else f

/-- Takes in the end of one call. -/
def gatherOne [Timeline τ] (s : Surroundings σ κ β τ) (plan : Plan τ) (f : Floor σ κ β τ)
    (t : Task κ β τ) : Floor σ κ β τ :=
  match t.work with
  | .ended outcome =>
    let elapsed := Timeline.since (s.now f.world) t.started
    { f with toRun := f.toRun.collect plan t.key t.attempt elapsed outcome }
  | .stuck _ _ => f

/-- Takes in every call that has ended. -/
def gather [Timeline τ] (s : Surroundings σ κ β τ) (plan : Plan τ) (f : Floor σ κ β τ) :
    Floor σ κ β τ :=
  (f.live.filter fun t => !t.work.isStuck).foldl (gatherOne s plan)
    { f with live := f.live.filter fun t => t.work.isStuck }

/-- The result of a call that is left behind. -/
def expiredResult [Timeline τ] (s : Surroundings σ κ β τ) (now : τ) (t : Task κ β τ) :
    Result κ β τ :=
  { key := t.key, status := .timedOut, error := s.late t.key
    time := Timeline.since now t.started, attempts := t.attempt }

/-- Leaves behind the calls that took too long. -/
def expire [Timeline τ] (s : Surroundings σ κ β τ) (plan : Plan τ) (f : Floor σ κ β τ) :
    Floor σ κ β τ :=
  match plan.timeout with
  | none => f
  | some limit =>
    let now := s.now f.world
    let isLate (t : Task κ β τ) : Bool := Timeline.exceeds (Timeline.since now t.started) limit
    let gone := f.live.filter isLate
    { f with
      live := f.live.filter fun t => !isLate t
      held := f.held ++ gone.map Task.work
      abandoned := f.abandoned + gone.length
      results := f.results ++ gone.map (expiredResult s now) }

/-- The start of a round: keys that wait are cancelled if the run is, workers that were held by
calls which have ended meanwhile are free again, and keys are handed out. -/
def handOut [Timeline τ] (s : Surroundings σ κ β τ) (plan : Plan τ) (f : Floor σ κ β τ) :
    Floor σ κ β τ :=
  let checked := if s.cancelled f.world then { f with toRun := f.toRun.cancelAll } else f
  let freed := { checked with held := checked.held.filter Work.isStuck }
  dispatch s (freed.places plan) freed

/-- One round. -/
def round [Timeline τ] (s : Surroundings σ κ β τ) (plan : Plan τ) (f : Floor σ κ β τ) :
    Floor σ κ β τ :=
  let out := handOut s plan f
  if out.live.isEmpty then
    if out.pending.isEmpty || out.fallback then out else replace s out
  else expire s plan (gather s plan (await s out))

/-- Rounds until none is due.  There is no result if so many rounds are not enough. -/
def rounds [Timeline τ] (s : Surroundings σ κ β τ) (plan : Plan τ) :
    Nat → Floor σ κ β τ → Option (Floor σ κ β τ)
  | 0, f => if f.isBusy then none else some f
  | bound + 1, f => if f.isBusy then rounds s plan bound (round s plan f) else some f

end PhpAudit.WorkPool
