/-
Described work for a pool.

Each key has a script that says, call by call, what the work function does: how much time passes,
whether the run is cancelled, and whether the call returns, fails or gets stuck.
-/

import PhpAudit.Script.Analyzers
import PhpAudit.WorkPool.Run

set_option autoImplicit false

namespace PhpAudit.Script

/-- The clock, the mark of cancellation, and the keys for which calls were made. -/
structure WorkState where
  now : Float := 0.0
  cancelled : Bool := false
  called : List Key := []

/-- The keys of described tasks with their scripts. -/
def tasks (spec : Value) : Except Misuse (List (Key × Value)) :=
  (items (field spec "tasks")).mapM fun t => do
    return (← (← t.entry "key").toKey, ← t.entry "script")

/-- The step of a script for a call; the last one repeats. -/
def scriptStep? (script : Value) (earlier : Nat) : Option Value :=
  ((items script)[earlier]?).orElse fun _ => (items script).getLast?

/-- What a step does: a call that returns, fails or gets stuck. -/
def work (step : Value) : WorkPool.Work Value :=
  if boolOr step "hang" false then
    .stuck { starts := (field step "release").int?.map fun n => n.toNat - 1 } (.ok .null)
  else
    match step.field? "raise" with
    | some message => .ended (.error message.plain)
    | none => .ended (.ok (field step "ret"))

/-- A call for a key.  A key that stands for several tasks has the script of the last. -/
def call (scripts : Assoc Key Value) (key : Key) (w : WorkState) :
    WorkPool.Work Value × WorkState :=
  let earlier := (w.called.filter (· == key)).length
  match scriptStep? (Assoc.getD scripts key .null) earlier with
  | none => (.ended (.error Misuse.noItem.message), w)
  | some step =>
    let called := { w with called := w.called ++ [key] }
    match seconds (fieldOr step "advance" (.int 0)) with
    | .error m => (.ended (.error m.message), called)
    | .ok s =>
      (work step,
       { called with
         now := w.now + s
         cancelled := w.cancelled || boolOr step "cancel" false })

/-- Whether a number is not in a list. -/
def isAbsent (numbers : Value) (n : Nat) : Bool :=
  !(items numbers).any (Value.eqv (.nat n))

/-- The surroundings of a pool that works through described tasks. -/
def surroundings (spec : Value) (given : List (Key × Value)) :
    WorkPool.Surroundings WorkState Key Value Float :=
  let poll := (numberOr spec "poll" (.float 0.05)).nearFloat
  let timeout := (numberOr spec "timeout" (.int 0)).nearFloat
  { now := WorkState.now
    pause := fun w => { w with now := w.now + poll }
    cancelled := fun w => boolOr spec "cancellable" true && w.cancelled
    call := call (Assoc.ofList given)
    canCreate := isAbsent (field spec "fail_create")
    canSubmit := isAbsent (field spec "fail_submit")
    late := fun key => WorkPool.lateMessage key.plain timeout }

/-- The least whole number that is not below a number. -/
def ceiling : Number → Int
  | .int n => n
  | .float x => Decimal.truncate x.ceil

/-- The plan of a description.  Of workers there may be a broken number: so many keys are worked on
at once that the next would exceed it. -/
def plan (spec : Value) : Except Misuse (WorkPool.Plan Float) := do
  let retries := fieldOr spec "retries" (.int 0)
  let workers := fieldOr spec "workers" (.int 4)
  let more ← retries.greater (.int 0)
  let _ ← workers.atMost (.int 0)
  let count := workers.number?.getD (.int 0)
  let double := (Number.mul? count (.int 2)).getD count
  let repeats := (retries.number?.getD (.int 0)).negated
  return {
    workers := ceiling count
    staff := ceiling double
    timeout := (field spec "timeout").number?.map Number.nearFloat
    retries := if more then (-(ceiling repeats)).toNat else 0 }

/-- Whether a script has a step that gets stuck. -/
def canHang (script : Value) : Bool :=
  (items script).any fun step => boolOr step "hang" false

/-- What is wrong with a time limit that is no number, if a run has to compare with it: a stuck
call is looked at again and again, and a call without workers when it has returned. -/
def limitMisuse? (spec : Value) (given : List (Key × Value)) (p : WorkPool.Plan Float)
    (f : WorkPool.Finished WorkState Key Value Float) : Option Misuse :=
  let limit := field spec "timeout"
  let inline := decide (p.workers ≤ 0) || f.tally.fallback
  let compared := (inline && decide (0 < f.tally.completed)) || given.any fun t => canHang t.2
  if limit.isNull || limit.number?.isSome || !compared then none
  else some (.unordered ">" "float" limit.kindName)

end PhpAudit.Script
