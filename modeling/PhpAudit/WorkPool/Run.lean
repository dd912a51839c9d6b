/-
A whole run of the pool.
-/

import PhpAudit.Value.Basic
import PhpAudit.WorkPool.Sequential
import PhpAudit.WorkPool.Threaded

set_option autoImplicit false

namespace PhpAudit.WorkPool

variable {σ κ β τ : Type}

/-- The figures of a run. -/
structure Tally (τ : Type) where
  submitted : Nat
  completed : Nat
  failed : Nat
  timedOut : Nat
  cancelled : Nat
  retries : Nat
  abandoned : Nat
  replaced : Nat
  total : τ
  fallback : Bool

/-- What a run comes to. -/
structure Finished (σ κ β τ : Type) where
  /-- One result for each key, in the order of the keys. -/
  results : List (Result κ β τ)
  tally : Tally τ
  world : σ
  /-- The keys for which the work function was called, in order. -/
  calls : List κ
  /-- How many groups of workers were asked for. -/
  created : Nat

/-- The latest result of a key, under the key as it is asked for. -/
def resultOf? [BEq κ] (results : List (Result κ β τ)) (key : κ) : Option (Result κ β τ) :=
  (results.filter fun r => r.key == key).getLast?.map fun r => { r with key }

/-- How many results have a status. -/
def count (status : Status) (results : List (Result κ β τ)) : Nat :=
  (results.filter fun r => r.status == status).length

/-- The figures of a state. -/
def Floor.tally [Timeline τ] (submitted : Nat) (f : Floor σ κ β τ) : Tally τ :=
  { submitted
    completed := count .completed f.results
    failed := count .failed f.results
    timedOut := count .timedOut f.results
    cancelled := count .cancelled f.results
    retries := f.retries
    abandoned := f.abandoned
    replaced := f.replaced
    total := f.results.foldl (fun sum r => Timeline.add sum r.time) Timeline.zero
    fallback := f.fallback }

/-- What a state comes to at the end. -/
def Floor.finished [Timeline τ] [BEq κ] (keys : List κ) (f : Floor σ κ β τ) :
    Finished σ κ β τ :=
  { results := keys.eraseDups.filterMap (resultOf? f.results)
    tally := f.tally keys.length
    world := f.world
    calls := f.calls
    created := f.created }

/-- The state before the first round. -/
def Floor.start (keys : List κ) (world : σ) : Floor σ κ β τ :=
  { world, pending := keys.map fun k => (k, 1) }

/-- The end of a run without workers. -/
def Floor.withoutWorkers [Timeline τ] (s : Surroundings σ κ β τ) (plan : Plan τ)
    (f : Floor σ κ β τ) : Option (Floor σ κ β τ) :=
  (sequential s plan f.toRun).map fun r => { f with toRun := r }

/-- All steps of a run. -/
def complete [Timeline τ] (s : Surroundings σ κ β τ) (plan : Plan τ) (bound : Nat)
    (f : Floor σ κ β τ) : Option (Floor σ κ β τ) :=
  if plan.workers ≤ 0 then f.withoutWorkers s plan
  else if s.canCreate 1 then do
    let f ← rounds s plan bound { f with created := 1 }
    f.withoutWorkers s plan
  else ({ f with created := 1, fallback := true } : Floor σ κ β τ).withoutWorkers s plan

/-- Runs the work function for every key.  There is no result if so many rounds are not enough, or
if a call without workers does not end. -/
def run [Timeline τ] [BEq κ] (s : Surroundings σ κ β τ) (plan : Plan τ) (bound : Nat)
    (keys : List κ) (world : σ) : Option (Finished σ κ β τ) :=
  (complete s plan bound (Floor.start keys world)).map (Floor.finished keys)

/-- The mean time of the keys that were worked on. -/
def Tally.average (t : Tally Float) : Float :=
  let count := t.completed + t.failed + t.timedOut
  if count == 0 then 0.0 else t.total / count.toFloat

/-- The figures as a dictionary. -/
def Tally.toDict (t : Tally Float) : Dict :=
  [("submitted", .nat t.submitted),
   ("completed", .nat t.completed),
   ("failed", .nat t.failed),
   ("timed_out", .nat t.timedOut),
   ("cancelled", .nat t.cancelled),
   ("retries", .nat t.retries),
   ("abandoned_threads", .nat t.abandoned),
   ("executors_replaced", .nat t.replaced),
   ("average_execution_time", .float t.average),
   ("sequential_fallback", .bool t.fallback)]

/-- What is said about a file that took too long. -/
def lateMessage (name : String) (seconds : Float) : String :=
  "Analysis of " ++ name ++ " timed out after " ++ Decimal.fixed seconds 2 ++ " seconds"

end PhpAudit.WorkPool
