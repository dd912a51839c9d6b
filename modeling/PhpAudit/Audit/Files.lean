/-
Audits of files on a disk, one after another or many at once.

* `Audit.analyzeFile` — the report about a file, which says so if the file cannot be read;
* `Audit.analyzeFiles` — files one after another;
* `Audit.hear`, `Audit.call` — analyses that are under way on workers;
* `Audit.analyzeBatch` — files on a pool of workers, the roster locked meanwhile;
* `Audit.discover` — the files below a target.
-/

import PhpAudit.Audit.Basic
import PhpAudit.Disk.Discover
import PhpAudit.Report.Batch
import PhpAudit.WorkPool.Run

set_option autoImplicit false

namespace PhpAudit.Audit

/-- What files are read from: a disk, and a guess at encodings other than UTF-8. -/
structure Shelf where
  disk : Disk
  guess : Option Encoding.Guess := none

/-- The greatest size of a file in bytes. -/
def sizeLimit (a : Audit) : Except Misuse Int := do
  let bytes ← (← (← a.settings.maxFileSize).times 1024).times 1024
  Value.wholePart (bytes.number?.getD (.int 0))

/-- The report about a file that cannot be read. -/
def unreadable (a : Audit) (path : String) (cause : Disk.Refusal) : Report × Audit :=
  (.failure path ("Read error: " ++ cause.message) "failed" (.float 0.0),
   { a with counts := a.counts.fail 1 })

/-- The report about a file. -/
def analyzeFile (a : Audit) (shelf : Shelf) (path : String) : Except Misuse Report × Audit :=
  match a.sizeLimit with
  | .error m => (.error m, a)
  | .ok limit =>
    match shelf.disk.readSource (Path.ofText path) (.int limit) shelf.guess with
    | .ok (content, encoding) =>
      let (r, a) := a.analyzeText path content encoding
      (.ok r, a)
    | .error (.misuse m) => (.error m, a)
    | .error cause =>
      let (r, a) := a.unreadable path cause
      (.ok r, a)

/-- The reports about files, one after another, up to one on which the audit breaks down. -/
def analyzeFiles (shelf : Shelf) :
    List String → Batch → Audit → Except Misuse Batch × Audit
  | [], done, a => (.ok done, a)
  | path :: rest, done, a =>
    match a.analyzeFile shelf path with
    | (.ok r, a) => analyzeFiles shelf rest { reports := Assoc.put done.reports (.str path) r } a
    | (.error m, a) => (.error m, a)

/-! ### On workers -/

/-- Which groups of workers can be made and which calls can be handed to them. -/
structure Staff where
  canCreate : Nat → Bool := fun _ => true
  canSubmit : Nat → Bool := fun _ => true

/-- How long the analysis of each file stays under way on a worker, unless it ends at once, and how
many rounds the pool is given for it beyond one for each file. -/
structure Pace where
  stay : String → Option WorkPool.Stay := fun _ => none
  rounds : Nat := 0

/-- The pause between two looks at the workers, in seconds. -/
def pollInterval : Float := 0.05

/-- The counts with what an analysis enters when it ends. -/
def Counts.take (c : Counts) (e : Entry) : Counts :=
  match e.report with
  | none => c
  | some r => if r.failed then c.fail 1 else c.enter e.listed r e.time

/-- The ledger with what an analysis enters when it ends. -/
def Entry.record (ledger : Report.Ledger) (e : Entry) : Report.Ledger :=
  match e.report with
  | none => ledger
  | some r => if r.failed then ledger else ledger.enter r

/-- The audit after a further call is started, or after a wait: some of the analyses that are under
way end. -/
def hear (beat : WorkPool.Beat) (a : Audit) : Audit :=
  let ended := (a.running.filter fun x => (x.stay.after? beat).isNone).map Running.entry
  { a with
    ledger := ended.foldl Entry.record a.ledger
    counts := ended.foldl Counts.take a.counts
    running := a.running.filterMap fun x => (x.stay.after? beat).map fun stay => { x with stay } }

/-- What an analysis enters that has led from one audit to another. -/
def Entry.of (before : Audit) (r : Except Misuse Report) (after : Audit) : Entry :=
  { report := r.toOption, listed := before.roster.list.length, time := after.now - before.now }

/-- Starts the analysis of a file.  One that does not end at once takes no time of the pool, and
enters its report only when it ends. -/
def call (a : Audit) (shelf : Shelf) (pace : Pace) (path : String) :
    WorkPool.Work Report × Audit :=
  let a := a.hear .start
  let (r, b) := a.analyzeFile shelf path
  match pace.stay path with
  | none => (.ended (r.mapError Misuse.message), b)
  | some stay =>
    (.stuck stay (r.mapError Misuse.message),
     { b with
       now := a.now
       ledger := a.ledger
       counts := a.counts
       running := a.running ++ [{ stay, entry := .of a r b }] })

/-- An audit as what surrounds a run of the pool. -/
def surroundings (shelf : Shelf) (staff : Staff) (cancellable : Bool) (timeout : Float)
    (pace : Pace := {}) : WorkPool.Surroundings Audit String Report Float :=
  { now := Audit.now
    pause := fun a => { a with now := a.now + pollInterval }.hear .pause
    cancelled := fun a => cancellable && a.cancelled
    call := fun path a => a.call shelf pace path
    canCreate := staff.canCreate
    canSubmit := staff.canSubmit
    late := fun path => WorkPool.lateMessage path timeout }

/-- The report for what became of a path. -/
def reportOf (r : WorkPool.Result String Report Float) : Report :=
  match r.succeeded, r.value with
  | true, some report => report
  | _, _ => .failure r.key r.error r.status.name (.float r.time)

/-- The reports that a run of the pool comes to, and the audit after it: every file that was no
success counts as failed. -/
def conclude (f : WorkPool.Finished Audit String Report Float) : Batch × Audit :=
  let failures := f.results.filter fun r => !r.succeeded
  ({ reports := f.results.map fun r => (.str r.key, reportOf r) },
   { f.world with
     roster := f.world.roster.unlock
     counts := f.world.counts.fail failures.length
     poolFigures := f.tally.toDict })

/-- The reports about files, worked on by several workers.  If every analysis ends at once, twice
as many rounds as there are files are enough. -/
def analyzeBatch (a : Audit) (shelf : Shelf) (paths : List String) (cancellable : Bool := true)
    (staff : Staff := {}) (pace : Pace := {}) : Except Misuse (Option (Batch × Audit)) := do
  let distinct := paths.eraseDups
  let workers ← a.settings.workerCount
  let timeout ← a.settings.perFileTimeout
  let plan : WorkPool.Plan Float := { workers := workers.int?.getD 0, timeout := some timeout }
  let s := surroundings shelf staff cancellable timeout pace
  let locked := { a with roster := a.roster.lock }
  return (WorkPool.run s plan (distinct.length * 2 + pace.rounds) distinct locked).map conclude

/-! ### Discovery -/

/-- The files at or below a target that the settings ask for. -/
def discover (a : Audit) (disk : Disk) (target : String) :
    Except Disk.Refusal (List String) := do
  let endings ← a.settings.fileExtensions.mapError .misuse
  let paths ← disk.discover (Path.ofText target) (.list endings) a.settings.excludes
  return paths.map Path.text

end PhpAudit.Audit
