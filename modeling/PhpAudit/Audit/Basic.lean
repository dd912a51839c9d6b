/-
An audit: files are parsed, asked about by every analyzer, and reported on.

Whatever goes wrong with one analyzer or one file ends up in the report about the file; the audit
itself goes on.

* `Audit`, `Audit.Counts`, `Audit.Running` — the state;
* `Audit.make`, `Audit.standard` — an audit from settings, without and with the built-in analyzers;
* `Audit.consult` — asking one analyzer;
* `Audit.analyzeText` — the report about a text.
-/

import PhpAudit.Analyzer.Basic
import PhpAudit.Report.Collect
import PhpAudit.Roster
import PhpAudit.TreeCache.Parse
import PhpAudit.WorkPool.Basic

set_option autoImplicit false

namespace PhpAudit

/-- What an audit has counted. -/
structure Audit.Counts where
  analyzed : Nat := 0
  failed : Nat := 0
  runs : Nat := 0
  analyzerFailures : Nat := 0
  skipped : Nat := 0
  found : Nat := 0
  incomplete : Nat := 0
  time : Float := 0.0

/-- What the analysis of a file enters when it ends: its report, if it gives one, with the number of
analyzers that were listed and the time that it took. -/
structure Audit.Entry where
  report : Option Report
  listed : Nat
  time : Float

/-- An analysis that is under way on a worker: how long it stays so, and what it then enters. -/
structure Audit.Running where
  stay : WorkPool.Stay
  entry : Audit.Entry

/-- The state of an audit. -/
structure Audit where
  settings : Settings
  cache : TreeCache Float
  roster : Roster Key Analyzer := {}
  ledger : Report.Ledger := {}
  counts : Audit.Counts := {}
  /-- The analyses that are under way, also after the batch that began them. -/
  running : List Audit.Running := []
  /-- The figures of the last batch. -/
  poolFigures : Dict := []
  /-- What the cache says if it cannot be used at all. -/
  cacheFault : Option String := none
  /-- The moment on the clock. -/
  now : Float := 0.0
  /-- Whether the run was cancelled. -/
  cancelled : Bool := false

namespace Audit

/-! ### Making one -/

/-- An audit without analyzers. -/
def make (settings : Settings) (grammar : Grammar) : Except Misuse Audit := do
  let capacity ← settings.cacheCapacity
  let batch ← settings.cacheEvictionBatch
  let ttl ← settings.cacheTtl
  let shown := if batch.truthy then batch else .int (max 1 ((capacity.int?.getD 1) / 10))
  return {
    settings
    cache :=
      { grammar, capacity := capacity.int?.getD 1, batch := shown.int?.getD 1, batchShown := shown
        ttl := ttl.number?.map Number.nearFloat } }

/-- The audit with an analyzer listed, unless the roster is locked. -/
def register (a : Audit) (analyzer : Analyzer) : Except Roster.Error Audit := do
  return { a with roster := ← a.roster.register analyzer.name analyzer }

/-- The audit with further analyzers; a locked roster takes none. -/
def welcome (a : Audit) (newcomers : List Analyzer) : Audit :=
  newcomers.foldl (fun a n =>
    match a.register n with
    | .ok b => b
    | .error _ => a) a

/-- The audit with the built-in analyzers. -/
def withBuiltIn (a : Audit) : Except Misuse Audit := do
  return a.welcome ((← RuledAnalyzer.defaults a.settings).map .builtIn)

/-- An audit with the built-in analyzers. -/
def standard (settings : Settings) (grammar : Grammar) : Except Misuse Audit := do
  (← make settings grammar).withBuiltIn

/-! ### One text -/

/-- Whether an analyzer is asked about a file. -/
def asks (a : Audit) (analyzer : Analyzer) (file : SourceFile) : Except Misuse Bool := do
  let switch ← a.settings.analyzerEnabled (.ofKey analyzer.name)
  if switch.truthy then analyzer.isReady file else return false

/-- Asks one analyzer about a file. -/
def consult (a : Audit) (analyzer : Analyzer) (file : SourceFile) : Outcome × Audit :=
  let r := analyzer.react a.roster.isLocked file
  let later := a.now + r.seconds
  (r.answer.toOutcome analyzer.name file.path (later - a.now),
   ({ a with now := later, cancelled := a.cancelled || r.cancels } : Audit).welcome r.newcomers)

/-- Asks the analyzers about a file, one after the other.  What the audit has become is told even
where it cannot be said whether an analyzer is to be asked. -/
def consultAll (file : SourceFile) : List Analyzer → Audit → Except Misuse (List Outcome) × Audit
  | [], a => (.ok [], a)
  | analyzer :: rest, a =>
    match a.asks analyzer file with
    | .error m => (.error m, a)
    | .ok false => consultAll file rest a
    | .ok true =>
      let (o, a) := a.consult analyzer file
      let (os, a) := consultAll file rest a
      (os.map (o :: ·), a)

/-- The counts after a report about a file that could be parsed. -/
def Counts.enter (c : Counts) (listed : Nat) (r : Report) (time : Float) : Counts :=
  { analyzed := c.analyzed + 1
    failed := c.failed
    runs := c.runs + r.outcomes.length
    analyzerFailures := c.analyzerFailures + (r.outcomes.filter fun o => !o.succeeded).length
    skipped := c.skipped + (listed - r.outcomes.length)
    found := c.found + r.findings.length
    incomplete := c.incomplete + (if r.isPartial.truthy then 1 else 0)
    time := c.time + time }

/-- The counts with so many more failed files. -/
def Counts.fail (c : Counts) (files : Nat) : Counts :=
  { c with failed := c.failed + files }

/-- The report about a text on which the analysis broke down. -/
def broken (a : Audit) (path : Value) (cause : String) (started : Float) : Report × Audit :=
  (.failure path ("Analysis error: " ++ cause) "failed" (.float (a.now - started)),
   { a with counts := a.counts.fail 1 })

/-- The lines in front of the first fault, where only these could be parsed.  They are counted from
the fault, so a file of which only a part was parsed must have one. -/
def soundLines? (file : SourceFile) : Except Misuse (Option Int) :=
  if file.isPartial then
    match file.firstFaultLine? with
    | some line => .ok (some (line - 1))
    | none => .error (.noOperator "-" "NoneType" "int")
  else .ok none

/-- The report about a parsed file. -/
def analyzeParsed (a : Audit) (file : SourceFile) (started : Float) : Report × Audit :=
  match soundLines? file with
  | .error m => a.broken file.path m.label started
  | .ok _ =>
    let analyzers := a.roster.list
    let (answers, b) := consultAll file analyzers a
    let time := b.now - started
    let faults := file.faults.map fun f => Value.dict f.toDict
    let made : Except Misuse Report := do
      Report.collect file.path (← answers) faults (.bool file.isPartial) (.float time)
    match made with
    | .error m => b.broken file.path m.label started
    | .ok report =>
      (report,
       { b with
         ledger := b.ledger.enter report
         counts := b.counts.enter analyzers.length report time })

/-- The report about a text. -/
def analyzeText (a : Audit) (path content encoding : String) : Report × Audit :=
  match a.cacheFault with
  | some fault => a.broken path fault a.now
  | none =>
    let (file, cache) := a.cache.parse a.now path content encoding
    ({ a with cache } : Audit).analyzeParsed file a.now

/-! ### Figures -/

/-- The counts as a dictionary. -/
def Counts.toDict (c : Counts) : Dict :=
  [("files_analyzed", .nat c.analyzed),
   ("files_failed", .nat c.failed),
   ("analyzer_runs", .nat c.runs),
   ("analyzer_failures", .nat c.analyzerFailures),
   ("analyzers_skipped", .nat c.skipped),
   ("issues_found", .nat c.found),
   ("partial_files", .nat c.incomplete),
   ("total_time", .float c.time)]

/-- All figures of an audit. -/
def statistics (a : Audit) : Dict :=
  [("engine", .dict a.counts.toDict),
   ("cache", .dict (if a.cacheFault.isSome then [] else a.cache.statistics)),
   ("aggregator", .dict a.ledger.toDict),
   ("worker_pool", .dict a.poolFigures),
   ("analyzers", .ofKeys a.roster.names)]

end Audit

end PhpAudit
