/-
From the outcomes of analyzers to the report about a file.

Several analyzers may report the same thing.  Of findings with one fingerprint the first is kept.
There is no report if a finding has no fingerprint.
-/

import PhpAudit.Report.Basic

set_option autoImplicit false

namespace PhpAudit.Report

/-- The findings whose fingerprint was not seen before, where `seen` were, and the number of the
others. -/
def distinctFrom (seen : List String) : List (String × Finding) → List Finding × Nat
  | [] => ([], 0)
  | (key, f) :: rest =>
    if seen.contains key then
      let later := distinctFrom seen rest
      (later.1, later.2 + 1)
    else
      let later := distinctFrom (key :: seen) rest
      (f :: later.1, later.2)

/-- The first finding of each fingerprint, in order, and the number of the others. -/
def distinct (findings : List Finding) : Except Misuse (List Finding × Nat) := do
  let keyed ← findings.mapM fun f => return (← f.fingerprint, f)
  return distinctFrom [] keyed

/-- A finding with the path of its file, if it has none. -/
def placed (path : Value) (f : Finding) : Finding :=
  if f.filePath.truthy then f else { f with filePath := path }

/-- All findings of some outcomes about a file. -/
def allFindings (path : Value) (outcomes : List Outcome) : List Finding :=
  outcomes.flatMap fun o => o.findings.map (placed path)

/-- The report of some outcomes about a file. -/
def collect (path : Value) (outcomes : List Outcome) (parseErrors : List Value)
    (isPartial time : Value) : Except Misuse Report := do
  let (kept, dropped) ← distinct (allFindings path outcomes)
  return {
    path
    findings := kept
    outcomes
    parseErrors
    isPartial
    duplicates := .nat dropped
    time }

/-- Counts over all reports that were made. -/
structure Ledger where
  reports : Nat := 0
  outcomes : Nat := 0
  dropped : Nat := 0
  deriving Inhabited

/-- The counts with one more report. -/
def Ledger.enter (l : Ledger) (r : Report) : Ledger :=
  { reports := l.reports + 1
    outcomes := l.outcomes + r.outcomes.length
    dropped := l.dropped + (r.duplicates.int?.getD 0).toNat }

/-- The counts as a dictionary.  Making a report takes no time on the clock of the run. -/
def Ledger.toDict (l : Ledger) : Dict :=
  [("reports_created", .nat l.reports),
   ("results_processed", .nat l.outcomes),
   ("issues_deduplicated", .nat l.dropped),
   ("total_processing_time", .float 0.0)]

end PhpAudit.Report
