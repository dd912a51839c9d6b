/-
Reports about single files.

A report holds the findings of all analyzers about one file, each once.  A file that could not be
analyzed has a report too, with the reason in place of findings.  What is only shown is kept as it
was given, so the figures that need numbers can fail.

* `Stamp` — a moment of the calendar, and how it is written;
* `Report` — the record;
* `Report.qualityScore`, `Report.securityScore`, `Report.coverage` — figures;
* `Report.byPriority`, `Report.exceeds` — order and threshold;
* `Report.summary`, `Report.toDict` — what is written about a file.
-/

import PhpAudit.Outcome
import PhpAudit.Risk.Score
import PhpAudit.Rule.Book

set_option autoImplicit false

namespace PhpAudit

/-! ### Dates and times of day -/

/-- A moment of the calendar. -/
structure Stamp where
  year : Nat
  month : Nat
  day : Nat
  hour : Nat := 0
  minute : Nat := 0
  second : Nat := 0
  micros : Nat := 0

namespace Stamp

/-- A number with zeros in front of it. -/
def padded (width n : Nat) : String :=
  let digits := Nat.toDigits 10 n
  String.ofList (List.replicate (width - digits.length) '0' ++ digits)

/-- The date. -/
def date (s : Stamp) : String :=
  "-".intercalate [padded 4 s.year, padded 2 s.month, padded 2 s.day]

/-- The time of day to the second. -/
def time (s : Stamp) : String :=
  ":".intercalate [padded 2 s.hour, padded 2 s.minute, padded 2 s.second]

/-- Date and time with a letter between them, and the fraction of a second if there is one. -/
def iso (s : Stamp) : String :=
  s.date ++ "T" ++ s.time ++ (if s.micros == 0 then "" else "." ++ padded 6 s.micros)

/-- Date and time with a blank between them. -/
def plain (s : Stamp) : String :=
  s.date ++ " " ++ s.time

end Stamp

/-! ### The record -/

/-- The report about one file. -/
structure Report where
  path : Value
  findings : List Finding := []
  outcomes : List Outcome := []
  /-- The faults that the parser reported, as dictionaries. -/
  parseErrors : List Value := []
  isPartial : Value := .bool false
  duplicates : Value := .int 0
  time : Value := .float 0.0
  failed : Bool := false
  reason : Value := ""
  status : Value := "completed"
  deriving Inhabited

/-- How many findings there are of each category, every category listed. -/
def countByCategory (findings : List Finding) : Assoc String Nat :=
  Category.all.map fun c => (c.name, (findings.filter fun f => f.category == c).length)

namespace Report

/-- The report about a file that could not be analyzed. -/
def failure (path reason status time : Value) : Report :=
  { path, failed := true, reason, status, time }

/-! ### Questions -/

/-- Whether the file was analyzed and every analyzer got through. -/
def isSuccessful (r : Report) : Bool :=
  !r.failed && r.outcomes.all Outcome.succeeded

/-- The findings about security. -/
def securityFindings (r : Report) : List Finding :=
  r.findings.filter fun f => f.category == .security

/-- Whether there is a finding about security. -/
def hasSecurityFindings (r : Report) : Bool :=
  r.findings.any fun f => f.category == .security

/-- Whether there is a critical finding. -/
def hasCriticalFindings (r : Report) : Bool :=
  r.findings.any fun f => f.severity == .critical

/-- The line by which a finding is ordered. -/
def lineKey (f : Finding) : Value :=
  Finding.orElse f.line (.int 0)

/-- Whether a finding comes before another: it is graver, or as grave and on an earlier line. -/
def precedes (f g : Finding) : Except Misuse Bool :=
  if f.severity.priority != g.severity.priority then
    .ok (decide (g.severity.priority < f.severity.priority))
  else if (lineKey f).eqv (lineKey g) then .ok false
  else (lineKey f).less (lineKey g)

/-- The findings, the gravest first and then by line. -/
def byPriority (r : Report) : Except Misuse (List Finding) :=
  Sorting.sorted precedes r.findings

/-- Whether a finding is at least as grave as a word says. -/
def exceeds (r : Report) (threshold : String) : Bool :=
  r.findings.any fun f => f.meets threshold

/-! ### Figures -/

/-- What a finding takes from the quality of a file. -/
def penalty : Severity → Nat
  | .critical => 20
  | .high => 10
  | .medium => 5
  | .low => 1
  | .info => 0

/-- What a parse error takes from the quality. -/
def parseErrorPenalty : Nat := 30

/-- What findings about security take from the quality. -/
def securityPenalty : Nat := 15

/-- The quality of a file from zero to a hundred: a hundred without findings, otherwise less the
penalties. -/
def qualityScore (r : Report) : Nat :=
  if r.failed then 0
  else if r.findings.isEmpty then 100
  else
    let rest := 100 - (r.findings.map fun f => penalty f.severity).foldr (· + ·) 0
    let rest := if r.parseErrors.isEmpty then rest else rest - parseErrorPenalty
    if r.hasSecurityFindings then rest - securityPenalty else rest

/-- The security of a file from zero to a hundred. -/
def securityScore (r : Report) : Nat :=
  if r.failed then 0
  else 100 - (r.securityFindings.map fun f => RuleBook.riskWeight f.severity).foldr (· + ·) 0

/-- How many checks an analyzer names under a key. -/
def detectorCount (o : Outcome) (key : String) : Except Misuse Nat :=
  (Assoc.getD o.metadata key (.list [])).length

/-- How many checks were registered and how many ran. -/
def detectorCounts : List Outcome → Except Misuse (Nat × Nat)
  | [] => .ok (0, 0)
  | o :: rest => do
    let registered ← detectorCount o "detectors_registered"
    let executed ← detectorCount o "detectors_executed"
    let more ← detectorCounts rest
    return (registered + more.1, executed + more.2)

/-- The percentage of registered checks that ran. -/
def coverage (r : Report) : Except Misuse Float := do
  let (registered, executed) ← detectorCounts r.outcomes
  Risk.coverage (.nat executed) (.nat registered)

/-- The time that all analyzers took. -/
def analyzerTime (r : Report) : Except Misuse Value :=
  Value.total (r.outcomes.map Outcome.time)

/-! ### What is written -/

/-- The figures of a report. -/
def summary (r : Report) : Except Misuse Dict := do
  let coverage ← r.coverage
  let time ← r.analyzerTime
  return [
    ("total_analyzers", .nat r.outcomes.length),
    ("successful_analyzers", .nat (r.outcomes.filter Outcome.succeeded).length),
    ("total_issues", .nat r.findings.length),
    ("issues_by_severity", .ofCounts (countBySeverity r.findings)),
    ("issues_by_category", .ofCounts (countByCategory r.findings)),
    ("duplicates_removed", r.duplicates),
    ("quality_score", .nat r.qualityScore),
    ("security_score", .nat r.securityScore),
    ("coverage", .float coverage),
    ("has_critical_issues", .bool r.hasCriticalFindings),
    ("has_security_issues", .bool r.hasSecurityFindings),
    ("has_parse_errors", .bool (!r.parseErrors.isEmpty)),
    ("partial", r.isPartial),
    ("analyzers", .list (r.outcomes.map Outcome.analyzer)),
    ("total_execution_time", time)]

/-- The whole report. -/
def toDict (r : Report) (now : Stamp) : Except Misuse Dict := do
  let summary ← r.summary
  let outcomes ← r.outcomes.mapM Outcome.summary
  let findings ← r.findings.mapM Finding.toDict
  return [
    ("file_path", r.path),
    ("created_at", .str now.iso),
    ("status", r.status),
    ("failed", .bool r.failed),
    ("failure_reason", r.reason),
    ("summary", .dict summary),
    ("parse_errors", .list r.parseErrors),
    ("analyzer_results", .list (outcomes.map .dict)),
    ("issues", .list (findings.map .dict)),
    ("is_successful", .bool r.isSuccessful),
    ("execution_time", r.time)]

/-- One line that names the report. -/
def label (r : Report) : String :=
  let state :=
    if r.failed then "failed: " ++ r.reason.plain else s!"{r.findings.length} issues"
  "AnalysisReport(" ++ r.path.plain ++ ", " ++ state ++ ")"

end Report

end PhpAudit
