/-
Reports about many files.
-/

import PhpAudit.Report.Basic

set_option autoImplicit false

namespace PhpAudit

/-- Reports under the paths of their files. -/
structure Batch where
  reports : Assoc Key Report := []
  deriving Inhabited

namespace Batch

/-- The batch with one more report; a report about the same file is replaced in its place. -/
def add (b : Batch) (r : Report) : Except Misuse Batch := do
  return { reports := Assoc.put b.reports (← r.path.toKey) r }

/-- The reports in order. -/
def list (b : Batch) : List Report :=
  Assoc.values b.reports

/-- The reports about files that were analyzed. -/
def successful (b : Batch) : List Report :=
  b.list.filter fun r => !r.failed

/-- The reports about files that could not be analyzed. -/
def failures (b : Batch) : List Report :=
  b.list.filter Report.failed

/-- The number of findings. -/
def findingCount (b : Batch) : Nat :=
  (b.list.map fun r => r.findings.length).foldr (· + ·) 0

/-- The mean quality of the files that were analyzed. -/
def averageQuality (b : Batch) : Float :=
  match b.successful with
  | [] => 0.0
  | rs => ((rs.map Report.qualityScore).foldr (· + ·) 0).toFloat / rs.length.toFloat

/-- The grade for the mean quality. -/
def grade (b : Batch) : String :=
  let score := b.averageQuality
  if 90.0 ≤ score then "A"
  else if 80.0 ≤ score then "B"
  else if 70.0 ≤ score then "C"
  else if 60.0 ≤ score then "D"
  else "F"

/-- How many files of so many are listed at either end of the scale: a tenth, but at least one. -/
def listedCount (total : Nat) : Int :=
  max 1 (Decimal.truncate (total.toFloat * 0.1))

/-- The first items up to a number; below zero, all but so many at the end. -/
def firstItems {α : Type} (count : Int) (xs : List α) : List α :=
  if count < 0 then xs.take (xs.length - count.natAbs) else xs.take count.toNat

/-- The files that were analyzed, the lowest quality first. -/
def ascending (b : Batch) : List Report :=
  b.successful.mergeSort fun r s => decide (r.qualityScore ≤ s.qualityScore)

/-- The files that were analyzed, the highest quality first. -/
def descending (b : Batch) : List Report :=
  b.successful.mergeSort fun r s => decide (s.qualityScore ≤ r.qualityScore)

/-- The files of the lowest quality. -/
def worst (b : Batch) (count : Option Int := none) : List Report :=
  firstItems (count.getD (listedCount b.successful.length)) b.ascending

/-- The files of the highest quality. -/
def best (b : Batch) (count : Option Int := none) : List Report :=
  firstItems (count.getD (listedCount b.successful.length)) b.descending

/-- The paths of the files with findings about security. -/
def securityFiles (b : Batch) : List Key :=
  (b.reports.filter fun e => e.2.hasSecurityFindings).map Prod.fst

/-- How many findings there are of each severity. -/
def severityCounts (b : Batch) : Assoc String Nat :=
  countBySeverity (b.list.flatMap Report.findings)

/-- How many findings there are of each category. -/
def categoryCounts (b : Batch) : Assoc String Nat :=
  countByCategory (b.list.flatMap Report.findings)

/-- The time that all files took. -/
def totalTime (b : Batch) : Except Misuse Value :=
  Value.total (b.list.map Report.time)

/-- The mean time that a file took. -/
def averageTime (b : Batch) : Except Misuse Float := do
  if b.reports.isEmpty then return 0.0
  (← b.totalTime).dividedBy (.nat b.reports.length)

/-- Whether no file has a finding at or above a threshold. -/
def passes (b : Batch) (threshold : String) : Bool :=
  !b.list.any fun r => r.exceeds threshold

/-! ### What is written -/

/-- The figures of a project. -/
def summary (b : Batch) : Except Misuse Dict := do
  let scores := b.successful.map Report.qualityScore
  let total ← b.totalTime
  let average ← b.averageTime
  return [
    ("total_files", .nat b.reports.length),
    ("successful_files", .nat b.successful.length),
    ("failed_files", .nat b.failures.length),
    ("total_issues", .nat b.findingCount),
    ("average_quality_score", .float (Decimal.round b.averageQuality 2)),
    ("quality_grade", .str b.grade),
    ("min_quality_score", .nat (scores.min?.getD 0)),
    ("max_quality_score", .nat (scores.max?.getD 0)),
    ("issue_distribution", .ofCounts b.categoryCounts),
    ("severity_distribution", .ofCounts b.severityCounts),
    ("files_with_security_issues", .nat b.securityFiles.length),
    ("total_execution_time", total),
    ("average_execution_time", .float average)]

/-- A file with its score. -/
def scoreLine (r : Report) : Value :=
  .dict [("file", r.path), ("score", .nat r.qualityScore)]

/-- A file that could not be analyzed. -/
def failureLine (r : Report) : Value :=
  .dict [("file", r.path), ("status", r.status), ("reason", r.reason)]

/-- The whole report about a project. -/
def toDict (b : Batch) (now : Stamp) : Except Misuse Dict := do
  let summary ← b.summary
  let reports ← b.list.mapM fun r => r.toDict now
  return [
    ("created_at", .str now.iso),
    ("summary", .dict summary),
    ("worst_files", .list (b.worst.map scoreLine)),
    ("best_files", .list (b.best.map scoreLine)),
    ("failures", .list (b.failures.map failureLine)),
    ("reports", .list (reports.map .dict))]

end Batch

end PhpAudit
