/-
What one analyzer found in one file.

An outcome holds the findings of an analyzer with its errors and warnings.  An analyzer that broke
down leaves an outcome with the error alone.  What is only shown is kept as it was given.
-/

import PhpAudit.Finding.Basic
import PhpAudit.Value.Arithmetic

set_option autoImplicit false

namespace PhpAudit

/-- What one analyzer found in one file. -/
structure Outcome where
  analyzer : Value
  filePath : Value
  findings : List Finding := []
  errors : List Value := []
  warnings : List Value := []
  metadata : Dict := []
  time : Value := .float 0.0
  deriving Inhabited

/-- How many findings there are of each severity, every severity listed. -/
def countBySeverity (findings : List Finding) : Assoc String Nat :=
  Severity.all.map fun s => (s.name, (findings.filter fun f => f.severity == s).length)

namespace Outcome

/-- The outcome of an analyzer that broke down. -/
def failure (analyzer filePath error time : Value) : Outcome :=
  { analyzer, filePath, errors := [error], time }

/-- Whether the analyzer got through. -/
def succeeded (o : Outcome) : Bool :=
  o.errors.isEmpty

/-- The dictionary that sums the outcome up. -/
def summary (o : Outcome) : Except Misuse Dict := do
  let time ← o.time.rounded 6
  return [
    ("analyzer", o.analyzer),
    ("file", o.filePath),
    ("success", .bool o.succeeded),
    ("total_issues", .nat o.findings.length),
    ("issues_by_severity", .ofCounts (countBySeverity o.findings)),
    ("execution_time", time),
    ("error_count", .nat o.errors.length),
    ("warning_count", .nat o.warnings.length),
    ("errors", .list o.errors)]

end Outcome

end PhpAudit
