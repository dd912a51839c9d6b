/-
Counting what rules did.
-/

import PhpAudit.Rule.Basic

set_option autoImplicit false

namespace PhpAudit.Rule

/-- How the run of a rule ended. -/
inductive Status where
  | success
  | failed
  | skipped
  deriving DecidableEq

/-- The word for each end. -/
def Status.name : Status → String
  | success => "success"
  | failed => "failed"
  | skipped => "skipped"

/-- What came of one rule at one node. -/
structure Run where
  id : String
  status : Status
  findings : List Finding := []
  error : Option Fault := none

/-- What is kept of a run that failed: the rule and the reason. -/
def Run.failure (r : Run) : String :=
  r.id ++ ": " ++ (r.error.map Fault.message).getD "None"

/-- The counts of some runs. -/
structure Tally where
  executed : Nat := 0
  found : Nat := 0
  failed : Nat := 0
  bySeverity : Assoc String Nat := []
  byRule : Assoc String Nat := []
  failures : List String := []
  deriving Inhabited

namespace Tally

/-- One more finding. -/
def countFinding (t : Tally) (f : Finding) : Tally :=
  { t with found := t.found + 1, bySeverity := Assoc.bump t.bySeverity f.severity.name 1 }

/-- One more run. -/
def record (t : Tally) (r : Run) : Tally :=
  let ran := { t with executed := t.executed + 1, byRule := Assoc.bump t.byRule r.id 1 }
  let noted :=
    if r.status = .failed then
      { ran with failed := ran.failed + 1, failures := ran.failures ++ [r.failure] }
    else ran
  r.findings.foldl countFinding noted

/-- Adds every counter of one map to another. -/
def addCounts (m new : Assoc String Nat) : Assoc String Nat :=
  new.foldl (fun acc e => Assoc.bump acc e.1 e.2) m

/-- The counts of two tallies together. -/
def merge (t u : Tally) : Tally :=
  { executed := t.executed + u.executed
    found := t.found + u.found
    failed := t.failed + u.failed
    bySeverity := addCounts t.bySeverity u.bySeverity
    byRule := addCounts t.byRule u.byRule
    failures := t.failures ++ u.failures }

/-- The counts as a dictionary.  Rules take no time on the clock of the run. -/
def toDict (t : Tally) : Dict :=
  [("rules_executed", .nat t.executed),
   ("issues_found", .nat t.found),
   ("rule_failures", .nat t.failed),
   ("execution_time", .float 0.0),
   ("issues_by_severity", .ofCounts t.bySeverity),
   ("executions_by_rule", .ofCounts t.byRule)]

end Tally

end PhpAudit.Rule
