/-
Described outcomes and reports.
-/

import PhpAudit.Fault
import PhpAudit.Report.Batch
import PhpAudit.Report.Collect
import PhpAudit.Script.Fields

set_option autoImplicit false

namespace PhpAudit.Script

/-- A finding from its dictionary. -/
def finding (v : Value) : Except Fault Finding :=
  (Finding.ofDict v).mapError Finding.Error.fault

/-- Findings from their dictionaries. -/
def findings (v : Value) : Except Fault (List Finding) := do
  (← v.itemsOrEmpty.mapError Misuse.fault).mapM finding

/-- What an analyzer found, or how it broke down. -/
def outcome (spec : Value) : Except Fault Outcome := do
  let analyzer ← (spec.entry "name").mapError Misuse.fault
  let filePath := fieldOr spec "file" ""
  let time := fieldOr spec "time" (.float 0.0)
  match spec.field? "failure" with
  | some e => return .failure analyzer filePath e time
  | none =>
    let found ← findings (field spec "issues")
    let errors ← (field spec "errors").itemsOrEmpty.mapError Misuse.fault
    let warnings ← (field spec "warnings").itemsOrEmpty.mapError Misuse.fault
    let metadata ← (field spec "metadata").toDict.mapError Misuse.fault
    return { analyzer, filePath, findings := found, errors, warnings, metadata, time }

/-- What several analyzers found. -/
def outcomes (v : Value) : Except Fault (List Outcome) := do
  (← v.itemsOrEmpty.mapError Misuse.fault).mapM outcome

/-- A report about a file. -/
def report (spec : Value) : Except Fault Report := do
  let path ← (spec.entry "file").mapError Misuse.fault
  let time := fieldOr spec "time" (.float 0.0)
  match spec.field? "failure" with
  | some reason => return .failure path reason (fieldOr spec "status" "failed") time
  | none =>
    let found ← findings (field spec "issues")
    let outcomes ← outcomes (field spec "results")
    let parseErrors ← (field spec "parse_errors").itemsOrEmpty.mapError Misuse.fault
    return {
      path
      findings := found
      outcomes
      parseErrors
      isPartial := fieldOr spec "partial" (.bool false)
      duplicates := fieldOr spec "duplicates" (.int 0)
      time }

/-- The report that some described outcomes come to. -/
def collected (spec : Value) : Except Fault Report := do
  let path ← (spec.entry "file").mapError Misuse.fault
  let outcomes ← outcomes (field spec "results")
  let parseErrors ← (field spec "parse_errors").itemsOrEmpty.mapError Misuse.fault
  (Report.collect path outcomes parseErrors (fieldOr spec "partial" (.bool false))
    (fieldOr spec "time" (.float 0.0))).mapError Misuse.fault

/-- Reports about files, a later one in place of an earlier one about the same file. -/
def batch (specs : Value) : Except Fault Batch := do
  let reports ← (items specs).mapM report
  (reports.foldlM Batch.add {}).mapError Misuse.fault

/-- The word of a threshold, which must be able to serve as a key. -/
def threshold (v : Value) : Except Fault String := do
  return (← v.toKey.mapError Misuse.fault).plain

end PhpAudit.Script
