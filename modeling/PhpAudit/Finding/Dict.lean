/-
Findings as dictionaries.

A finding is written to reports as a dictionary, and analyzers outside this library hand findings
over in the same form.  Reading one checks the severity and the category and brings the confidence
into its range.
-/

import PhpAudit.Finding.Basic
import PhpAudit.Text.Case

set_option autoImplicit false

namespace PhpAudit.Finding

/-- Why a dictionary is no finding. -/
inductive Error where
  | unknownSeverity (word : String)
  | unknownCategory (given : Value)
  | misuse (cause : Misuse)

/-- The wording of each cause. -/
def Error.message : Error → String
  | unknownSeverity word => s!"Invalid severity: {word}. Must be one of: {Severity.names}"
  | unknownCategory given =>
    "Invalid category: " ++ given.plain ++ ". Must be one of: " ++ Category.names
  | misuse cause => cause.message

/-- The severity that a value names, in any case. -/
def readSeverity : Value → Except Error Severity
  | .str word =>
    let low := Text.lower word
    match Severity.ofName? low with
    | some s => .ok s
    | none => .error (.unknownSeverity low)
  | other => .error (.misuse (.noAttribute other.kindName "lower"))

/-- The category that a value names. -/
def readCategory (given : Value) : Except Error Category :=
  match given.str?.bind Category.ofName? with
  | some c => .ok c
  | none => .error (.unknownCategory given)

/-- A misuse as the reason why a dictionary is no finding. -/
def lift {α : Type} (e : Except Misuse α) : Except Error α :=
  e.mapError .misuse

/-- The finding that a dictionary describes. -/
def ofDict (data : Value) : Except Error Finding := do
  let field (key : String) (default : Value) : Value := (data.field? key).getD default
  let orNull (key : String) : Value := field key .null
  let title ← lift (data.entry "title")
  let givenSeverity ← lift (data.entry "severity")
  let givenCategory ← lift (data.entry "category")
  let severity ← readSeverity givenSeverity
  let category ← readCategory givenCategory
  let line := field "line" (.int 0)
  let column := field "column" (.int 0)
  let endLine := if (orNull "end_line").isNull then line else orNull "end_line"
  let endColumn := if (orNull "end_column").isNull then column else orNull "end_column"
  let tags ← lift (orNull "tags").itemsOrEmpty
  let suggestions ← lift (orNull "suggestions").itemsOrEmpty
  let metadata ← lift (orNull "metadata").toDict
  let confidence ← lift (field "confidence" (.float 1.0)).toFloat
  let cweIds ← lift (orNull "cwe_ids").itemsOrEmpty
  return {
    title
    description := field "description" ""
    severity
    category
    line
    column
    endLine
    endColumn
    ruleId := field "rule_id" ""
    ruleName := field "rule_name" ""
    tags
    suggestions
    codeSnippet := field "code_snippet" ""
    metadata
    confidence := clampConfidence confidence
    owaspCategory := field "owasp_category" ""
    cweIds
    filePath := field "file_path" ""
    givenId := orNull "id" }

/-- The dictionary of a finding. -/
def toDict (f : Finding) : Except Misuse Dict := do
  let id ← f.id
  return [
    ("id", id),
    ("title", f.title),
    ("description", f.description),
    ("severity", .str f.severity.name),
    ("category", .str f.category.name),
    ("file_path", f.filePath),
    ("line", f.line),
    ("column", f.column),
    ("end_line", f.endLine),
    ("end_column", f.endColumn),
    ("rule_id", f.ruleId),
    ("rule_name", f.ruleName),
    ("owasp_category", f.owaspCategory),
    ("cwe_ids", .list f.cweIds),
    ("confidence", .float (Decimal.round f.confidence 3)),
    ("tags", .list f.tags),
    ("suggestions", .list f.suggestions),
    ("code_snippet", f.codeSnippet),
    ("metadata", .dict f.metadata)]

end PhpAudit.Finding
