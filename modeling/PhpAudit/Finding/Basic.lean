/-
Findings: what a rule or an analyzer reports about a place in a file.

A finding has a title, a description, a severity and a category; everything else has a default.
Findings also come from analyzers outside this library, so the fields that are only shown are kept
as values of any kind, whatever they hold.  A fingerprint is made of texts, so a finding whose
title, description or rule is something else has none.
-/

import PhpAudit.Finding.Severity
import PhpAudit.Value.Misuse
import PhpAudit.Digest.Md5

set_option autoImplicit false

namespace PhpAudit

/-- One finding. -/
structure Finding where
  title : Value
  description : Value
  severity : Severity
  category : Category
  line : Value := .int 0
  column : Value := .int 0
  endLine : Value := line
  endColumn : Value := column
  ruleId : Value := .str ""
  ruleName : Value := .str ""
  tags : List Value := []
  suggestions : List Value := []
  codeSnippet : Value := .str ""
  metadata : Dict := []
  confidence : Float := 1.0
  owaspCategory : Value := .str ""
  cweIds : List Value := []
  filePath : Value := .str ""
  /-- An identifier given from outside; the fingerprint stands in for a missing one. -/
  givenId : Value := .null
  deriving Inhabited

namespace Finding

/-- The value if it counts as true, otherwise the other one. -/
def orElse (v other : Value) : Value :=
  if v.truthy then v else other

/-- The rule's identifier, or a word for its absence. -/
def ruleLabel (f : Finding) : Value :=
  orElse f.ruleId "no-rule"

/-- The digest of a text. -/
def digestOf : Value → Except Misuse String
  | .str s => .ok (Digest.short s)
  | other => .error (.noAttribute other.kindName "encode")

/-- Category, severity, rule, line and the digests of title and description. -/
def fingerprint (f : Finding) : Except Misuse String := do
  let title ← digestOf f.title
  let description ← digestOf f.description
  match f.ruleLabel with
  | .str rule =>
    return ":".intercalate [f.category.name, f.severity.name, rule,
      (orElse f.line (.int 0)).plain, title, description]
  | other => .error (.notJoinable 2 other.kindName)

/-- The given identifier, or else the fingerprint. -/
def id (f : Finding) : Except Misuse Value :=
  if f.givenId.truthy then .ok f.givenId else f.fingerprint.map .str

/-- File, line and either the last line or the column. -/
def location (f : Finding) : String :=
  let start := f.filePath.plain ++ ":" ++ f.line.plain
  if f.endLine.truthy && !f.endLine.eqv f.line then start ++ "-" ++ f.endLine.plain
  else if f.column.truthy then start ++ ":" ++ f.column.plain
  else start

/-- Whether the finding is at least as grave as the word says. -/
def meets (f : Finding) (threshold : String) : Bool :=
  decide (Severity.priorityOf threshold ≤ f.severity.priority)

/-- One line that names the finding. -/
def label (f : Finding) : String :=
  "Issue(" ++ f.ruleLabel.plain ++ ", " ++ f.severity.name ++ ", " ++ f.category.name ++
    ", line " ++ f.line.plain ++ ")"

/-- A confidence within zero and one. -/
def clampConfidence (x : Float) : Float :=
  let y := if x < 1.0 then x else 1.0
  if 0.0 < y then y else 0.0

end Finding

end PhpAudit
