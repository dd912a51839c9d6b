/-
From what a rule saw to a finding.

A rule says what it saw; the finding takes its place, its tags and its severity from the node and
the profile, and shows the lines around the place.
-/

import PhpAudit.Rule.Basic
import PhpAudit.Rule.Evidence

set_option autoImplicit false

namespace PhpAudit.Rule

/-- What a rule says about a node. -/
structure Draft where
  title : Value
  description : Value
  /-- A severity other than the rule's own. -/
  severity : Option String := none
  suggestions : List Value := []
  metadata : Dict := []
  confidence : Float := 1.0
  /-- A line other than the node's own. -/
  line : Option Int := none
  /-- How many lines are shown on either side. -/
  context : Int := 1

/-- The numbers from one to another. -/
def numbersBetween (first last : Int) : List Int :=
  (List.range (last - first + 1).toNat).map fun (i : Nat) => first + i

/-- The source lines around a place, those of the place itself marked. -/
def snippet (file : SourceFile) (first last context : Int) : String :=
  let start := max 1 (first - context)
  let upTo := min (file.lineCount : Int) (last + context)
  "\n".intercalate ((numbersBetween start upTo).map fun number =>
    let sign := if first ≤ number ∧ number ≤ last then ">> " else "   "
    sign ++ Text.padLeft (toString number) 4 ++ " | " ++ (file.line? number).getD "None")

/-- The word for a severity: one that was given, or else the rule's own. -/
def severityWord (given : Option String) (own : String) : String :=
  match given with
  | some word => if word == "" then own else word
  | none => own

/-- The finding that a draft describes. -/
def Profile.finding (p : Profile) (d : Draft) (n : Node) (site : Site) :
    Except Finding.Error Finding := do
  let first := d.line.getD n.span.startLine
  let last := d.line.getD n.span.endLine
  let severity ← Finding.readSeverity (.str (severityWord d.severity p.severity))
  let category ← Finding.readCategory (.str p.category)
  return {
    title := d.title
    description := d.description
    severity
    category
    line := .int first
    column := .int (if d.line.isNone then n.span.startColumn else 0)
    endLine := .int last
    endColumn := .int (if d.line.isNone then n.span.endColumn else 0)
    ruleId := .str p.id
    ruleName := .str p.name
    tags := p.tags.map .str
    suggestions := d.suggestions
    codeSnippet := .str (snippet site.file first last d.context)
    metadata := d.metadata
    confidence := Finding.clampConfidence d.confidence
    filePath := .str site.file.path }

/-- What a security rule says about a node. -/
structure Suspicion where
  title : Value
  description : Value
  /-- What speaks for it; without any, the confidence is what the rule's false positives leave. -/
  evidence : Option Evidence := none
  severity : Option String := none
  suggestions : List Value := []
  metadata : Dict := []

/-- The facts that every security finding carries. -/
def Security.facts (s : Security) (evidence : Option Evidence) : Dict :=
  let general : Dict :=
    [("vulnerability_type", s.vulnerability),
     ("risk_level", s.risk.name),
     ("false_positive_probability", .ofNumber s.falsePositives)]
  let special (e : Evidence) : Dict := [("risk_factors", .list e.factors)]
  general ++ (evidence.map special).getD []

/-- The finding that a suspicion comes to. -/
def Profile.securityFinding (p : Profile) (s : Security) (x : Suspicion) (n : Node) (site : Site) :
    Except Finding.Error Finding := do
  let extra := (s.remediation.map Value.str).filter fun r => !(x.suggestions.any (Value.eqv r))
  let found ← p.finding
    { title := x.title
      description := x.description
      severity := x.severity
      suggestions := x.suggestions ++ extra
      metadata := Assoc.update (s.facts x.evidence) x.metadata
      confidence :=
        match x.evidence with
        | some e => e.confidence
        | none => 1.0 - s.falsePositives.toFloat?.getD 0.0
      context := 2 } n site
  return { found with owaspCategory := .str s.owasp.code, cweIds := s.cweIds }

end PhpAudit.Rule
