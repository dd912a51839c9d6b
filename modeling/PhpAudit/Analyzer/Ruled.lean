/-
The built-in analyzers: each asks a book of rules about every node of a file.

The settings of a run say which rules are in a book and how they are set.  Settings of an analyzer
give defaults for its rules, and the settings of a rule override them.

* `RuledAnalyzer.Kind`, `RuledAnalyzer` — the four analyzers;
* `RuledAnalyzer.make` — an analyzer from the settings of a run;
* `RuledAnalyzer.detectors` — the names of its checks;
* `RuledAnalyzer.analyze` — what it finds in a file.
-/

import PhpAudit.Outcome
import PhpAudit.Owasp.Profiles
import PhpAudit.Quality.Rules
import PhpAudit.Risk.Score
import PhpAudit.Rule.Sweep
import PhpAudit.Security.Rules
import PhpAudit.Settings.Access

set_option autoImplicit false

namespace PhpAudit

/-- What a built-in analyzer looks for. -/
inductive RuledAnalyzer.Kind where
  | syntactic
  | security
  | quality
  | performance
  deriving DecidableEq

/-- A built-in analyzer. -/
structure RuledAnalyzer where
  kind : RuledAnalyzer.Kind
  settings : Value
  book : RuleBook

namespace RuledAnalyzer

/-! ### Kinds -/

/-- The name of an analyzer. -/
def Kind.name : Kind → String
  | syntactic => "syntax"
  | security => "security"
  | quality => "quality"
  | performance => "performance"

/-- All kinds, in the order in which the analyzers run. -/
def Kind.all : List Kind :=
  [syntactic, security, quality, performance]

/-- The rules of an analyzer. -/
def Kind.rules : Kind → List Rule
  | syntactic => Quality.syntaxRules
  | security => Security.rules
  | quality => Quality.qualityRules
  | performance => Quality.performanceRules

/-- Whether an analyzer can work with a tree that covers only a part of a file. -/
def Kind.recovers : Kind → Bool
  | syntactic | security => true
  | quality | performance => false

/-- The endings of the files that the built-in analyzers look at. -/
def extensions : List String :=
  ["php", "phtml", "php5", "php7", "php8", "inc"]

/-! ### From settings to rules -/

/-- The setting of the analyzer that a rule takes over, and its name there. -/
def inherited (kind : Kind) (ruleId : String) : Option (String × String) :=
  match kind, ruleId with
  | .quality, "function_length" => some ("max_function_lines", "max_lines")
  | .quality, "parameter_count" => some ("max_parameters", "max_parameters")
  | .quality, "cyclomatic_complexity" => some ("max_complexity", "max_complexity")
  | .performance, "nested_loops" => some ("max_loop_depth", "max_depth")
  | _, _ => none

/-- The settings that an analyzer gives one of its rules. -/
def ruleDefaults (kind : Kind) (run : Settings) (own : Value) (ruleId : String) :
    Except Misuse Dict :=
  match kind with
  | .syntactic =>
    match ruleId with
    | "line_length" => do
      let entries ← own.entries "get"
      return [("max_length", Assoc.getD entries "max_line_length" (.int 120))]
    | "unused_variable" => do
      let entries ← own.entries "get"
      return [("enabled",
        .bool (Assoc.getD entries "check_unused_variables" (.bool true)).truthy)]
    | _ => return []
  | .security => do
    let threshold ← run.confidenceThreshold
    let entries ← own.entries "get"
    let given ← (Assoc.getD entries ruleId (.dict [])).pairs
    return Assoc.update [("confidence_threshold", .float threshold)] given
  | _ =>
    match inherited kind ruleId with
    | none => return []
    | some (name, key) => do
      if ← own.holds name then return [(key, ← own.entry name)] else return []

/-- Registers rules with the settings that the analyzer and the run give them. -/
def fill (kind : Kind) (run : Settings) (own : Value) :
    List Rule → RuleBook → Except Misuse RuleBook
  | [], book => .ok book
  | r :: rest, book => do
    let defaults ← ruleDefaults kind run own r.profile.id
    let given ← (← run.ruleSettings r.profile.id).pairs
    let done := book.add r (Assoc.update defaults given)
    match done.failure with
    | some cause => .error cause
    | none => fill kind run own rest done.book

/-- An analyzer from the settings of a run. -/
def make (kind : Kind) (run : Settings) : Except Misuse RuledAnalyzer := do
  let own ← run.analyzerSettings kind.name
  let book ← fill kind run own kind.rules { securityOnly := kind == .security }
  return { kind, settings := own, book }

/-- The built-in analyzers, in the order in which they run. -/
def defaults (run : Settings) : Except Misuse (List RuledAnalyzer) :=
  Kind.all.mapM fun kind => make kind run

/-! ### Analyzing -/

/-- The names of the checks, that of the parser first if the analyzer reports its faults. -/
def detectors (a : RuledAnalyzer) : List String :=
  (if a.kind == .syntactic then ["parse_error"] else []) ++
    a.book.enabledRules.map fun r => r.profile.id

/-- The finding for a fault that the parser reported. -/
def parseFinding (path : String) (fault : SyntaxFault) : Finding :=
  { title := "Parse Error"
    description := fault.message
    severity := .critical
    category := .syntactic
    line := .int fault.line
    column := .int fault.column
    ruleId := .str "parse_error"
    ruleName := .str "PHP Parse Error"
    tags := [.str "parse", .str "critical"]
    suggestions := [
      .str "Check syntax near the indicated line",
      .str "Ensure proper closing of brackets and statements",
      .str "Verify correct PHP version compatibility"]
    filePath := .str path }

/-- The priority of a security finding, and the finding with references and the assessment of its
risk. -/
def assessed (f : Finding) : Except Misuse (Int × Finding) := do
  let enriched ← Owasp.enrich f
  let kind ← (Assoc.getD enriched.metadata "vulnerability_type" "").toKey
  let a ← Risk.assess (Risk.factorsOf Risk.profiles kind)
  return (a.priority, { enriched with
    metadata := Assoc.update enriched.metadata
      [("risk_score", .float a.score), ("risk_severity", .str a.severity),
       ("risk_priority", .int a.priority)] })

/-- The findings of the rules in the order in which the analyzer reports them: security findings by
the priority of their risk. -/
def arrange (kind : Kind) (found : List Finding) : Except Misuse (List Finding) := do
  if kind == .security then
    let rated ← found.mapM assessed
    return (rated.mergeSort fun a b => decide (b.1 ≤ a.1)).map Prod.snd
  else return found

/-- What the walk came to, as facts about the run of the analyzer. -/
def facts (a : RuledAnalyzer) (file : SourceFile) (s : RuleBook.Sweep) (trail : Walk.Trail) :
    Dict :=
  let names := a.detectors
  let ran := (if a.kind == .syntactic then ["parse_error"] else []) ++
    names.filter (Assoc.has s.tally.byRule)
  [("nodes_visited", .nat trail.visited),
   ("max_depth", .nat trail.deepest),
   ("rules_executed", .nat s.tally.executed),
   ("detectors_registered", .ofTexts names),
   ("detectors_executed", .ofTexts ran),
   ("partial", .bool file.isPartial)]

/-- What security findings come to. -/
def securityFacts (a : RuledAnalyzer) (found : List Finding) : Except Misuse Dict := do
  if a.kind == .security then
    let compliance ← a.book.compliance found
    let rate ← Risk.falsePositiveRate (.list (found.map fun f => .float f.confidence))
    return [("compliance", .dict compliance), ("false_positive_rate", .float rate)]
  else return []

/-- What the analyzer finds in a file. -/
def analyze (a : RuledAnalyzer) (file : SourceFile) : Except Misuse Outcome := do
  let (s, trail) := a.book.sweep file
  let first := if a.kind == .syntactic then file.faults.map (parseFinding file.path) else []
  let found := first ++ (← arrange a.kind s.findings)
  return {
    analyzer := a.kind.name
    filePath := file.path
    findings := found
    warnings := s.tally.failures.map fun failure => .str ("Rule failed: " ++ failure)
    metadata := facts a file s trail ++ (← securityFacts a found) }

end RuledAnalyzer

end PhpAudit
