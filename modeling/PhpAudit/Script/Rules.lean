/-
Described rules.

* `Script.builtInRules` — all rules of the library;
* `Script.plainRule`, `Script.securityRule` — rules that report what their description says;
* `Script.rule`, `Script.addRule` — a built-in or a described rule with its settings;
* `Script.forced` — a rule with parts replaced from outside.
-/

import PhpAudit.Fault
import PhpAudit.Quality.Rules
import PhpAudit.Rule.Book
import PhpAudit.Script.Lines
import PhpAudit.Security.Rules

set_option autoImplicit false

namespace PhpAudit.Script

/-- All rules of the library. -/
def builtInRules : List Rule :=
  Security.rules ++ Quality.syntaxRules ++ Quality.qualityRules ++ Quality.performanceRules

/-- The finding that a description asks for.  Its severity and its category are looked at first,
then its other parts in the order in which a finding lists them. -/
def draft (p : Rule.Profile) (spec : Value) : Except Rule.Fault Rule.Draft := do
  let issue := field spec "issue"
  let severity := field issue "severity"
  let _ ← (Finding.readSeverity (if severity.truthy then severity else .str p.severity)).mapError
    .finding
  let _ ← (Finding.readCategory (.str p.category)).mapError .finding
  let suggestions ← (field issue "suggestions").itemsOrEmpty.mapError .misuse
  let metadata ← (field issue "metadata").toDict.mapError .misuse
  let confidence ← (fieldOr issue "confidence" (.float 1.0)).toFloat.mapError .misuse
  return {
    title := fieldOr spec "title" (.str (textOr spec "rule_id" "" ++ " finding"))
    description := fieldOr spec "text" "found"
    severity := severity.str?
    suggestions
    metadata
    confidence
    line := if (field issue "line").isNull then none else some 0 }

/-- Refuses a description that sets a part which the call of a rule does not take, or which it gives
itself. -/
def onlyParts (call : String) (given taken : List String) (spec : Value) :
    Except Rule.Fault Unit :=
  (entries (field spec "issue")).forM fun e =>
    let name := e.1.plain
    if given.contains name then
      .error (.raised s!"{call}() got multiple values for argument '{name}'")
    else if taken.contains name then .ok ()
    else .error (.raised s!"{call}() got an unexpected keyword argument '{name}'")

/-- The parts of a finding that the call of a rule gives itself. -/
def givenParts : List String :=
  ["self", "title", "description", "node", "context"]

/-- A finding at the line that a description asks for, with the lines around it. -/
def placed (found : Finding) (spec : Value) (n : Node) (site : Rule.Site) :
    Except Misuse Finding := do
  let line := field (field spec "issue") "line"
  let first := if line.isNull then .int n.span.startLine else line
  let last := if line.isNull then .int n.span.endLine else line
  let context := fieldOr (field spec "issue") "snippet_context" (.int 1)
  let shown ← snippet site.file first last context
  return { found with line := first, endLine := last, codeSnippet := .str shown }

/-- The profile that a description gives, without what depends on the kind of rule. -/
def profile (spec : Value) (category severity label : String) : Rule.Profile :=
  { id := textOr spec "rule_id" ""
    name := textOr spec "name" ""
    description := textOr spec "description" ""
    category
    ownSeverity := severity
    nodeKinds := texts (fieldOr spec "node_types" (.ofTexts ["statement"]))
    ownTags := texts (field spec "tags")
    label }

/-- What a described rule does before it looks at anything: it may break down, or have nothing to
say. -/
def isSilent (spec : Value) : Except Rule.Fault Bool :=
  match spec.field? "explode" with
  | some m => .error (.raised m.plain)
  | none => .ok (boolOr spec "none" false)

/-- A rule that reports what its description says. -/
def plainRule (spec : Value) : Rule :=
  let p := profile spec (textOr spec "category" "quality") (textOr spec "severity" "medium")
    "ScriptedRule"
  { profile := p
    defaults := entries (field spec "defaults")
    check := fun _ n site => do
      if ← isSilent spec then return []
      onlyParts "BaseRule.create_issue" givenParts
        ["severity", "suggestions", "metadata", "confidence", "line", "snippet_context"] spec
      let _ ← (placed default spec n site).mapError .misuse
      let found ← (p.finding (← draft p spec) n site).mapError .finding
      return [← (placed found spec n site).mapError .misuse] }

/-- Evidence with one more factor, which is given as a list of its name, its weight and maybe a
text. -/
def addFactor (e : Evidence) (given : Value) : Except Fault Evidence := do
  let parts ← given.items.mapError Misuse.fault
  let refused (what : String) : Fault := ⟨"TypeError", "RiskRecord.add_factor() " ++ what⟩
  match parts with
  | [] => throw (refused "missing 2 required positional arguments: 'factor' and 'weight'")
  | [_] => throw (refused "missing 1 required positional argument: 'weight'")
  | factor :: weight :: more =>
    if 1 < more.length then
      throw (refused s!"takes from 3 to 4 positional arguments but {more.length + 3} were given")
    let sum ← ((Value.float e.confidence).plus weight).mapError Misuse.fault
    let text := more.head?.getD ""
    let weightier := e.add factor 0.0 (if text.truthy then text.plain else "")
    let confidence := (sum.number?.getD (.int 0)).nearFloat
    return { weightier with confidence := Evidence.capped (Decimal.round confidence 6) }

/-- The evidence that a description lists. -/
def evidence (factors : Value) : Except Fault Evidence :=
  (items factors).foldlM addFactor {}

/-- The double that says how often a rule is wrong. -/
def probability (v : Value) : Except Fault Number :=
  match v.number? with
  | some n => .ok n
  | none => .error (Misuse.unordered "<=" "float" v.kindName).fault

/-- A security rule that reports what its description says. -/
def securityRule (spec : Value) : Except Fault Rule := do
  let risk ← match Severity.ofName? (textOr spec "risk_level" "medium") with
    | some r => pure r
    | none => throw ⟨"ValueError", (field spec "risk_level").quoted ++ " is not a valid RiskLevel"⟩
  let owasp ← match Owasp.Category.ofCode? (textOr spec "owasp" "A03") with
    | some c => pure c
    | none => throw ⟨"ValueError", (field spec "owasp").quoted ++ " is not a valid OwaspCategory"⟩
  let cweIds ← (fieldOr spec "cwe_ids" (.list [])).items.mapError Misuse.fault
  let falsePositives ← probability (fieldOr spec "false_positive_probability" (.float 0.1))
  let security : Rule.Security :=
    { vulnerability := textOr spec "vulnerability_type" ""
      owasp
      risk
      cweIds
      falsePositives
      remediation := texts (field spec "remediation") }
  let p :=
    { profile spec "security" "" "ScriptedSecurityRule" with security := some security }
  return {
    profile := p
    defaults := Assoc.update Rule.securityDefaults (entries (field spec "defaults"))
    check := fun settings n site => do
      if ← isSilent spec then return []
      if ← (Rule.inTestCode settings site).mapError .misuse then return []
      let found ← match spec.field? "factors" with
        | some factors => ((evidence factors).map some).mapError fun f => .raised f.text
        | none => pure none
      if found.any fun e => !Rule.meetsConfidence settings e then return []
      onlyParts "BaseSecurityRule.create_security_issue" (givenParts ++ ["risk"])
        ["severity", "suggestions", "metadata"] spec
      let metadata ← (field (field spec "issue") "metadata").toDict.mapError .misuse
      let suggestions ← (field (field spec "issue") "suggestions").itemsOrEmpty.mapError .misuse
      let d ← draft p spec
      let suspicion : Rule.Suspicion :=
        { title := d.title, description := d.description, evidence := found, severity := d.severity
          suggestions, metadata }
      return [← (p.securityFinding security suspicion n site).mapError .finding] }

/-- The fault of settings that a rule refuses. -/
def refusedSettings (id : String) (found : List Rule.Problem) : Fault :=
  match found.findSome? Rule.Problem.cause? with
  | some cause => cause.fault
  | none => ⟨"RuleConfigError", Rule.refusal id (found.map Rule.Problem.text)⟩

/-- The entries of settings for a rule.  What is no dictionary is asked for what the rule looks at
first. -/
def settingsFor (r : Rule) (v : Value) : Except Misuse Dict := do
  let isSecurity := r.profile.security.isSome
  if let .dict es := v then return es
  let asked := "enabled" :: if isSecurity then ["risk_threshold", "strict_mode"] else []
  for key in asked do
    if ← v.holds key then let _ ← v.entry key
  v.entries (if isSecurity then "get" else "items")

/-- The same where a value that counts as false stands for no settings. -/
def settingsIfAny (r : Rule) (v : Value) : Except Fault Dict :=
  if v.truthy then (settingsFor r v).mapError Misuse.fault else .ok []

/-- The built-in rule of an identifier, or the rule that is described, with the settings given. -/
def rule (spec : Value) : Except Fault Rule := do
  let base ← match spec.field? "builtin" with
    | some id =>
      match builtInRules.find? fun r => r.profile.id == text id with
      | some r => pure r
      | none => throw ⟨"KeyError", id.quoted⟩
    | none => if boolOr spec "security" false then securityRule spec else pure (plainRule spec)
  let settings ← settingsIfAny base (field spec "config")
  (base.configured settings).mapError (refusedSettings base.profile.id)

/-- A book with one more rule, and whether it was taken. -/
def addRule (b : RuleBook) (spec settings : Value) : Except Fault (Bool × RuleBook) := do
  let r ← rule spec
  if b.securityOnly && r.profile.security.isNone then return (false, b)
  let done := b.add r (← settingsIfAny r settings)
  match done.failure with
  | some cause => throw cause.fault
  | none => return (done.taken, done.book)

/-- A rule with new settings. -/
def configureRule (r : Rule) (settings : Value) : Except Fault Rule := do
  let given ← (settingsFor r settings).mapError Misuse.fault
  (r.configure given).mapError (refusedSettings r.profile.id)

/-- The facts of a security rule with one replaced from outside. -/
def forcedSecurity (s : Rule.Security) (key : String) (v : Value) : Except Fault Rule.Security :=
  match key with
  | "vulnerability_type" => .ok { s with vulnerability := if v.truthy then v.plain else "" }
  | "cwe_ids" => (v.items.mapError Misuse.fault).map fun ids => { s with cweIds := ids }
  | "false_positive_probability" => (probability v).map fun n => { s with falsePositives := n }
  | _ => .ok s

/-- A rule with one part replaced from outside. -/
def forcedPart (r : Rule) (key : String) (v : Value) : Except Fault Rule :=
  match key with
  | "rule_id" => .ok { r with profile := { r.profile with id := text v } }
  | "severity" =>
    match r.profile.security with
    | some _ =>
      .error ⟨"AttributeError", s!"property 'severity' of '{r.profile.label}' object has no setter"⟩
    | none => .ok { r with profile := { r.profile with ownSeverity := v.plain } }
  | "supported_node_types" =>
    let kinds := if v.truthy && (texts v).isEmpty then [v.plain] else texts v
    .ok { r with profile := { r.profile with nodeKinds := kinds } }
  | "config" => .ok { r with settings := entries v }
  | _ =>
    match r.profile.security with
    | some s => do
      let s ← forcedSecurity s key v
      return { r with profile := { r.profile with security := some s } }
    | none => .ok r

/-- A rule with parts replaced from outside. -/
def forced (r : Rule) (force : Dict) : Except Fault Rule :=
  force.foldlM (fun r e => forcedPart r e.1.plain e.2) r

end PhpAudit.Script
