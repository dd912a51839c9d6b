/-
Rules: what is looked for at the nodes of a tree.

A rule has a profile, which never changes, and settings, which users may override.  It is asked
about one node at a time, together with the file and the trail of the walk, and answers with
findings or fails.

* `Rule.Profile`, `Rule.Security` — what a rule is about, and what security rules add;
* `Rule.Site` — where a rule is asked;
* `Rule.Fault` — why a rule failed at a node;
* `Rule` — the rule with its settings;
* `Rule.Problem`, `Rule.problems`, `Rule.configure` — checking new settings and taking them over;
* `Rule.metadata`, `Rule.tags` — what is told about a rule.
-/

import PhpAudit.Finding.Dict
import PhpAudit.Owasp.Category
import PhpAudit.SourceFile
import PhpAudit.Walk.Trail

set_option autoImplicit false

namespace PhpAudit

/-- The order in which security rules of a risk level are asked: the greater number first. -/
def Severity.riskPriority : Severity → Nat
  | .critical => 100
  | .high => 80
  | .medium => 60
  | .low => 40
  | .info => 20

/-- What a security rule is about. -/
structure Rule.Security where
  vulnerability : String
  owasp : Owasp.Category
  risk : Severity
  cweIds : List Value := []
  falsePositives : Number := .float 0.1
  remediation : List String := []

/-- What a rule is about. -/
structure Rule.Profile where
  id : String
  name : String
  description : String := ""
  category : String := "quality"
  /-- The severity, unless a risk level gives it. -/
  ownSeverity : String := "medium"
  /-- The kinds of nodes that the rule is asked about; a star stands for all. -/
  nodeKinds : List String
  ownTags : List String := []
  security : Option Rule.Security := none
  /-- The name under which the rule is refused if it has no identifier. -/
  label : String := id

/-- Where a rule is asked: the file and the way from the root down to the node. -/
structure Rule.Site where
  file : SourceFile
  trail : Walk.Trail

/-- Why a rule failed at a node. -/
inductive Rule.Fault where
  | misuse (cause : Misuse)
  | finding (cause : Finding.Error)
  | raised (message : String)

/-- The wording of each cause. -/
def Rule.Fault.message : Rule.Fault → String
  | misuse cause => cause.message
  | finding cause => cause.message
  | raised message => message

/-- What comes up when settings are checked: something is wrong with them, or the check itself
fails. -/
inductive Rule.Problem where
  | remark (text : String)
  | failure (cause : Misuse)

/-- A rule with its settings. -/
structure Rule where
  profile : Rule.Profile
  /-- The settings when nothing is overridden. -/
  defaults : Dict := []
  settings : Dict := defaults
  enabled : Bool := true
  /-- What is wrong with settings, beyond what all rules check. -/
  ownProblems : Dict → List Rule.Problem := fun _ => []
  /-- The findings at a node under the given settings. -/
  check : Dict → Node → Rule.Site → Except Rule.Fault (List Finding)

namespace Rule

/-! ### Profiles -/

namespace Profile

/-- The severity of a security rule is its risk level. -/
def severity (p : Profile) : String :=
  (p.security.map fun s => s.risk.name).getD p.ownSeverity

/-- The priority of a rule: that of its risk level, or ten times that of its severity. -/
def priority (p : Profile) : Nat :=
  match p.security with
  | some s => s.risk.riskPriority
  | none => Severity.priorityOf p.severity * 10

/-- Whether the rule is asked about nodes of a kind. -/
def appliesTo (p : Profile) (kind : String) : Bool :=
  p.nodeKinds.contains "*" || p.nodeKinds.contains kind

/-- The tags of the rule's findings. -/
def tags (p : Profile) : List String :=
  match p.security with
  | some s =>
    ["security", s.vulnerability, "owasp", s.owasp.code] ++
      s.cweIds.map (fun id => "cwe-" ++ id.plain) ++ p.ownTags
  | none => p.ownTags

/-- The name under which a rule is registered or refused. -/
def key (p : Profile) : String :=
  if p.id == "" then p.label else p.id

end Profile

/-! ### Settings -/

/-- The value of a setting. -/
def setting (settings : Dict) (key : String) (default : Value) : Value :=
  Assoc.getD settings key default

/-- Settings that all security rules share. -/
def securityDefaults : Dict :=
  [("strict_mode", .bool false),
   ("risk_threshold", .str "medium"),
   ("context_aware", .bool true),
   ("exclude_test_files", .bool true),
   ("confidence_threshold", .float 0.5),
   ("test_file_patterns",
     .ofTexts ["*Test.php", "*_test.php", "tests/*", "test/*", "*/tests/*", "*/test/*"]),
   ("test_class_suffixes", .ofTexts ["Test", "TestCase"])]

/-- The text of a problem. -/
def Problem.text : Problem → String
  | remark text => text
  | failure cause => cause.message

/-- Why the check itself failed, if it did. -/
def Problem.cause? : Problem → Option Misuse
  | remark _ => none
  | failure cause => some cause

/-- A problem if a setting is there and fails a test. -/
def problemIf (settings : Dict) (key : String) (bad : Value → Bool) (message : String) :
    List Problem :=
  match Assoc.get? settings key with
  | some v => if bad v then [.remark message] else []
  | none => []

/-- Whether a value is a number between zero and one; truth values do not count. -/
def isShare (v : Value) : Bool :=
  match v with
  | .bool _ => false
  | other =>
    match other.number? with
    | some n => (Number.float 0.0).le n && n.le (.float 1.0)
    | none => false

/-- What is wrong with the settings of any security rule. -/
def securityProblems (settings : Dict) : List Problem :=
  problemIf settings "risk_threshold"
      (fun v => !(v.str?.any fun s => (Severity.ofName? s).isSome))
      ("risk_threshold must be one of: " ++ Severity.names) ++
    problemIf settings "strict_mode" (fun v => !v.isBool) "strict_mode must be a boolean" ++
    problemIf settings "confidence_threshold" (fun v => !isShare v)
      "confidence_threshold must be a number between 0 and 1"

/-- Everything that is wrong with settings for the rule. -/
def problems (r : Rule) (settings : Dict) : List Problem :=
  problemIf settings "enabled" (fun v => !v.isBool) "enabled must be a boolean" ++
    (if r.profile.security.isSome then securityProblems settings else []) ++
    r.ownProblems settings

/-- The rule with settings put over its defaults, or what is wrong with them. -/
def configure (r : Rule) (settings : Dict) : Except (List Problem) Rule :=
  match r.problems settings with
  | [] =>
    .ok { r with
      settings := Assoc.update r.defaults (Assoc.erase settings "enabled")
      enabled := (Assoc.get? settings "enabled").elim r.enabled Value.truthy }
  | found => .error found

/-- The wording for refused settings. -/
def refusal (id : String) (found : List String) : String :=
  s!"Invalid configuration for rule {id}: " ++ "; ".intercalate found

/-- The rule with settings, none at all meaning the defaults. -/
def configured (r : Rule) (settings : Dict) : Except (List Problem) Rule :=
  if settings.isEmpty then .ok r else r.configure settings

/-! ### What is told about a rule -/

/-- The facts about a rule as a dictionary. -/
def metadata (r : Rule) : Dict :=
  let general : Dict :=
    [("rule_id", r.profile.id),
     ("name", r.profile.name),
     ("description", r.profile.description),
     ("category", r.profile.category),
     ("severity", r.profile.severity),
     ("priority", .nat r.profile.priority),
     ("node_types", .ofTexts r.profile.nodeKinds),
     ("enabled", .bool r.enabled)]
  let special (s : Security) : Dict :=
    [("vulnerability_type", s.vulnerability),
     ("owasp_category", s.owasp.code),
     ("risk_level", s.risk.name),
     ("cwe_ids", .list s.cweIds),
     ("false_positive_probability", .ofNumber s.falsePositives)]
  general ++ (r.profile.security.map special).getD []

end Rule

end PhpAudit
