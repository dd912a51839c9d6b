/-
Whether a rule is well defined.

Before a rule is registered its identifier, severity, kinds of nodes, security facts and settings
are looked over.
-/

import PhpAudit.Rule.Basic

set_option autoImplicit false

namespace PhpAudit.Rule

/-- What is wrong with a rule, and what is only unusual. -/
structure Validity where
  errors : List Problem
  warnings : List String

/-- Whether a text has letters and digits only, and at least one. -/
def allAlphanumeric (s : String) : Bool :=
  s != "" && s.toList.all Text.isAlphanumeric

/-- Looking over an identifier. -/
def idValidity (id : String) : Validity :=
  if Text.trim id == "" then ⟨[.remark "Rule ID must be a non-empty string"], []⟩
  else if 50 < id.length then ⟨[.remark "Rule ID must be 50 characters or less"], []⟩
  else if allAlphanumeric (Text.replace (Text.replace id "_" "") "-" "") then ⟨[], []⟩
  else
    ⟨[], ["Rule ID should contain only alphanumeric characters, hyphens, and underscores"]⟩

/-- Whether a value is a whole number above zero, truth values included. -/
def isPositive (v : Value) : Bool :=
  v.int?.any fun n => decide (0 < n)

/-- What is wrong with the facts of a security rule. -/
def securityErrors (s : Security) : List Problem :=
  (if s.vulnerability == "" then [.remark "Security rules must declare a vulnerability type"]
    else []) ++
  (if s.cweIds.all isPositive then [] else [.remark "CWE identifiers must be positive integers"]) ++
  (if (Number.float 0.0).le s.falsePositives && s.falsePositives.le (.float 1.0) then []
    else [.remark "false_positive_probability must be between 0 and 1"])

/-- Looking a rule over: its profile, then the settings that it has now. -/
def validity (r : Rule) : Validity :=
  let id := idValidity r.profile.id
  { errors :=
      id.errors ++
      (if (Severity.ofName? r.profile.severity).isSome then []
        else [.remark ("Invalid severity: " ++ r.profile.severity ++ ". Must be one of " ++
          (Value.ofTexts (Severity.all.map Severity.name)).quoted)]) ++
      (if r.profile.nodeKinds.isEmpty then
        [.remark "Rule must declare at least one supported node type"]
        else []) ++
      (match r.profile.security with
        | some s => securityErrors s
        | none => []) ++
      r.problems r.settings
    warnings := id.warnings }

end PhpAudit.Rule
