/-
What all security rules have in common: they are silent in test code, and they report only what
they are confident enough about.
-/

import PhpAudit.Rule.Draft
import PhpAudit.Glob

set_option autoImplicit false

namespace PhpAudit.Rule

/-! ### Test code -/

/-- Whether a path fits one of the patterns; a pattern that is no text is a misuse. -/
def fitsPattern (path : String) : List Value → Except Misuse Bool
  | [] => .ok false
  | .str pattern :: rest => if Glob.accepts pattern path then .ok true else fitsPattern path rest
  | other :: _ => .error (.notPath other.kindName)

/-- Whether a name ends in one of the suffixes; a suffix that is no text is a misuse. -/
def hasSuffix (name : String) : List Value → Except Misuse Bool
  | [] => .ok false
  | .str suffix :: rest => if Text.endsWith name suffix then .ok true else hasSuffix name rest
  | other :: _ => .error (.notSuffix other.kindName)

/-- Whether the node is a class whose name ends in one of the suffixes. -/
def isTestClass (suffixes : List Value) (n : Node) : Except Misuse Bool :=
  if n.kind == "class_declaration" then
    match n.childByField? "name" with
    | some name => hasSuffix name.text suffixes
    | none => .ok false
  else .ok false

/-- Whether one of the nodes is a class for tests. -/
def anyTestClass (suffixes : List Value) : List Node → Except Misuse Bool
  | [] => .ok false
  | n :: rest => do if ← isTestClass suffixes n then return true else anyTestClass suffixes rest

/-- Whether the place is in a test file or in a class for tests. -/
def inTestCode (settings : Dict) (site : Site) : Except Misuse Bool := do
  if !(setting settings "exclude_test_files" (.bool true)).truthy then return false
  let patterns ← (setting settings "test_file_patterns" (.list [])).items
  if ← fitsPattern (Text.replace site.file.path "\\" "/") patterns then return true
  if !(setting settings "context_aware" (.bool true)).truthy then return false
  let suffixes ← (setting settings "test_class_suffixes" (.list [])).items
  anyTestClass suffixes site.trail.ancestors

/-! ### Confidence -/

/-- Whether there is any risk, and unless the rule is strict, enough confidence in it. -/
def meetsConfidence (settings : Dict) (e : Evidence) : Bool :=
  if (setting settings "strict_mode" (.bool false)).truthy then e.hasRisk
  else
    e.hasRisk &&
      match (setting settings "confidence_threshold" (.float 0.5)).number? with
      | some threshold => threshold.le (.float e.confidence)
      | none => false

/-! ### Security rules -/

/-- Reports a suspicion that meets the confidence; its description ends with that of the
evidence. -/
def report (p : Profile) (s : Security) (settings : Dict) (n : Node) (site : Site)
    (x : Suspicion) (e : Evidence) : Except Fault (List Finding) :=
  if meetsConfidence settings e then do
    let found ← (p.securityFinding s
      { x with
        description := .str (Text.trim (x.description.plain ++ " " ++ e.description))
        evidence := some e }
      n site).mapError .finding
    return [found]
  else .ok []

/-- What an inspection suspects at a node, with the evidence for it. -/
abbrev Inspection := Dict → Node → Site → Except Misuse (Option (Suspicion × Evidence))

/-- The check of a security rule: nothing in test code, otherwise what the inspection suspects with
enough confidence. -/
def guardedCheck (p : Profile) (s : Security) (inspect : Inspection) (settings : Dict) (n : Node)
    (site : Site) : Except Fault (List Finding) := do
  if ← (inTestCode settings site).mapError .misuse then return []
  match ← (inspect settings n site).mapError .misuse with
  | some (x, e) => report p s settings n site x e
  | none => return []

/-- A security rule from its profile, its own settings and its inspection. -/
def guarded (p : Profile) (s : Security) (own : Dict) (ownProblems : Dict → List Problem)
    (inspect : Inspection) : Rule :=
  let profile := { p with category := "security", security := some s }
  { profile
    defaults := Assoc.update securityDefaults own
    ownProblems
    check := guardedCheck profile s inspect }

end PhpAudit.Rule
