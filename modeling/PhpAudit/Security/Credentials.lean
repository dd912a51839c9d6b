/-
Hardcoded credentials: secrets written into the source as string literals.
-/

import PhpAudit.Php.Expressions
import PhpAudit.Pattern.Reader
import PhpAudit.Rule.Guard

set_option autoImplicit false

namespace PhpAudit.Security.Credentials

open Php

/-- How the name of a secret ends. -/
def nameEnding : String :=
  "(passw(or)?d|passwd|pwd|secret|api_?key|apikey|auth_?token|access_?token|token|private_?key|" ++
    "access_?key)$"

/-- Whether a name ends like that of a secret, in any case. -/
def namesSecret (name : String) : Bool :=
  match Pattern.parse nameEnding with
  | .ok p => p.found { ignoreCase := true } name
  | .error _ => false

/-- The two sides of an assignment or of an element, comments left out. -/
def sides? (n : Node) : Option (Node × Node) :=
  if n.kind == "assignment_expression" then do
    let left ← n.childByField? "left"
    let right ← n.childByField? "right"
    return (left, right)
  else
    match n.children.filter fun c => c.kind != "comment" with
    | left :: second :: rest =>
      let last := rest.getLast?.getD second
      let value :=
        if last.kind == "property_initializer" then last.children.getLast?.getD last else last
      some (left, value)
    | _ => none

/-- What is assigned and the string literal that is assigned to it. -/
def targetAndValue? (n : Node) : Option (Node × Node) := do
  let (left, given) ← sides? n
  let right := unwrap given
  if !isString right || hasInterpolation right then none
  else if n.kind == "array_element_initializer" && !isString (unwrap left) then none
  else some (left, right)

/-- The name of what is assigned. -/
def targetName (n target : Node) : String :=
  if n.kind == "assignment_expression" && target.kind == "subscript_expression" then
    match target.children.getLast? with
    | some index => stringContent index
    | none => ""
  else
    Text.afterLast
      (Text.afterLast (Text.trimOf target.text ['\x27', '\x22', '$']) "->") "::"

/-- The least length of a secret. -/
def minLength (settings : Dict) : Int :=
  ((Rule.setting settings "min_length" (.int 4)).int?).getD 4

/-- The evidence that a secret gives. -/
def evidence (name secret : String) : Evidence :=
  let built : Evidence :=
    Evidence.add {} "literal_secret" 0.7 ("'" ++ name ++ "' is assigned a literal value.")
  if 12 ≤ secret.length then built.add "high_entropy_length" 0.1 else built

/-- What an assignment is suspected of. -/
def inspect : Rule.Inspection := fun settings n _ => do
  match targetAndValue? n with
  | none => return none
  | some (target, value) =>
    let name := targetName n target
    let secret := stringContent value
    if !namesSecret name then return none
    else if (secret.length : Int) < minLength settings then return none
    else if ← (Rule.setting settings "ignored_values" (.list [])).holds (Text.lower secret) then
      return none
    else
      return some ({ title := "Hardcoded Credentials"
                     description := "Credential '" ++ name ++ "' is hardcoded in source."
                     metadata := [("name", .str name)] }, evidence name secret)

/-- What is wrong with settings of this rule. -/
def ownProblems (settings : Dict) : List Rule.Problem :=
  Rule.problemIf settings "min_length" (fun v => !(v.int?.any fun n => decide (0 ≤ n)))
    "min_length must be a non-negative integer"

/-- Secrets written into the source. -/
def rule : Rule :=
  Rule.guarded
    { id := "hardcoded_credentials"
      name := "Hardcoded Credentials"
      description := "Secret stored as a string literal in source code"
      nodeKinds := ["assignment_expression", "property_element", "const_element",
        "array_element_initializer"] }
    { vulnerability := "hardcoded_credentials"
      owasp := .authentication
      risk := .high
      cweIds := [.int 798]
      falsePositives := .float 0.3
      remediation := ["Load secrets from environment variables or a secrets manager",
        "Rotate any credential that was committed"] }
    [("min_length", .int 4),
     ("ignored_values", .ofTexts ["", "changeme", "password", "secret", "xxx", "null"])]
    ownProblems inspect

end PhpAudit.Security.Credentials
