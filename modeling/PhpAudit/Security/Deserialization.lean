/-
Insecure deserialization: turning data that is not fixed into objects.
-/

import PhpAudit.Php.Expressions
import PhpAudit.Rule.Guard

set_option autoImplicit false

namespace PhpAudit.Security.Deserialization

open Php

/-- Whether the options of a call forbid objects. -/
def forbidsObjects (options : Node) : Bool :=
  Text.contains options.text "allowed_classes" && Text.contains (Text.lower options.text) "false"

/-- The evidence that the data gives. -/
def evidence (data : Node) : Evidence :=
  let built : Evidence :=
    Evidence.add {} "dynamic_data" 0.6 "Serialized data is not a constant."
  if readsRequest data then built.add "user_input" 0.3 "Request data is deserialized." else built

/-- What a call is suspected of. -/
def inspect : Rule.Inspection := fun _ n _ =>
  .ok (match argument? n 0 with
    | none => none
    | some data =>
      if callName n != "unserialize" || isLiteral data || (argument? n 1).any forbidsObjects then
        none
      else
        some ({ title := "Insecure Deserialization"
                description := "unserialize() may instantiate attacker chosen objects."
                metadata := [("function", .str "unserialize")] }, evidence data))

/-- Data that is not fixed turned into objects. -/
def rule : Rule :=
  Rule.guarded
    { id := "insecure_deserialization"
      name := "Insecure Deserialization"
      description := "unserialize() of untrusted data"
      nodeKinds := ["function_call_expression"] }
    { vulnerability := "insecure_deserialization"
      owasp := .integrity
      risk := .high
      cweIds := [.int 502]
      falsePositives := .float 0.25
      remediation := ["Use json_decode() for untrusted data",
        "Pass ['allowed_classes' => false] to unserialize()"] }
    [] (fun _ => []) inspect

end PhpAudit.Security.Deserialization
