/-
Code injection: PHP code that is put together and evaluated at run time.
-/

import PhpAudit.Security.Input
import PhpAudit.Rule.Guard

set_option autoImplicit false

namespace PhpAudit.Security.Code

open Php

/-- The delimiter that closes a pattern opened by a character. -/
def closing : Char → Char
  | '(' => ')'
  | '\x7b' => '\x7d'
  | '[' => ']'
  | '<' => '>'
  | c => c

/-- Whether the text of a pattern has the modifier `e` behind its closing delimiter, which must not
be the character that opens it. -/
def evalModifierIn (content : List Char) : Bool :=
  match content with
  | [] | [_] => false
  | opening :: rest =>
    if Text.isAlphanumeric opening || opening == '\\' then false
    else (Text.behindLast? [closing opening] rest).any fun modifiers => modifiers.contains 'e'

/-- Whether a pattern asks for its replacement to be evaluated. -/
def hasEvalModifier (n : Node) : Bool :=
  let pattern := unwrap n
  isString pattern && evalModifierIn (stringContent pattern).toList

/-- The report of a call by its name. -/
def about (name description : String) : Rule.Suspicion :=
  { title := "Code Injection", description, metadata := [("function", .str name)] }

/-- The evidence that an evaluation gives. -/
def evalEvidence (first : Option Node) : Evidence :=
  match first.filter isDynamic with
  | some value => (describeInput value).add "eval" 0.3
  | none => Evidence.add {} "eval" 0.5 "eval() executes arbitrary PHP code."

/-- The evidence that an assertion of a text gives. -/
def assertEvidence (target : Node) : Evidence :=
  let built : Evidence :=
    Evidence.add {} "string_assertion" 0.7 "assert() evaluates string arguments as code."
  if readsRequest target then built.add "user_input" 0.3 else built

/-- What a call is suspected of. -/
def inspect : Rule.Inspection := fun _ n _ =>
  let name := callName n
  let first := argument? n 0
  .ok (
    if name == "eval" then some (about name "eval() executes PHP code.", evalEvidence first)
    else if name == "assert" && first.isSome then
      match first.map unwrap with
      | some target =>
        if isString target || isVariable target then
          some (about name "assert() called with a string expression.", assertEvidence target)
        else none
      | none => none
    else if name == "create_function" then
      some (about name "create_function() builds functions from strings.",
        Evidence.add {} "create_function" 0.8 "create_function() compiles code with eval().")
    else if name == "preg_replace" && first.any hasEvalModifier then
      some (about name "preg_replace() uses the deprecated /e modifier.",
        Evidence.add {} "eval_modifier" 0.9
          "The /e modifier evaluates the replacement as PHP code.")
    else none)

/-- PHP code evaluated at run time. -/
def rule : Rule :=
  Rule.guarded
    { id := "code_injection"
      name := "Code Injection"
      description := "Dynamic evaluation of PHP code"
      nodeKinds := ["function_call_expression"] }
    { vulnerability := "code_injection"
      owasp := .injection
      risk := .critical
      cweIds := [.int 94, .int 95]
      falsePositives := .float 0.1
      remediation := [
        "Remove eval() and create_function(); dispatch through an allowlist of callables",
        "Use preg_replace_callback() instead of the /e modifier"] }
    [] (fun _ => []) inspect

end PhpAudit.Security.Code
