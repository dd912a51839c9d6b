/-
Command injection: shell commands built from values known only at run time.
-/

import PhpAudit.Security.Input
import PhpAudit.Rule.Guard

set_option autoImplicit false

namespace PhpAudit.Security.Command

open Php

/-- Functions that run a command of the shell. -/
def shellFunctions : List String :=
  ["exec", "system", "passthru", "shell_exec", "popen", "proc_open", "pcntl_exec"]

/-- Functions that make a value safe inside a command. -/
def escapeFunctions : List String :=
  ["escapeshellarg", "escapeshellcmd", "intval"]

/-- The evidence that a command between backticks gives. -/
def backtickEvidence (n : Node) : Evidence :=
  if n.containsKind ["variable_name", "subscript_expression", "member_access_expression"] then
    let built : Evidence :=
      Evidence.add {} "variable_interpolation" 0.8 "Backtick command interpolates variables."
    if readsRequest n then built.add "user_input" 0.2 else built
  else {}

/-- Whether a command is fixed, or made of escaped parts only. -/
def isSafe (command : Node) : Bool :=
  isLiteral command || isCallOf escapeFunctions command ||
    (isConcatenation command && allSanitized escapeFunctions command)

/-- What a call is suspected of. -/
def inspectCall (n : Node) : Option (Rule.Suspicion × Evidence) :=
  let name := callName n
  if !shellFunctions.contains name then none
  else
    match argument? n 0 with
    | none => none
    | some command =>
      if isSafe command then none
      else
        some ({ title := "Command Injection"
                description := s!"{name}() executes a shell command built from runtime values."
                metadata := [("function", .str name)] }, describeInput command)

/-- What a node is suspected of. -/
def inspect : Rule.Inspection := fun _ n _ =>
  .ok (if n.kind == "shell_command_expression" then
    some ({ title := "Command Injection"
            description := "Backtick operator executes a shell command built at runtime."
            metadata := [("function", .str "backtick")] }, backtickEvidence n)
  else inspectCall n)

/-- Shell commands built from values known only at run time. -/
def rule : Rule :=
  Rule.guarded
    { id := "command_injection"
      name := "Command Injection"
      description := "Operating system command built from untrusted input"
      nodeKinds := ["function_call_expression", "shell_command_expression"] }
    { vulnerability := "command_injection"
      owasp := .injection
      risk := .critical
      cweIds := [.int 78]
      falsePositives := .float 0.1
      remediation := ["Avoid shell execution; use native PHP functions instead",
        "Escape every argument with escapeshellarg()"] }
    [] (fun _ => []) inspect

end PhpAudit.Security.Command
