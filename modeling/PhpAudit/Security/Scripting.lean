/-
Cross-site scripting: request data that is written to the page as it came.
-/

import PhpAudit.Php.Taint
import PhpAudit.Rule.Guard

set_option autoImplicit false

namespace PhpAudit.Security.Scripting

open Php

/-- Functions that make a value safe on a page. -/
def escapeFunctions : List String :=
  ["htmlspecialchars", "htmlentities", "strip_tags", "intval", "floatval", "json_encode",
   "urlencode", "rawurlencode", "esc_html", "esc_attr"]

/-- What an output statement is suspected of. -/
def inspect : Rule.Inspection := fun _ n _ =>
  .ok (if tainted escapeFunctions n then
    let statement := if n.kind == "echo_statement" then "echo" else "print"
    some ({ title := "Cross-Site Scripting"
            description := s!"{statement} outputs request data without HTML encoding."
            metadata := [("statement", .str statement)] },
      Evidence.add {} "user_input" 0.8 "Request data is written to the page unescaped.")
  else none)

/-- Request data written to the page as it came. -/
def rule : Rule :=
  Rule.guarded
    { id := "xss"
      name := "Cross-Site Scripting"
      description := "Request data written to the response without escaping"
      nodeKinds := ["echo_statement", "print_intrinsic"] }
    { vulnerability := "xss"
      owasp := .injection
      risk := .medium
      cweIds := [.int 79]
      falsePositives := .float 0.2
      remediation := ["Escape output with htmlspecialchars($value, ENT_QUOTES, 'UTF-8')"] }
    [] (fun _ => []) inspect

end PhpAudit.Security.Scripting
