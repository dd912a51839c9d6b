/-
Kinds of nodes in trees of PHP.

Rules speak of groups of kinds: calls, loops, functions, strings.  The groups are lists in
alphabetical order, which is also the order in which rules declare them.
-/

set_option autoImplicit false

namespace PhpAudit.Php

/-- Calls of functions and of methods. -/
def callKinds : List String :=
  ["function_call_expression", "member_call_expression", "nullsafe_member_call_expression",
   "scoped_call_expression"]

/-- Nodes with a scope of their own for variables. -/
def scopeKinds : List String :=
  ["anonymous_function", "anonymous_function_creation_expression", "arrow_function",
   "function_definition", "method_declaration"]

/-- Loops. -/
def loopKinds : List String :=
  ["do_statement", "for_statement", "foreach_statement", "while_statement"]

/-- String literals. -/
def stringKinds : List String :=
  ["encapsed_string", "heredoc", "nowdoc", "string"]

/-- String literals in which variables are replaced by their values. -/
def templateKinds : List String :=
  ["encapsed_string", "heredoc"]

/-- Inclusions of another file. -/
def includeKinds : List String :=
  ["include_expression", "include_once_expression", "require_expression", "require_once_expression"]

/-- Variables that the language itself fills. -/
def superglobals : List String :=
  ["$_GET", "$_POST", "$_REQUEST", "$_COOKIE", "$_FILES", "$_SERVER", "$_ENV", "$GLOBALS",
   "$_SESSION"]

/-- Those of them whose content the sender of a request chooses. -/
def requestVariables : List String :=
  ["$_GET", "$_POST", "$_REQUEST", "$_COOKIE", "$_FILES", "$_SERVER"]

end PhpAudit.Php
