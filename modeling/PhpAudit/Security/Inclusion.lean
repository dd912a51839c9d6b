/-
File inclusion: including a file whose path is computed at run time.
-/

import PhpAudit.Security.Input
import PhpAudit.Rule.Guard

set_option autoImplicit false

namespace PhpAudit.Security.Inclusion

open Php

/-- Functions whose answer is fixed when their arguments are. -/
def staticFunctions : List String :=
  ["dirname", "basename"]

/-- Whether every expression of a stack is fixed in the source. -/
def staticStack : List Node → Bool
  | [] => true
  | n :: rest =>
    let e := unwrap n
    if isLiteral e ||
        ["name", "qualified_name", "class_constant_access_expression"].contains e.kind then
      staticStack rest
    else if isConcatenation e then staticStack (e.children ++ rest)
    else if isFunctionCall e && staticFunctions.contains (callName e) then
      staticStack (arguments e ++ rest)
    else false
termination_by stack => Node.sizeList stack
decreasing_by
  · have := Node.size_eq n
    simp only [Node.sizeList]
    omega
  · have h₁ := size_unwrap_le n
    have h₂ := Node.size_eq (unwrap n)
    simp only [Node.sizeList_append, Node.sizeList]
    omega
  · have h₁ := size_unwrap_le n
    have h₂ := sizeList_arguments_lt (unwrap n)
    simp only [Node.sizeList_append, Node.sizeList]
    omega

/-- Whether a path is fixed in the source: made of literals and names, joined by concatenation or
taken apart by functions that depend on nothing else. -/
def isStaticPath (n : Node) : Bool :=
  staticStack [n]

/-- The evidence that a computed path gives. -/
def evidence (target : Node) : Evidence :=
  let built : Evidence :=
    Evidence.add {} "dynamic_path" 0.6 "The included path is computed at runtime."
  if readsRequest target then
    built.add "user_input" 0.4 "Request data selects the included file."
  else built

/-- What an inclusion is suspected of. -/
def inspect : Rule.Inspection := fun _ n _ =>
  .ok (match (n.children.filter fun c => c.kind != "comment").head? with
    | none => none
    | some target =>
      if isStaticPath target then none
      else
        let keyword := Text.replace n.kind "_expression" ""
        some ({ title := "File Inclusion"
                description :=
                  s!"{keyword} loads a file whose path is built from runtime values."
                metadata := [("statement", .str keyword)] }, evidence target))

/-- Inclusion of a file whose path is computed at run time. -/
def rule : Rule :=
  Rule.guarded
    { id := "file_inclusion"
      name := "File Inclusion"
      description := "include or require with a dynamic path"
      nodeKinds := includeKinds }
    { vulnerability := "file_inclusion"
      owasp := .injection
      risk := .high
      cweIds := [.int 98]
      falsePositives := .float 0.2
      remediation := ["Include only constant paths",
        "Map user choices onto an allowlist of files"] }
    [] (fun _ => []) inspect

end PhpAudit.Security.Inclusion
