/-
Path traversal: file access with a path that the sender of a request chooses.
-/

import PhpAudit.Php.Taint
import PhpAudit.Rule.Guard

set_option autoImplicit false

namespace PhpAudit.Security.Traversal

open Php

/-- Functions that take a path. -/
def fileFunctions : List String :=
  ["file_get_contents", "file_put_contents", "fopen", "file", "readfile", "unlink", "copy",
   "rename", "mkdir", "rmdir", "opendir", "scandir", "highlight_file", "show_source",
   "parse_ini_file", "fileperms", "is_readable", "touch", "chmod"]

/-- Functions that make a path safe. -/
def sanitizers : List String :=
  ["basename", "realpath", "intval"]

/-- The evidence that a path gives. -/
def evidence (path : Node) : Evidence :=
  let built : Evidence :=
    Evidence.add {} "user_input" 0.7 "A request parameter selects the file path."
  if isConcatenation path || hasInterpolation path then built.add "path_construction" 0.1
  else built

/-- What a call is suspected of. -/
def inspect : Rule.Inspection := fun _ n _ =>
  let name := callName n
  .ok (match argument? n 0 with
    | none => none
    | some path =>
      if fileFunctions.contains name && tainted sanitizers path then
        some ({ title := "Path Traversal"
                description := s!"{name}() accesses a path controlled by request data."
                metadata := [("function", .str name)] }, evidence path)
      else none)

/-- File access with a path from request data. -/
def rule : Rule :=
  Rule.guarded
    { id := "path_traversal"
      name := "Path Traversal"
      description := "Filesystem access with a request-controlled path"
      nodeKinds := ["function_call_expression"] }
    { vulnerability := "path_traversal"
      owasp := .accessControl
      risk := .high
      cweIds := [.int 22]
      falsePositives := .float 0.2
      remediation := [
        "Resolve the path with realpath() and verify it stays inside the base directory",
        "Use basename() for user supplied file names"] }
    [] (fun _ => []) inspect

end PhpAudit.Security.Traversal
