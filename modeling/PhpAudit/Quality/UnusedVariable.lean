/-
Variables that a function assigns and never reads.
-/

import PhpAudit.Php.Usage
import PhpAudit.Quality.LineLength

set_option autoImplicit false

namespace PhpAudit.Quality.UnusedVariable

open Php

/-- Whether a name is covered by one of the patterns; they are read one after the other, and one
that cannot be read is a misuse. -/
def coveredBy (name : String) : List Value → Except Misuse Bool
  | [] => .ok false
  | v :: rest => do
    let p ← LineLength.readPattern v
    if p.covers {} name then return true else coveredBy name rest

/-- Whether a variable may go unused. -/
def mayIgnore (settings : Dict) (name : String) (origin : Origin) : Except Misuse Bool := do
  if origin == .parameter && (Rule.setting settings "ignore_parameters" (.bool false)).truthy then
    return true
  if (Rule.setting settings "ignore_superglobals" (.bool true)).truthy &&
      superglobals.contains ("$" ++ name) then
    return true
  coveredBy name (← (Rule.setting settings "ignore_patterns" (.list [])).items)

/-- The remark about an unused variable. -/
def remark (function name : String) (a : Assignment) : Rule.Draft :=
  let isParameter := a.origin == .parameter
  let label := if isParameter then "Parameter" else "Variable"
  let word := if isParameter then "parameter" else "variable"
  { title := s!"Unused {word} ${name}"
    description := s!"{label} ${name} in {function}() is assigned but never used."
    line := some a.line
    suggestions := [.str s!"Remove ${name} or use it",
      .str "Prefix intentionally unused names with '_'"]
    metadata := [("variable", .str name), ("kind", .str a.origin.name)] }

/-- The remarks about the variables of a function. -/
def remarks (settings : Dict) (function : String) (used : List String) :
    List (String × Assignment) → Except Misuse (List Rule.Draft)
  | [] => .ok []
  | (name, a) :: rest => do
    if used.contains name then remarks settings function used rest
    else if ← mayIgnore settings name a.origin then remarks settings function used rest
    else return remark function name a :: (← remarks settings function used rest)

/-- The remarks about a function. -/
def inspect : Rule.Remarks := fun settings n _ =>
  let u := Usage.of n
  remarks settings (functionName n) u.used u.assigned

/-- Whether a value is a list. -/
def isList : Value → Bool
  | .list _ => true
  | _ => false

/-- What is wrong with settings of this rule. -/
def ownProblems (settings : Dict) : List Rule.Problem :=
  Rule.problemIf settings "ignore_patterns" (fun v => !isList v) "ignore_patterns must be a list" ++
  Rule.problemIf settings "ignore_parameters" (fun v => !v.isBool)
    "ignore_parameters must be a boolean"

/-- Variables that are assigned and never read. -/
def rule : Rule :=
  Rule.plain
    { id := "unused_variable"
      name := "Unused Variable Detection"
      description := "Detects variables that are assigned but never used"
      category := "quality"
      ownSeverity := "medium"
      nodeKinds := scopeKinds
      ownTags := ["syntax", "quality", "cleanup", "unused"] }
    [("ignore_patterns", .ofTexts ["_.*", ".*Exception$", "this"]),
     ("ignore_parameters", .bool false), ("ignore_superglobals", .bool true)]
    ownProblems inspect

end PhpAudit.Quality.UnusedVariable
