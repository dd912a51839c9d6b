/-
Which variables of a function are assigned and which are read.

Parameters, assignments to plain variables and the use clause of a closure assign.  Any other
mention of a variable reads it; so do an arrow function inside, which captures what it names, the
use clause of a closure inside, and a call of `compact` with the variable's name in a string.
-/

import PhpAudit.Php.Functions

set_option autoImplicit false

namespace PhpAudit.Php

/-- How a variable gets its value. -/
inductive Origin where
  | parameter
  | assignment
  | useClause
  deriving DecidableEq

/-- The word for it. -/
def Origin.name : Origin → String
  | parameter => "parameter"
  | assignment => "assignment"
  | useClause => "use"

/-- The first place where a variable gets a value. -/
structure Assignment where
  line : Int
  origin : Origin
  deriving DecidableEq

/-- The variables of a function that are assigned, in order, and those that are read. -/
structure Usage where
  assigned : Assoc String Assignment := []
  used : List String := []
  /-- Where the targets of assignments start; the mention there is no read. -/
  targets : List Int := []

namespace Usage

/-- A variable gets a value, unless it already has one. -/
def assign (u : Usage) (name : String) (a : Assignment) : Usage :=
  if Assoc.has u.assigned name then u else { u with assigned := Assoc.put u.assigned name a }

/-- Variables are read. -/
def read (u : Usage) (names : List String) : Usage :=
  { u with used := names.foldl (fun acc x => if acc.contains x then acc else acc ++ [x]) u.used }

/-- The variables named at or below a node. -/
def variablesIn (n : Node) : List String :=
  (n.findAll ["variable_name"]).map variableName

/-- What the parameters of a function assign. -/
def ofParameters (n : Node) : Usage :=
  (parameters n).foldl (fun u p =>
    let name := parameterName p
    if name == "" then u
    else { u with assigned := Assoc.put u.assigned name ⟨p.span.startLine, .parameter⟩ }) {}

/-- What one node of the body adds. -/
def note (u : Usage) (n : Node) : Usage :=
  if n.kind == "assignment_expression" then
    match n.childByField? "left" with
    | some left =>
      if left.kind == "variable_name" then
        { u with targets := left.span.startByte :: u.targets }.assign (variableName left)
          ⟨n.span.startLine, .assignment⟩
      else u
    | none => u
  else if n.kind == "arrow_function" then u.read (variablesIn n)
  else if isScope n then
    (n.childrenOf ["anonymous_function_use_clause"]).foldl (fun u c => u.read (variablesIn c)) u
  else if isFunctionCall n && callName n == "compact" then
    u.read ((n.findAll ["string", "encapsed_string"]).map stringContent)
  else if n.kind == "variable_name" && !u.targets.contains n.span.startByte then
    u.read [variableName n]
  else u

/-- What the function's own use clause adds: its variables belong to the scope around it. -/
def noteClause (u : Usage) (clause : Node) : Usage :=
  (clause.findAll ["variable_name"]).foldl (fun u v =>
    (u.assign (variableName v) ⟨v.span.startLine, .useClause⟩).read [variableName v]) u

/-- The variables that a function assigns and reads. -/
def of (n : Node) : Usage :=
  let start := ofParameters n
  match body? n with
  | none => start
  | some body =>
    let inside := (walkScope body).foldl note start
    (n.childrenOf ["anonymous_function_use_clause"]).foldl noteClause inside

end Usage

end PhpAudit.Php
