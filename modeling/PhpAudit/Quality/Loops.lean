/-
Loops that cost more than they need to: deep nesting, a query per round, and a size that is computed
anew in every round.
-/

import PhpAudit.Php.Functions
import PhpAudit.Rule.Plain

set_option autoImplicit false

namespace PhpAudit.Quality.Loops

open Php

/-! ### Nesting -/

/-- The remark about the first loop that goes beyond the limit. -/
def inspectNesting : Rule.Remarks := fun settings n site =>
  let most := Rule.limit settings "max_depth" 2
  let depth := (enclosingLoops site.trail).length + 1
  .ok (if (depth : Int) != most + 1 then []
    else
      let total := depth + deepestNesting n
      [{ title := s!"Loop nesting depth {total} exceeds {most}"
         description :=
           s!"Loops nested {total} deep give an estimated O(n^{total}) running time."
         line := some n.span.startLine
         suggestions := [.str "Index data in an array keyed by lookup value",
           .str "Move invariant work out of inner loops"]
         metadata := [("depth", .nat total), ("max_depth", .int most),
           ("complexity", .str s!"O(n^{total})")] }])

/-- Loops nested too deep. -/
def nestingRule : Rule :=
  Rule.plain
    { id := "nested_loops"
      name := "Nested Loops"
      description := "Deeply nested loops grow polynomially with input size"
      category := "performance"
      ownSeverity := "medium"
      nodeKinds := loopKinds
      ownTags := ["performance", "complexity"] }
    [("max_depth", .int 2)] (Rule.limitProblems "max_depth" 1) inspectNesting

/-! ### Queries -/

/-- Functions that run a query. -/
def queryFunctions : List String :=
  ["mysql_query", "mysqli_query", "mysqli_execute", "mysqli_stmt_execute", "pg_query",
   "pg_query_params", "pg_execute", "sqlite_query", "mssql_query", "odbc_exec"]

/-- Methods that run or prepare a query. -/
def queryMethods : List String :=
  ["query", "exec", "execute", "prepare"]

/-- The name of the query function or method that is called. -/
def queryName? (n : Node) : Option String :=
  if isFunctionCall n then
    if queryFunctions.contains (callName n) then some (callName n) else none
  else if queryMethods.contains (methodName n) then some (methodName n)
  else none

/-- The remark about a query in a loop. -/
def inspectQuery : Rule.Remarks := fun _ n site =>
  .ok (match queryName? n, enclosingLoops site.trail with
    | some name, loop :: _ =>
      let line := loop.span.startLine
      [{ title := "Database query inside loop"
         description :=
           s!"{name}() runs on every iteration of the loop starting on line {line}."
         suggestions := [.str "Fetch all rows with one query before the loop",
           .str "Batch writes into a single statement"]
         metadata := [("function", .str name), ("loop_line", .int line)] }]
    | _, _ => [])

/-- Queries that run once per round of a loop. -/
def queryRule : Rule :=
  Rule.plain
    { id := "query_in_loop"
      name := "Database Query in Loop"
      description := "Queries executed once per iteration (N+1 pattern)"
      category := "performance"
      ownSeverity := "medium"
      nodeKinds := callKinds
      ownTags := ["performance", "database"] }
    [] (fun _ => []) inspectQuery

/-! ### Sizes -/

/-- Functions that measure a value. -/
def sizeFunctions : List String :=
  ["count", "sizeof", "strlen", "mb_strlen"]

/-- The condition of a loop. -/
def condition? (n : Node) : Option Node :=
  (n.childByField? "condition").or
    (if n.kind == "while_statement" then n.firstChildOf? ["parenthesized_expression"] else none)

/-- The first call in a condition that measures a value. -/
def sizeCall? (condition : Node) : Option Node :=
  (condition.findAll ["function_call_expression"]).find? fun c =>
    sizeFunctions.contains (callName c)

/-- The remark about a loop that measures a value in every round. -/
def inspectSize : Rule.Remarks := fun _ n _ =>
  .ok (match (condition? n).bind sizeCall? with
    | none => []
    | some call =>
      let name := callName call
      [{ title := s!"{name}() in loop condition"
         description := s!"{name}() is evaluated on every iteration of the loop."
         line := some n.span.startLine
         suggestions := [.str s!"Store the result of {name}() in a variable before the loop"]
         metadata := [("function", .str name)] }])

/-- Sizes computed anew in every round. -/
def sizeRule : Rule :=
  Rule.plain
    { id := "loop_condition_size_call"
      name := "Size Function in Loop Condition"
      description := "count()/strlen() re-evaluated on every iteration"
      category := "performance"
      ownSeverity := "low"
      nodeKinds := ["for_statement", "while_statement"]
      ownTags := ["performance", "loops"] }
    [] (fun _ => []) inspectSize

end PhpAudit.Quality.Loops
