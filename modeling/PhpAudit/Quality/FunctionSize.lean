/-
Functions that are too large: in lines, in parameters, or in branches.
-/

import PhpAudit.Php.Functions
import PhpAudit.Rule.Plain

set_option autoImplicit false

namespace PhpAudit.Quality.FunctionSize

open Php

/-! ### Lines -/

/-- The remark about a long function. -/
def inspectLength : Rule.Remarks := fun settings n _ =>
  .ok (match body? n with
    | none => []
    | some body =>
      let lines := body.lineCount
      let most := Rule.limit settings "max_lines" 50
      let name := functionName n
      if lines ≤ most then []
      else
        [{ title := s!"Function {name}() is too long ({lines} lines)"
           description := s!"{name}() spans {lines} lines; the limit is {most}."
           line := some n.span.startLine
           suggestions := [.str "Extract cohesive blocks into helper functions"]
           metadata := [("function", .str name), ("lines", .int lines),
             ("max_lines", .int most)] }])

/-- Functions with too many lines. -/
def lengthRule : Rule :=
  Rule.plain
    { id := "function_length"
      name := "Function Length"
      description := "Functions should stay short enough to read at a glance"
      category := "maintainability"
      ownSeverity := "medium"
      nodeKinds := ["function_definition", "method_declaration"]
      ownTags := ["quality", "size"] }
    [("max_lines", .int 50)] (Rule.limitProblems "max_lines" 1) inspectLength

/-! ### Parameters -/

/-- The remark about a function with many parameters. -/
def inspectParameters : Rule.Remarks := fun settings n _ =>
  let count := (parameters n).length
  let most := Rule.limit settings "max_parameters" 5
  let name := functionName n
  .ok (if (count : Int) ≤ most then []
    else
      [{ title := s!"Too many parameters in {name}()"
         description := s!"{name}() takes {count} parameters; the limit is {most}."
         line := some n.span.startLine
         suggestions := [.str "Group related parameters into a value object"]
         metadata := [("function", .str name), ("parameters", .nat count),
           ("max_parameters", .int most)] }])

/-- Functions with too many parameters. -/
def parameterRule : Rule :=
  Rule.plain
    { id := "parameter_count"
      name := "Parameter Count"
      description := "Functions with many parameters are hard to call correctly"
      category := "quality"
      ownSeverity := "low"
      nodeKinds := ["function_definition", "method_declaration"]
      ownTags := ["quality", "design"] }
    [("max_parameters", .int 5)] (Rule.limitProblems "max_parameters" 0) inspectParameters

/-! ### Branches -/

/-- Nodes at which the flow of control branches. -/
def decisionKinds : List String :=
  ["if_statement", "else_if_clause", "for_statement", "foreach_statement", "while_statement",
   "do_statement", "case_statement", "catch_clause", "conditional_expression",
   "match_conditional_expression"]

/-- Operators that may leave their right side unevaluated. -/
def decisionOperators : List String :=
  ["&&", "||", "and", "or", "??"]

/-- Whether the flow of control branches at a node. -/
def isDecision (n : Node) : Bool :=
  decisionKinds.contains n.kind ||
    (n.kind == "binary_expression" &&
      decisionOperators.contains (Text.lower ((n.mark? "operator").getD (.str "")).plain))

/-- One plus the number of decisions in the body, functions inside it left out. -/
def complexity (n : Node) : Nat :=
  match body? n with
  | none => 1
  | some body => 1 + (walkScope body).countP isDecision

/-- The remark about a function with many branches. -/
def inspectComplexity : Rule.Remarks := fun settings n _ =>
  let score := complexity n
  let most := Rule.limit settings "max_complexity" 10
  let name := functionName n
  .ok (if (score : Int) ≤ most then []
    else
      [{ title := s!"High cyclomatic complexity in {name}() ({score})"
         description := s!"{name}() has a cyclomatic complexity of {score}; the limit is {most}."
         severity := if most * 2 < (score : Int) then some "high" else none
         line := some n.span.startLine
         suggestions := [.str "Split the function",
           .str "Replace nested conditionals with guard clauses"]
         metadata := [("function", .str name), ("complexity", .nat score),
           ("max_complexity", .int most)] }])

/-- Functions with too many branches. -/
def complexityRule : Rule :=
  Rule.plain
    { id := "cyclomatic_complexity"
      name := "Cyclomatic Complexity"
      description := "Functions with many branches are hard to test"
      category := "maintainability"
      ownSeverity := "medium"
      nodeKinds := ["function_definition", "method_declaration", "anonymous_function",
        "anonymous_function_creation_expression"]
      ownTags := ["quality", "complexity"] }
    [("max_complexity", .int 10)] (Rule.limitProblems "max_complexity" 1) inspectComplexity

end PhpAudit.Quality.FunctionSize
