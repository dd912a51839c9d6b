/-
Functions: names, parameters, bodies and scopes.
-/

import PhpAudit.Php.Expressions
import PhpAudit.Walk.Trail

set_option autoImplicit false

namespace PhpAudit.Php

/-- Whether the node has a scope of its own. -/
def isScope (n : Node) : Bool :=
  scopeKinds.contains n.kind

/-- Whether the node is a loop. -/
def isLoop (n : Node) : Bool :=
  loopKinds.contains n.kind

/-- The name of a function or method; closures have none of their own. -/
def functionName (n : Node) : String :=
  match n.childByField? "name" with
  | some name =>
    if ["function_definition", "method_declaration"].contains n.kind then name.text
    else "\x7bclosure\x7d"
  | none => "\x7bclosure\x7d"

/-- The parameters of a function. -/
def parameters (n : Node) : List Node :=
  match (n.childByField? "parameters").or (n.firstChildOf? ["formal_parameters"]) with
  | some list => list.children.filter fun c => Text.endsWith c.kind "parameter"
  | none => []

/-- The name of a parameter. -/
def parameterName (n : Node) : String :=
  match (n.childByField? "name").or (n.firstChildOf? ["variable_name"]) with
  | some name => variableName name
  | none => ""

/-- The body of a function, a loop or a handler. -/
def body? (n : Node) : Option Node :=
  (n.childByField? "body").or (n.firstChildOf? ["compound_statement"])

/-! ### Scopes -/

/-- The nodes of a stack and all below them; a function is met but not entered. -/
def scopeStack : List Node → List Node
  | [] => []
  | n :: rest => n :: scopeStack (if isScope n then rest else n.children ++ rest)
termination_by stack => Node.sizeList stack
decreasing_by
  have := Node.size_eq n
  split
  · simp only [Node.sizeList]
    omega
  · simp only [Node.sizeList_append, Node.sizeList]
    omega

/-- What stands below a node, without the insides of functions nested in it. -/
def walkScope (n : Node) : List Node :=
  scopeStack n.children

/-- The loops around the present node within its own function, the innermost first. -/
def enclosingLoops (t : Walk.Trail) : List Node :=
  (t.ancestors.takeWhile fun n => !isScope n).filter isLoop

/-- How deep loops are nested at or below the nodes of a stack, each of which comes with the number
of loops around it; functions are not entered.  `deepest` is what was found before. -/
def nestingStack (deepest : Nat) : List (Node × Nat) → Nat
  | [] => deepest
  | (n, around) :: rest =>
    if isScope n then nestingStack deepest rest
    else if isLoop n then
      nestingStack (max deepest (around + 1)) (marked (around + 1) n ++ rest)
    else nestingStack deepest (marked around n ++ rest)
termination_by stack => Node.sizeList (stack.map Prod.fst)
decreasing_by
  · have := Node.size_eq n
    simp only [List.map_cons, Node.sizeList]
    omega
  all_goals
    have := sizeList_marked_lt (around + 1) n
    have := sizeList_marked_lt around n
    simp only [List.map_append, List.map_cons, Node.sizeList_append, Node.sizeList]
    omega

/-- How many loops are nested in one another below a node. -/
def deepestNesting (n : Node) : Nat :=
  nestingStack 0 (marked 0 n)

end PhpAudit.Php
