/-
Whether request data reaches an expression unsanitized.

Request data below a call of a sanitizer, or below a cast to a number or a truth value, is harmless;
anywhere else it taints the expression.
-/

import PhpAudit.Php.Expressions

set_option autoImplicit false

namespace PhpAudit.Php

/-- Whether the node is a cast that leaves no text behind. -/
def isPlainCast (n : Node) : Bool :=
  n.kind == "cast_expression" &&
    ["(int)", "(integer)", "(float)", "(bool)"].any
      (Text.startsWith (Text.lower (Text.replace n.text " " "")))

/-- Whether the node makes request data below it harmless. -/
def sanitizes (sanitizers : List String) (n : Node) : Bool :=
  (isCall n && sanitizers.contains (callName n)) || isPlainCast n

/-- Whether request data is read at or below one of the nodes of a stack outside every sanitizer.
Each node of the stack comes with whether a sanitizer stands above it. -/
def taintedStack (sanitizers : List String) : List (Node × Bool) → Bool
  | [] => false
  | (n, above) :: rest =>
    let sanitized := above || sanitizes sanitizers n
    if isRequestVariable n && !sanitized then true
    else taintedStack sanitizers (marked sanitized n ++ rest)
termination_by stack => Node.sizeList (stack.map Prod.fst)
decreasing_by
  have := sizeList_marked_lt (above || sanitizes sanitizers n) n
  simp only [List.map_append, List.map_cons, Node.sizeList_append, Node.sizeList]
  omega

/-- Whether request data is read at or below the node outside every sanitizer. -/
def tainted (sanitizers : List String) (n : Node) : Bool :=
  taintedStack sanitizers [(n, false)]

end PhpAudit.Php
