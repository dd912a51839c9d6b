/-
Shapes of expressions.

A value is either fixed in the source or built when the program runs; most rules turn on that
difference.  Parentheses never matter, so every question looks through them first.

* `Php.unwrap` — an expression without its parentheses;
* `Php.isConcatenation`, `Php.isVariable`, `Php.isLiteral`, `Php.isDynamic` — shapes;
* `Php.stringContent`, `Php.hasInterpolation` — string literals;
* `Php.readsRequest` — whether request data is read anywhere in an expression;
* `Php.concatenationParts` — the operands of a chain of concatenations.
-/

import PhpAudit.Php.Calls
import PhpAudit.Text.Alphanumeric

set_option autoImplicit false

namespace PhpAudit.Php

/-! ### Parentheses -/

/-- The expression without the parentheses around it. -/
def unwrap : Node → Node
  | ⟨kind, span, field, marks, text, index, []⟩ => ⟨kind, span, field, marks, text, index, []⟩
  | ⟨kind, span, field, marks, text, index, first :: rest⟩ =>
    if kind == "parenthesized_expression" then unwrap first
    else ⟨kind, span, field, marks, text, index, first :: rest⟩

/-- Taking parentheses away adds no node. -/
theorem size_unwrap_le : ∀ n : Node, (unwrap n).size ≤ n.size
  | ⟨kind, span, field, marks, text, index, []⟩ => by simp [unwrap]
  | ⟨kind, span, field, marks, text, index, first :: rest⟩ => by
    have ih := size_unwrap_le first
    rw [unwrap]
    split
    · simp only [Node.size, Node.sizeList]
      omega
    · exact Nat.le_refl _

/-! ### Shapes -/

/-- Whether the expression is a concatenation of texts. -/
def isConcatenation (n : Node) : Bool :=
  let e := unwrap n
  e.kind == "binary_expression" && (e.mark? "operator").any fun v => v.str? == some "."

/-- Whether the expression is a variable. -/
def isVariable (n : Node) : Bool :=
  ["variable_name", "dynamic_variable_name"].contains (unwrap n).kind

/-- The name of a variable without the sign in front of it. -/
def variableName (n : Node) : String :=
  if n.kind == "variable_name" then String.ofList (n.text.toList.dropWhile (· == '$')) else ""

/-- Whether the node is a variable that holds request data. -/
def isRequestVariable (n : Node) : Bool :=
  n.kind == "variable_name" && requestVariables.contains n.text

/-- Whether request data is read somewhere in the expression. -/
def readsRequest (n : Node) : Bool :=
  n.walk.any isRequestVariable

/-! ### Strings -/

/-- Whether the node is a string literal. -/
def isString (n : Node) : Bool :=
  stringKinds.contains n.kind

/-- A text without the quotes around it. -/
def withoutQuotes (text : String) : String :=
  match text.toList with
  | q :: rest =>
    if (q == '\x22' || q == '\x27') && rest.getLast? == some q then String.ofList rest.dropLast
    else text
  | [] => text

/-- The content of a string literal without its delimiters. -/
def stringContent (n : Node) : String :=
  let e := unwrap n
  if !isString e then ""
  else
    match e.childrenOf ["string_content", "string_value", "heredoc_body", "nowdoc_body"] with
    | [] => withoutQuotes e.text
    | parts => String.join (parts.map Node.text)

/-- Whether a dollar sign stands before a letter of a word. -/
def namesVariable : List Char → Bool
  | [] => false
  | '$' :: rest => rest.head?.any Text.isWord || namesVariable rest
  | _ :: rest => namesVariable rest

/-- Whether a string literal has variables or expressions in it. -/
def hasInterpolation (n : Node) : Bool :=
  let e := unwrap n
  templateKinds.contains e.kind &&
    ((Node.walkStack e.children).any (fun c =>
        ["variable_name", "member_access_expression", "subscript_expression",
         "dynamic_variable_name"].contains c.kind) ||
      namesVariable (stringContent e).toList)

/-! ### Fixed and computed values -/

/-- Whether the value is built when the program runs: a variable, a concatenation, a string with
variables in it, or what a call gives back. -/
def isDynamic (n : Node) : Bool :=
  let e := unwrap n
  isVariable e || isConcatenation e || hasInterpolation e ||
    ["subscript_expression", "member_access_expression", "shell_command_expression"].contains
      e.kind || isCall e

/-- Whether the value is fixed in the source. -/
def isLiteral (n : Node) : Bool :=
  let e := unwrap n
  ["string", "nowdoc", "integer", "float", "boolean", "null"].contains e.kind ||
    (templateKinds.contains e.kind && !hasInterpolation e)

/-- Whether the expression is a call of one of the names. -/
def isCallOf (names : List String) (n : Node) : Bool :=
  let e := unwrap n
  isCall e && names.contains (callName e)

/-! ### Chains of concatenations -/

/-- The operands of a concatenation, without parentheses and comments. -/
def operands (n : Node) : List Node :=
  ((unwrap n).children.filter fun c => c.kind != "comment").map unwrap

/-- The operands of an expression are smaller than it. -/
theorem sizeList_operands_lt (n : Node) : Node.sizeList (operands n) < n.size := by
  have hunwrap : ∀ x y, some (unwrap x) = some y → y.size ≤ x.size := by
    rintro x _ ⟨⟩
    exact size_unwrap_le x
  have hkept : ∀ x y : Node, Option.guard (fun c => c.kind != "comment") x = some y →
      y.size ≤ x.size := by
    intro x y h
    obtain ⟨rfl, _⟩ := Option.guard_eq_some_iff.1 h
    exact Nat.le_refl _
  have h₁ := Node.sizeList_filterMap_le hunwrap
    ((unwrap n).children.filterMap (Option.guard fun c => c.kind != "comment"))
  have h₂ := Node.sizeList_filterMap_le hkept (unwrap n).children
  have h₃ := size_unwrap_le n
  have h₄ := Node.size_eq (unwrap n)
  rw [operands, ← List.filterMap_eq_filter, ← List.filterMap_eq_map']
  omega

/-! ### Stacks -/

/-- The children of a node as they go on a stack with a mark, the last one on top. -/
def marked {α : Type} (mark : α) (n : Node) : List (Node × α) :=
  (n.children.map (·, mark)).reverse

theorem mem_marked {α : Type} {c n : Node} {mark a : α} :
    (c, a) ∈ marked mark n ↔ c ∈ n.children ∧ mark = a := by
  rw [marked, List.mem_reverse, List.mem_map]
  constructor
  · rintro ⟨_, hc, rfl, rfl⟩
    exact ⟨hc, rfl⟩
  · rintro ⟨hc, rfl⟩
    exact ⟨c, hc, rfl⟩

/-- The children of a node are smaller than it, in whatever order they stand. -/
theorem sizeList_marked_lt {α : Type} (mark : α) (n : Node) :
    Node.sizeList ((marked mark n).map Prod.fst) < n.size := by
  have reversed : ∀ ns : List Node, Node.sizeList ns.reverse = Node.sizeList ns := by
    intro ns
    induction ns with
    | nil => rfl
    | cons m ns ih =>
      simp only [List.reverse_cons, Node.sizeList_append, Node.sizeList, ih]
      omega
  have nodes : (marked mark n).map Prod.fst = n.children.reverse := by
    simp [marked, Function.comp_def]
  rw [nodes, reversed, Node.size_eq]
  omega

/-- The operands that a stack of expressions comes down to. -/
def partsStack : List Node → List Node
  | [] => []
  | n :: rest =>
    if isConcatenation n then partsStack (operands n ++ rest) else n :: partsStack rest
termination_by stack => Node.sizeList stack
decreasing_by
  · have := sizeList_operands_lt n
    simp only [Node.sizeList_append, Node.sizeList]
    omega
  · have := Node.size_eq n
    simp only [Node.sizeList]
    omega

/-- The operands of a chain of concatenations, from left to right. -/
def concatenationParts (n : Node) : List Node :=
  partsStack [unwrap n]

end PhpAudit.Php
