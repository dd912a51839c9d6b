/-
Calls and their arguments.
-/

import PhpAudit.Tree.Node
import PhpAudit.Php.Kinds
import PhpAudit.Text.Blank
import PhpAudit.Text.Case
import PhpAudit.Text.Part

set_option autoImplicit false

namespace PhpAudit.Php

/-- Whether the node is a call. -/
def isCall (n : Node) : Bool :=
  callKinds.contains n.kind

/-- Whether the node is a call of a function by name or by value. -/
def isFunctionCall (n : Node) : Bool :=
  n.kind == "function_call_expression"

/-- A function name in lower case without the namespace in front of it. -/
def baseName (name : String) : String :=
  Text.lower (Text.trim (Text.afterLast name "\\"))

/-- The name of the function that a call names; empty when the callee is computed. -/
def functionCallName (n : Node) : String :=
  match (n.childByField? "function").or n.children.head? with
  | some f => if ["name", "qualified_name"].contains f.kind then baseName f.text else ""
  | none => ""

/-- The name of the method that a call names, with its class for a static call. -/
def methodCallName (n : Node) : String :=
  match n.childByField? "name" with
  | none => ""
  | some name =>
    if name.kind != "name" then ""
    else if n.kind == "scoped_call_expression" then
      let scope :=
        match n.childByField? "scope" with
        | some s => Text.afterLast s.text "\\"
        | none => ""
      scope ++ "::" ++ name.text
    else name.text

/-- The name of what a call calls: a plain name, the name of a method, or a class and a name for a
static call.  It is empty when the callee is computed. -/
def callName (n : Node) : String :=
  if isFunctionCall n then functionCallName n else methodCallName n

/-- The name of a method that is called, in lower case. -/
def methodName (n : Node) : String :=
  match n.childByField? "name" with
  | some name => if isCall n && !isFunctionCall n then Text.lower name.text else ""
  | none => ""

/-- The name of a call for a message. -/
def shownName (n : Node) : String :=
  if callName n != "" then callName n else methodName n

/-- The expression that one entry of an argument list holds. -/
def argumentValue? (n : Node) : Option Node :=
  if n.kind == "argument" then
    (n.children.filter fun c => c.field != some "name" && c.kind != "comment").getLast?
  else if n.kind == "comment" then none
  else some n

/-- The argument expressions of a call, in order. -/
def arguments (n : Node) : List Node :=
  match (n.childByField? "arguments").or (n.firstChildOf? ["arguments"]) with
  | some list => list.children.filterMap argumentValue?
  | none => []

theorem size_argumentValue?_le (n m : Node) (h : argumentValue? n = some m) : m.size ≤ n.size := by
  unfold argumentValue? at h
  split at h
  · have hm := (List.mem_filter.1 (List.mem_of_getLast? h)).1
    exact Nat.le_of_lt (Node.size_lt_of_mem_children hm)
  · split at h
    · cases h
    · cases h
      exact Nat.le_refl _

/-- The arguments of a call are smaller than it. -/
theorem sizeList_arguments_lt (n : Node) : Node.sizeList (arguments n) < n.size := by
  unfold arguments
  split
  · rename_i list hlist
    have hmem : list ∈ n.children := by
      rcases Option.or_eq_some_iff.1 hlist with h | ⟨_, h⟩ <;> exact List.mem_of_find?_eq_some h
    have hvalues := Node.sizeList_filterMap_le size_argumentValue?_le list.children
    have hsize := Node.size_eq list
    have hless := Node.size_lt_of_mem_children hmem
    omega
  · rw [Node.size_eq n]
    exact Nat.succ_pos _

/-- The item at a position; below zero it counts from the end. -/
def itemAt? {α : Type} (items : List α) (position : Int) : Option α :=
  if 0 ≤ position then items[position.toNat]?
  else if 0 ≤ position + items.length then items[(position + items.length).toNat]?
  else none

/-- The argument at a position; below zero it counts from the end. -/
def argument? (n : Node) (position : Int) : Option Node :=
  itemAt? (arguments n) position

end PhpAudit.Php
