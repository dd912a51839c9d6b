/-
How many characters a pattern takes.

What stands behind a place can only be looked at if the number of its characters is fixed, so the
reader of patterns asks for the least and the greatest number.
-/

import PhpAudit.Pattern.Basic

set_option autoImplicit false

namespace PhpAudit.Pattern

/-- A least and a greatest number of characters; none means that there is no greatest. -/
structure Width where
  least : Nat
  most : Option Nat

namespace Width

/-- No character. -/
def zero : Width :=
  ⟨0, some 0⟩

/-- One character. -/
def one : Width :=
  ⟨1, some 1⟩

/-- One width after another. -/
def add (a b : Width) : Width :=
  ⟨a.least + b.least, do return (← a.most) + (← b.most)⟩

/-- One width or another. -/
def either (a b : Width) : Width :=
  ⟨min a.least b.least, do return max (← a.most) (← b.most)⟩

/-- A width so many times. -/
def times (a : Width) (least : Nat) (most : Option Nat) : Width :=
  ⟨a.least * least,
    if a.most == some 0 || most == some 0 then some 0 else do return (← a.most) * (← most)⟩

/-- The number of characters, if it is fixed. -/
def fixed? (a : Width) : Option Nat :=
  if a.most == some a.least then some a.least else none

end Width

/-- How many characters a pattern takes, given the widths of the groups it refers to. -/
def width (groups : Nat → Width) : Pattern → Width
  | empty | anchor _ | look _ _ _ => .zero
  | char _ | any | set _ _ => .one
  | seq first second => (width groups first).add (width groups second)
  | alt left right => (width groups left).either (width groups right)
  | .repeat body least most _ => (width groups body).times least most
  | again number => groups number
  | ifTaken _ yes no => (width groups yes).either (width groups no)
  | group _ body | atomic body | under _ body => width groups body

end PhpAudit.Pattern
