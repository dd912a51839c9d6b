/-
Classes of characters given as tables of run lengths.

Every class that this library asks about outside ASCII is a finite union of runs of code points.  A
table tells how many code points lie outside the class and inside it in turn; membership is a plain
walk along the table, because ASCII characters are decided before any table is read.
-/

set_option autoImplicit false

namespace PhpAudit.Text

/-- How many code points lie outside a class and inside it in turn, from zero on. -/
abbrev Runs := List Nat

/-- The place of the code point `n` in the run of the class that holds it. -/
def Runs.place? : Runs → Nat → Option Nat
  | outside :: inside :: rest, n =>
    if n < outside then none
    else if n < outside + inside then some (n - outside)
    else place? rest (n - (outside + inside))
  | _, _ => none

/-- Whether the code point `n` lies in the class. -/
def Runs.has (runs : Runs) (n : Nat) : Bool :=
  (runs.place? n).isSome

end PhpAudit.Text
