/-
Numbers: whole ones of any size, and doubles.

Whole numbers and doubles are told apart, and two numbers are compared by their exact values
whatever they are.  A whole number can exceed every double; an operation that needs the double of
such a number has no result.
-/

import PhpAudit.Decimal.Nearest
import PhpAudit.Decimal.Round

set_option autoImplicit false

namespace PhpAudit

/-- A whole number or a double. -/
inductive Number where
  | int (n : Int)
  | float (x : Float)
  deriving Inhabited

namespace Number

/-! ### Order -/

/-- A whole number against a double. -/
def compareInt (n : Int) (x : Float) : Option Ordering :=
  match Decimal.classify x with
  | .nan => none
  | .infinite negative => some (if negative then .gt else .lt)
  | .finite b =>
    let num : Int := b.magnitude.num
    some (compare (n * (b.magnitude.den : Int)) (if b.negative then -num else num))

/-- The order of two numbers; none if one of them is no number. -/
def compare? : Number → Number → Option Ordering
  | int a, int b => some (compare a b)
  | int a, float y => compareInt a y
  | float x, int b => (compareInt b x).map Ordering.swap
  | float x, float y =>
    if x < y then some .lt else if x == y then some .eq else if y < x then some .gt else none

/-- Whether `a < b`. -/
def lt (a b : Number) : Bool :=
  a.compare? b == some .lt

/-- Whether `a ≤ b`. -/
def le (a b : Number) : Bool :=
  a.compare? b == some .lt || a.compare? b == some .eq

/-- Whether the two have the same value. -/
def eqv (a b : Number) : Bool :=
  a.compare? b == some .eq

/-! ### Doubles -/

/-- The double nearest to a whole number; none if it is too large. -/
def floatOfInt? (n : Int) : Option Float :=
  (Decimal.nearest? n.natAbs 1).map fun x => if n < 0 then -x else x

/-- The double nearest to the number; none if it is too large. -/
def toFloat? : Number → Option Float
  | int n => floatOfInt? n
  | float x => some x

/-- The double nearest to the number, an infinite one if it is too large. -/
def nearFloat : Number → Float
  | int n => (floatOfInt? n).getD (if n < 0 then -1.0 / 0.0 else 1.0 / 0.0)
  | float x => x

/-! ### Arithmetic -/

/-- The sum: whole only if both are. -/
def add? : Number → Number → Option Number
  | int a, int b => some (int (a + b))
  | a, b => do return float ((← a.toFloat?) + (← b.toFloat?))

/-- The product: whole only if both are. -/
def mul? : Number → Number → Option Number
  | int a, int b => some (int (a * b))
  | a, b => do return float ((← a.toFloat?) * (← b.toFloat?))

/-- The quotient of whole numbers, rounded once; none if it is too large. -/
def quotient? (a b : Int) : Option Float :=
  (Decimal.nearest? a.natAbs b.natAbs).map fun x =>
    if decide (a < 0) != decide (b < 0) then -x else x

/-- The quotient, a double always; the divisor is not zero. -/
def div? : Number → Number → Option Float
  | int a, int b => quotient? a b
  | a, b => do return (← a.toFloat?) / (← b.toFloat?)

/-- The number with the other sign. -/
def negated : Number → Number
  | int n => int (-n)
  | float x => float (-x)

/-- Rounded to so many places; whole numbers stay. -/
def round (a : Number) (places : Nat) : Number :=
  match a with
  | int n => int n
  | float x => float (Decimal.round x places)

end Number

end PhpAudit
