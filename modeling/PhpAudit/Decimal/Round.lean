/-
Rounding to decimal places.

A double is rounded on its exact value, a half to the even neighbour, and the result is the double
nearest to the rounded decimal.  The same rounding gives text with a fixed number of places.  A
score is rounded as it is read: the shortest decimal of the double is taken, and a half goes away
from zero.
-/

import PhpAudit.Decimal.Shortest

set_option autoImplicit false

namespace PhpAudit.Decimal

/-- The magnitude in units of `10 ^ -places`, rounded. -/
def Binary.units (b : Binary) (places : Nat) : Nat :=
  roundDiv (b.magnitude.num * Nat.pow 10 places) b.magnitude.den

/-- The double nearest to `x` rounded to so many decimal places. -/
def round (x : Float) (places : Nat) : Float :=
  match classify x with
  | .finite b =>
    let y := Float.ofScientific (b.units places) true places
    if b.negative then -y else y
  | _ => x

/-- A count of units of `10 ^ -places` written with a point. -/
def writeUnits (units places : Nat) : String :=
  let digits := Nat.toDigits 10 units
  let padded := List.replicate (places + 1 - digits.length) '0' ++ digits
  let whole := padded.length - places
  String.ofList (padded.take whole ++
    (if places == 0 then [] else '.' :: padded.drop whole))

/-- The text of `x` with so many decimal places. -/
def fixed (x : Float) (places : Nat) : String :=
  match classify x with
  | .nan => "nan"
  | .infinite negative => if negative then "-inf" else "inf"
  | .finite b =>
    let text := writeUnits (b.units places) places
    if b.negative then "-" ++ text else text

/-! ### The decimal that is printed -/

/-- The decimal in units of `10 ^ -places`, a half rounded up. -/
def Digits.unitsHalfUp (d : Digits) (places : Nat) : Nat :=
  let shift := d.exponent + places
  if 0 ≤ shift then d.coefficient * Nat.pow 10 shift.toNat
  else
    let step := Nat.pow 10 (-shift).toNat
    (2 * d.coefficient + step) / (2 * step)

/-- The double nearest to the printed decimal of `x` rounded to so many places, a half going away
from zero. -/
def halfUp (x : Float) (places : Nat) : Float :=
  match classify x with
  | .finite b =>
    let y := Float.ofScientific (b.shortest.unitsHalfUp places) true places
    if b.negative then -y else y
  | _ => x

/-- The whole part of a double, cut towards zero. -/
def truncate (x : Float) : Int :=
  match classify x with
  | .finite b =>
    let n : Int := ((b.magnitude.num / b.magnitude.den : Nat) : Int)
    if b.negative then -n else n
  | _ => 0

end PhpAudit.Decimal
