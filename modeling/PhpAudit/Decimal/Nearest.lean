/-
The double nearest to a quotient.

A quotient of two natural numbers is scaled by a power of two until its whole part fills a
mantissa, and rounded there, a half to even.  Small quotients keep the least exponent and lose
digits instead.
-/

import PhpAudit.Decimal.Binary

set_option autoImplicit false

namespace PhpAudit.Decimal

/-- The bits of a natural number; zero has none. -/
def bitLength (n : Nat) : Nat :=
  if n == 0 then 0 else Nat.log2 n + 1

/-- The least exponent of a double. -/
def leastExponent : Int := -1074

/-- `num / den` in units of `2 ^ e`, rounded. -/
def unitsOf (num den : Nat) (e : Int) : Nat :=
  if 0 ≤ e then roundDiv num (den * Nat.pow 2 e.toNat)
  else roundDiv (num * Nat.pow 2 (-e).toNat) den

/-- Whether `num / den` is at least `2 ^ e`. -/
def reaches (num den : Nat) (e : Int) : Bool :=
  if 0 ≤ e then decide (den * Nat.pow 2 e.toNat ≤ num)
  else decide (den ≤ num * Nat.pow 2 (-e).toNat)

/-- The exponent of the last bit of a mantissa for `num / den`: the leading bit stands fifty-two
places above it, unless that would be below the least exponent. -/
def scaleOf (num den : Nat) : Int :=
  let guess : Int := (bitLength num : Int) - bitLength den
  let top := if reaches num den guess then guess else guess - 1
  max leastExponent (top - 52)

/-- The double `mantissa * 2 ^ exponent`, for a mantissa of at most fifty-three bits; none if it is
too large. -/
def assemble? (mantissa : Nat) (exponent : Int) : Option Float :=
  let (m, e) :=
    if mantissa == Nat.pow 2 53 then (Nat.pow 2 52, exponent + 1) else (mantissa, exponent)
  if 971 < e then none
  else if m < Nat.pow 2 52 then some (Float.ofBits m.toUInt64)
  else some (Float.ofBits (((e + 1075).toNat * Nat.pow 2 52 + (m - Nat.pow 2 52)).toUInt64))

/-- The double nearest to `num / den`, where `den` is not zero; none if it is too large. -/
def nearest? (num den : Nat) : Option Float :=
  if num == 0 then some 0.0
  else
    let e := scaleOf num den
    assemble? (unitsOf num den e) e

end PhpAudit.Decimal
