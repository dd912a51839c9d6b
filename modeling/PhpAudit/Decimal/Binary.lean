/-
Doubles as exact numbers.

Printing and rounding work on the exact value of a double, not on floating point arithmetic.  The
bit pattern gives sign, mantissa and exponent; the value is a quotient of two natural numbers.
-/

set_option autoImplicit false

namespace PhpAudit.Decimal

/-- A finite double: `mantissa * 2 ^ exponent` with its sign. -/
structure Binary where
  negative : Bool
  mantissa : Nat
  exponent : Int
  /-- The next smaller double is only half as far away as the next larger one. -/
  narrowBelow : Bool

/-- What a double can be. -/
inductive Class where
  | nan
  | infinite (negative : Bool)
  | finite (value : Binary)

/-- The double taken apart by its bit pattern. -/
def classify (x : Float) : Class :=
  let bits : Nat := x.toBits.toNat
  let negative := bits / Nat.pow 2 63 == 1
  let field : Nat := bits / Nat.pow 2 52 % 2048
  let fraction : Nat := bits % Nat.pow 2 52
  if field == 2047 then
    if fraction == 0 then .infinite negative else .nan
  else if field == 0 then .finite ⟨negative, fraction, -1074, false⟩
  else
    let narrowBelow := fraction == 0 && decide (1 < field)
    .finite ⟨negative, fraction + Nat.pow 2 52, (field : Int) - 1075, narrowBelow⟩

/-- The quotient `num / den`. -/
structure Ratio where
  num : Nat
  den : Nat

/-- The quotient `n * 2 ^ e`. -/
def Ratio.ofBinary (n : Nat) (e : Int) : Ratio :=
  if 0 ≤ e then ⟨n * Nat.pow 2 e.toNat, 1⟩ else ⟨n, Nat.pow 2 (-e).toNat⟩

/-- The quotient `n * 10 ^ e`. -/
def Ratio.ofDecimal (n : Nat) (e : Int) : Ratio :=
  if 0 ≤ e then ⟨n * Nat.pow 10 e.toNat, 1⟩ else ⟨n, Nat.pow 10 (-e).toNat⟩

/-- Whether `a ≤ b`. -/
def Ratio.le (a b : Ratio) : Bool :=
  decide (a.num * b.den ≤ b.num * a.den)

/-- Whether `a < b`. -/
def Ratio.lt (a b : Ratio) : Bool :=
  decide (a.num * b.den < b.num * a.den)

/-- The magnitude of a finite double. -/
def Binary.magnitude (b : Binary) : Ratio :=
  .ofBinary b.mantissa b.exponent

/-- `num / den` rounded to the nearest natural number, a half to the even neighbour. -/
def roundDiv (num den : Nat) : Nat :=
  let whole := num / den
  let twice := 2 * (num % den)
  if twice < den then whole
  else if den < twice then whole + 1
  else if whole % 2 == 0 then whole else whole + 1

end PhpAudit.Decimal
