/-
The shortest decimal that reads back.

A double stands for every real number that is nearer to it than to its neighbours.  Of the decimals
in that interval the shortest is printed, and of two equally short ones the nearer.  The search
tries one to seventeen digits; on each grid of decimals only the two neighbours of the value need a
test, and seventeen digits always suffice.
-/

import PhpAudit.Decimal.Binary

set_option autoImplicit false

namespace PhpAudit.Decimal

/-- The decimal `coefficient * 10 ^ exponent`. -/
structure Digits where
  coefficient : Nat
  exponent : Int

/-- The value of a decimal. -/
def Digits.ratio (d : Digits) : Ratio :=
  .ofDecimal d.coefficient d.exponent

/-- The least count `j` in `from, from + 1, …` such that `num * 10 ^ j` reaches `den`. -/
def scaleUp (num den : Nat) : Nat → Nat → Nat
  | 0, j => j
  | fuel + 1, j => if den ≤ num * Nat.pow 10 j then j else scaleUp num den fuel (j + 1)

/-- The exponent of the leading decimal digit of a positive quotient. -/
def Ratio.leadingExponent (r : Ratio) : Int :=
  if r.den ≤ r.num then ((Nat.toDigits 10 (r.num / r.den)).length : Int) - 1
  else -((scaleUp r.num r.den 400 1 : Nat) : Int)

/-- Whether the decimal lies in the interval of numbers that round to the double.  The ends
belong to it when the mantissa is even. -/
def Binary.readsBack (b : Binary) (d : Digits) : Bool :=
  let below := if b.narrowBelow then 1 else 2
  let low := Ratio.ofBinary (4 * b.mantissa - below) (b.exponent - 2)
  let high := Ratio.ofBinary (4 * b.mantissa + 2) (b.exponent - 2)
  if b.mantissa % 2 == 0 then low.le d.ratio && d.ratio.le high
  else low.lt d.ratio && d.ratio.lt high

/-- The nearer of the two neighbours `k` and `k + 1` of the double on the grid of step `10 ^ e`,
the even one of two equally near, among those that read back. -/
def Binary.onGrid? (b : Binary) (e : Int) : Option Digits :=
  let value := b.magnitude
  let step := Ratio.ofDecimal 1 e
  let k := (value.num * step.den) / (value.den * step.num)
  let lower : Digits := ⟨k, e⟩
  let upper : Digits := ⟨k + 1, e⟩
  match b.readsBack lower, b.readsBack upper with
  | false, false => none
  | true, false => some lower
  | false, true => some upper
  | true, true =>
    -- the middle between the two neighbours decides
    let middle := Ratio.ofDecimal (2 * k + 1) e
    let twice : Ratio := ⟨2 * value.num, value.den⟩
    if twice.lt middle then some lower
    else if middle.lt twice then some upper
    else if k % 2 == 0 then some lower else some upper

/-- The first grid with a hit, where the leading digit stands at `top` and `count` digits are
used next. -/
def Binary.search (b : Binary) (top : Int) : Nat → Int → Digits
  | 0, _ => ⟨0, 0⟩
  | fuel + 1, count =>
    match b.onGrid? (top - count + 1) with
    | some d => d
    | none => Binary.search b top fuel (count + 1)

/-- The decimal without zeros at its end; `fuel` bounds their number. -/
def stripZeros : Nat → Digits → Digits
  | 0, d => d
  | fuel + 1, d =>
    if d.coefficient != 0 && d.coefficient % 10 == 0 then
      stripZeros fuel ⟨d.coefficient / 10, d.exponent + 1⟩
    else d

/-- The shortest decimal that reads back to the magnitude of the double. -/
def Binary.shortest (b : Binary) : Digits :=
  if b.mantissa == 0 then ⟨0, 0⟩
  else stripZeros 20 (b.search b.magnitude.leadingExponent 17 1)

/-- How a number is laid out as text. -/
structure Layout where
  /-- The least exponent of the leading digit that is written positionally. -/
  leastPositional : Int
  /-- The greatest such exponent. -/
  greatestPositional : Int
  /-- The exponent is written with its sign and at least so many digits. -/
  exponentWidth : Nat
  nan : String
  infinity : String

/-- `n` zeros. -/
def zeros (n : Nat) : List Char :=
  List.replicate n '0'

/-- Positional text of digits whose leading digit stands at `10 ^ top`; whole numbers keep `.0`. -/
def positional (digits : List Char) (top : Int) : List Char :=
  if top < 0 then '0' :: '.' :: zeros ((-top).toNat - 1) ++ digits
  else
    let whole := top.toNat + 1
    if digits.length ≤ whole then digits ++ zeros (whole - digits.length) ++ ['.', '0']
    else digits.take whole ++ '.' :: digits.drop whole

/-- Text with an exponent. -/
def scientific (l : Layout) (digits : List Char) (top : Int) : List Char :=
  let mantissa := match digits with
    | [] => []
    | [d] => [d]
    | d :: rest => d :: '.' :: rest
  let power := Nat.toDigits 10 top.natAbs
  mantissa ++
    'e' :: (if top < 0 then '-' else '+') :: zeros (l.exponentWidth - power.length) ++ power

/-- The text of a double. -/
def Layout.write (l : Layout) (x : Float) : String :=
  match classify x with
  | .nan => l.nan
  | .infinite negative => if negative then "-" ++ l.infinity else l.infinity
  | .finite b =>
    let d := b.shortest
    let digits := Nat.toDigits 10 d.coefficient
    let top := d.exponent + (digits.length : Int) - 1
    let body :=
      if l.leastPositional ≤ top && top ≤ l.greatestPositional then positional digits top
      else scientific l digits top
    String.ofList (if b.negative then '-' :: body else body)

end PhpAudit.Decimal
