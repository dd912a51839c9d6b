/-
Arithmetic on values of any kind.

Truth values count as one and zero.  Texts and lists can be added to their like and repeated; every
other use of a kind that stands for no number is a misuse, and so is a whole number that exceeds
every double where a double is needed.
-/

import PhpAudit.Value.Misuse

set_option autoImplicit false

namespace PhpAudit.Value

/-- The sum of two values. -/
def plus (a b : Value) : Except Misuse Value :=
  match a.number?, b.number? with
  | some m, some n => (m.add? n).elim (.error .tooLarge) (.ok ∘ ofNumber)
  | _, _ =>
    match a, b with
    | str s, str t => .ok (str (s ++ t))
    | str _, other => .error (.notText other.kindName)
    | list xs, list ys => .ok (list (xs ++ ys))
    | list _, other => .error (.notList other.kindName)
    | _, _ => .error (.noOperator "+" a.kindName b.kindName)

/-- The sum that replaces its first part: a list takes in the items of whatever has items. -/
def plusInPlace (a b : Value) : Except Misuse Value :=
  match a with
  | list xs => do return list (xs ++ (← b.items))
  | _ => a.plus b

/-- The difference of two values. -/
def minus (a b : Value) : Except Misuse Value :=
  match a.number?, b.number? with
  | some m, some n => (m.add? n.negated).elim (.error .tooLarge) (.ok ∘ ofNumber)
  | _, _ => .error (.noOperator "-" a.kindName b.kindName)

/-- A value so many times: the product of a number, the repetition of a text or a list. -/
def times (a : Value) (count : Nat) : Except Misuse Value :=
  match a.number? with
  | some m => (m.mul? (.int count)).elim (.error .tooLarge) (.ok ∘ ofNumber)
  | none =>
    match a with
    | str s => .ok (str (String.join (List.replicate count s)))
    | list xs => .ok (list (List.replicate count xs).flatten)
    | other => .error (.noOperator "*" other.kindName "int")

/-- The quotient of two values, where the second is not zero. -/
def dividedBy (a b : Value) : Except Misuse Float :=
  match a.number?, b.number? with
  | some (.int m), some (.int n) => (Number.quotient? m n).elim (.error .quotientTooLarge) .ok
  | some m, some n => (m.div? n).elim (.error .tooLarge) .ok
  | _, _ => .error (.noOperator "/" a.kindName b.kindName)

/-- The value with the other sign. -/
def negated (a : Value) : Except Misuse Number :=
  match a.number? with
  | some m => .ok m.negated
  | none => .error (.noSign "-" a.kindName)

/-- The value rounded to so many places. -/
def rounded (a : Value) (places : Nat) : Except Misuse Value :=
  match a.number? with
  | some m => .ok (ofNumber (m.round places))
  | none => .error (.noRounding a.kindName)

/-- The whole part of a number. -/
def wholePart (m : Number) : Except Misuse Int :=
  match m with
  | .int n => .ok n
  | .float x =>
    if x.isNaN then .error .notANumber
    else if x.isInf then .error .infinite
    else .ok (Decimal.truncate x)

/-- The sum of some values, which is the whole number zero if there are none. -/
def total (xs : List Value) : Except Misuse Value :=
  xs.foldlM plus (int 0)

end PhpAudit.Value
