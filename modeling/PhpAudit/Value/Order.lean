/-
The order of values, and sorting where an order may be missing.

Numbers are ordered by their exact values, texts by their characters and lists by their first
difference.  Other values have no order, so a sort can fail; which two values it meets first is
part of its meaning, and the sort below compares them one by one: it takes the longest run that is
sorted already and puts every later value into its place by bisection.
-/

import PhpAudit.Value.Misuse

set_option autoImplicit false

namespace PhpAudit

namespace Value

mutual

/-- Whether a relation holds between two values; `test` says which orders satisfy it. -/
def holdsBetween (relation : String) (test : Ordering → Bool) (a b : Value) : Except Misuse Bool :=
  match a, b with
  | str s, str t => .ok (test (compare s t))
  | list xs, list ys => holdsBetweenItems relation test xs ys
  | _, _ =>
    match a.number?, b.number? with
    | some m, some n => .ok ((m.compare? n).elim false test)
    | _, _ => .error (.unordered relation a.kindName b.kindName)

/-- The same for the items of two lists: the first two that differ decide, or else the lengths. -/
def holdsBetweenItems (relation : String) (test : Ordering → Bool) :
    List Value → List Value → Except Misuse Bool
  | x :: xs, y :: ys =>
    if eqv x y then holdsBetweenItems relation test xs ys else holdsBetween relation test x y
  | [], [] => .ok (test .eq)
  | [], _ => .ok (test .lt)
  | _, [] => .ok (test .gt)

end

/-- Whether `a < b`. -/
def less (a b : Value) : Except Misuse Bool :=
  holdsBetween "<" (· == .lt) a b

/-- Whether `a ≤ b`. -/
def atMost (a b : Value) : Except Misuse Bool :=
  holdsBetween "<=" (· != .gt) a b

/-- Whether `a > b`. -/
def greater (a b : Value) : Except Misuse Bool :=
  holdsBetween ">" (· == .gt) a b

/-- Whether `a ≥ b`. -/
def atLeast (a b : Value) : Except Misuse Bool :=
  holdsBetween ">=" (· != .lt) a b

end Value

namespace Sorting

variable {ε α : Type} (less : α → α → Except ε Bool)

/-- How many further items go on a run whose last item is given: each is less than the one before
it, or none is. -/
def runLength (descending : Bool) (last : α) : List α → Except ε Nat
  | [] => .ok 0
  | x :: xs => do
    if (← less x last) == descending then return (← runLength descending x xs) + 1
    else return 0

/-- The place of an item in a sorted array, after the items that are not greater; it lies between
two bounds that are at most `fuel` apart. -/
def placeOf (item : α) (sorted : Array α) : Nat → Nat → Nat → Except ε Nat
  | 0, low, _ => .ok low
  | fuel + 1, low, high =>
    if low < high then
      let middle := low + (high - low) / 2
      match sorted[middle]? with
      | none => .ok low
      | some x => do
        if ← less item x then placeOf item sorted fuel low middle
        else placeOf item sorted fuel (middle + 1) high
    else .ok low

/-- A sorted array with one more item in its place. -/
def insert (sorted : Array α) (item : α) : Except ε (Array α) := do
  let place ← placeOf less item sorted (sorted.size + 1) 0 sorted.size
  return (sorted.toList.take place ++ item :: sorted.toList.drop place).toArray

/-- The items in order, equal ones as they stood. -/
def sorted (xs : List α) : Except ε (List α) :=
  match xs with
  | x :: y :: rest => do
    let descending ← less y x
    let run := 2 + (← runLength less descending y rest)
    let first := if descending then (xs.take run).reverse else xs.take run
    return (← (xs.drop run).foldlM (insert less) first.toArray).toList
  | _ => .ok xs

end Sorting

end PhpAudit
