/-
Finite maps that remember the order in which their keys came.

Reports, settings and counters list their entries in the order in which the keys were first
written; a later write to a key keeps its place.  Such a map is a list of pairs, and the operations
below keep its keys distinct.  Most maps have texts for keys.
-/

set_option autoImplicit false

namespace PhpAudit

/-- Pairs of a key and a value, in the order in which the keys came. -/
abbrev Assoc (κ α : Type) := List (κ × α)

namespace Assoc

variable {κ α : Type} [BEq κ]

/-- The value stored under a key. -/
def get? (m : Assoc κ α) (key : κ) : Option α :=
  match m with
  | [] => none
  | (k, v) :: rest => if k == key then some v else get? rest key

/-- The value stored under a key, or a default. -/
def getD (m : Assoc κ α) (key : κ) (default : α) : α :=
  (get? m key).getD default

/-- Whether the key is present. -/
def has (m : Assoc κ α) (key : κ) : Bool :=
  List.any m fun e => e.1 == key

/-- The keys, in order. -/
def keys (m : Assoc κ α) : List κ :=
  List.map Prod.fst m

/-- The values, in order of their keys. -/
def values (m : Assoc κ α) : List α :=
  List.map Prod.snd m

/-- Writes a value: a present key keeps its place, a new one goes last. -/
def put (m : Assoc κ α) (key : κ) (value : α) : Assoc κ α :=
  match m with
  | [] => [(key, value)]
  | (k, v) :: rest => if k == key then (k, value) :: rest else (k, v) :: put rest key value

/-- Removes a key. -/
def erase (m : Assoc κ α) (key : κ) : Assoc κ α :=
  List.filter (fun e => !(e.1 == key)) m

/-- Writes all entries of `new`, in their order. -/
def update (m new : Assoc κ α) : Assoc κ α :=
  List.foldl (fun acc e => put acc e.1 e.2) m new

/-- The map with the entries of a list, a later entry winning. -/
def ofList (entries : List (κ × α)) : Assoc κ α :=
  update [] entries

/-- Adds to a counter that starts at zero. -/
def bump (m : Assoc κ Nat) (key : κ) (amount : Nat) : Assoc κ Nat :=
  put m key (getD m key 0 + amount)

end Assoc

end PhpAudit
