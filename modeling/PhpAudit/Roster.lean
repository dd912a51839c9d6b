/-
The roster of analyzers.

Analyzers are listed in the order of their latest registration.  While a batch runs the roster is
locked, once for every batch, and neither takes in nor gives up an analyzer.
-/

import PhpAudit.Assoc

set_option autoImplicit false

namespace PhpAudit

/-- Members under names of the type `κ`, in the order of their latest registration. -/
structure Roster (κ α : Type) where
  members : Assoc κ α := []
  locks : Int := 0

namespace Roster

variable {κ α : Type} [BEq κ]

/-- The roster is in use by a batch. -/
inductive Error where
  | locked

/-- The wording of the cause. -/
def Error.message : Error → String
  | locked => "Analyzers cannot be registered or removed while a batch is running"

/-- Whether some batch holds the roster. -/
def isLocked (r : Roster κ α) : Bool :=
  decide (0 < r.locks)

/-- Puts a member last, in place of an earlier one of its name. -/
def register (r : Roster κ α) (name : κ) (member : α) : Except Error (Roster κ α) :=
  if r.locks ≠ 0 then .error .locked
  else .ok { r with members := Assoc.erase r.members name ++ [(name, member)] }

/-- Strikes a name, and tells whether it was there. -/
def unregister (r : Roster κ α) (name : κ) : Except Error (Bool × Roster κ α) :=
  if r.locks ≠ 0 then .error .locked
  else if Assoc.has r.members name then
    .ok (true, { r with members := Assoc.erase r.members name })
  else .ok (false, r)

/-- The member of a name. -/
def get? (r : Roster κ α) (name : κ) : Option α :=
  Assoc.get? r.members name

/-- Whether the name is listed. -/
def has (r : Roster κ α) (name : κ) : Bool :=
  Assoc.has r.members name

/-- The names in order. -/
def names (r : Roster κ α) : List κ :=
  Assoc.keys r.members

/-- The members in order. -/
def list (r : Roster κ α) : List α :=
  Assoc.values r.members

/-- The number of members. -/
def size (r : Roster κ α) : Nat :=
  r.members.length

/-- A batch begins. -/
def lock (r : Roster κ α) : Roster κ α :=
  { r with locks := r.locks + 1 }

/-- A batch ends. -/
def unlock (r : Roster κ α) : Roster κ α :=
  { r with locks := r.locks - 1 }

end Roster

end PhpAudit
