/-
Requests to a roster.

A roster can be asked to change, asked a question, and locked for a while.  It changes in place, so
what a request does before it is refused stays done.  What is to be registered comes from outside:
it may be no analyzer at all, and a name may be of a kind under which nothing can be listed.
-/

import PhpAudit.Roster
import PhpAudit.Value.Misuse

set_option autoImplicit false

namespace PhpAudit.Roster

variable {α β : Type}

/-- What can be asked of a roster. -/
inductive Request (α : Type) where
  | register (name : Value) (member : α)
  /-- Something that is no analyzer is to be registered. -/
  | registerOther (given : Value)
  | unregister (name : Value)
  | get (name : Value)
  | has (name : Value)
  | size
  | names
  | list
  | isLocked
  /-- A locked block is entered. -/
  | enter
  /-- A locked block is left. -/
  | leave

/-- What a roster answers. -/
inductive Reply (α : Type) where
  | done
  | truth (b : Bool)
  | count (n : Nat)
  | member (found : Option α)
  | names (ks : List Key)
  | members (ms : List α)

/-- Why a request is refused. -/
inductive Refusal where
  | locked
  /-- What was to be registered is no analyzer. -/
  | notAnalyzer (given : Value)
  | misuse (cause : Misuse)

/-- The wording of each cause. -/
def Refusal.message : Refusal → String
  | locked => Error.locked.message
  | notAnalyzer given => "Analyzer must inherit from Analyzer: " ++ given.quoted
  | misuse cause => cause.message

/-- A roster that changes in place while a request is served, and a result or a refusal. -/
abbrev Serving (α β : Type) := ExceptT Refusal (StateM (Roster Key α)) β

/-- Refuses while the roster is locked. -/
def ensureUnlocked : Serving α Unit := do
  if (← get).locks ≠ 0 then throw .locked

/-- The key that a name stands for. -/
def keyOf (name : Value) : Serving α Key :=
  match name.toKey with
  | .ok key => return key
  | .error cause => throw (.misuse cause)

/-- Makes a change, unless the roster refuses it. -/
def change (make : Roster Key α → Except Error (β × Roster Key α)) : Serving α β := do
  match make (← get) with
  | .ok (b, r) =>
    set r
    return b
  | .error .locked => throw .locked

/-- What a request comes to. -/
def serve : Request α → Serving α (Reply α)
  | .register name member => do
    ensureUnlocked
    let key ← keyOf name
    change fun r => (r.register key member).map fun r' => (.done, r')
  | .registerOther given => throw (.notAnalyzer given)
  | .unregister name => do
    ensureUnlocked
    let key ← keyOf name
    return .truth (← change fun r => r.unregister key)
  | .get name => do
    let key ← keyOf name
    return .member ((← get).get? key)
  | .has name => do
    let key ← keyOf name
    return .truth ((← get).has key)
  | .size => return .count (← get).size
  | .names => return .names (← get).names
  | .list => return .members (← get).list
  | .isLocked => return .truth (← get).isLocked
  | .enter => do
    modify lock
    return .done
  | .leave => do
    modify unlock
    return .done

/-- The answer to a request or its refusal, and what the roster has become. -/
def ask (r : Roster Key α) (q : Request α) : Except Refusal (Reply α) × Roster Key α :=
  (serve q).run r

/-- A roster after some requests, answered or refused. -/
def follow (r : Roster Key α) (qs : List (Request α)) : Roster Key α :=
  qs.foldl (fun r q => (r.ask q).2) r

end PhpAudit.Roster
