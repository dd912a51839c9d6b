/-
What a reader of patterns looks at, sign by sign.

A sign is a character, or a backslash with the character behind it.  The reader knows which groups
are open and which are closed, because a pattern may refer to a group only once it is closed.
-/

import PhpAudit.Pattern.Fault
import PhpAudit.Pattern.Width

set_option autoImplicit false

namespace PhpAudit.Pattern

/-- A sign with the place where it starts. -/
structure Sign where
  text : String
  position : Nat

/-- The signs of a text from a place on, and whether a lone backslash ends it. -/
def signs (position : Nat) : List Char → List Sign × Bool
  | [] => ([], false)
  | ['\\'] => ([], true)
  | '\\' :: c :: rest =>
    let more := signs (position + 2) rest
    (⟨String.ofList ['\\', c], position⟩ :: more.1, more.2)
  | c :: rest =>
    let more := signs (position + 1) rest
    (⟨String.ofList [c], position⟩ :: more.1, more.2)

/-- What is left to read and what is known so far. -/
structure Input where
  signs : List Sign
  /-- The length of the whole pattern. -/
  length : Nat
  /-- Whether a lone backslash stands behind the last sign. -/
  broken : Bool
  /-- The letters of the flags that hold for the whole pattern. -/
  flags : List Char := []
  /-- The widths of the groups in order, none for one that is still open. -/
  groups : List (Option Width) := []
  names : Assoc String Nat := []
  /-- Groups that the pattern asks for by number, and where. -/
  asked : List (Nat × Nat) := []
  /-- The number of groups in front of the outermost look-behind that is being read. -/
  lookBehind : Option Nat := none
  /-- Whether some look-behind has no fixed length. -/
  variableLook : Bool := false

/-- Steps of a reader. -/
abbrev Reading := StateT Input (Except Fault)

variable {α : Type}

/-- The place of the next sign. -/
def Input.place (i : Input) : Nat :=
  (i.signs.head?.map Sign.position).getD i.length

/-- Fails with a cause that is met so many characters in front of the next sign. -/
def fail (reason : Reason) (back : Nat := 0) : Reading α := do
  throw { reason, position := some ((← get).place - back) }

/-- Fails with a cause that is met at a place. -/
def failAt (reason : Reason) (position : Nat) : Reading α :=
  throw { reason, position := some position }

/-- The next sign, which is left where it is. -/
def peek : Reading (Option String) := do
  return (← get).signs.head?.map Sign.text

/-- The place of the next sign. -/
def here : Reading Nat := do
  return (← get).place

/-- Takes the next sign.  What comes behind it is looked at right away, so a lone backslash there is
found now. -/
def next : Reading (Option String) := do
  let i ← get
  match i.signs with
  | [] => return none
  | s :: rest =>
    if rest.isEmpty && i.broken then failAt .trailingEscape (i.length - 1)
    modify fun i => { i with signs := rest }
    return some s.text

/-- Takes the next sign, which must be there. -/
def nextOr (reason : Reason) : Reading String := do
  match ← next with
  | some s => return s
  | none => fail reason

/-- Takes the next sign if it is the given one. -/
def accept (sign : String) : Reading Bool := do
  if (← peek) == some sign then
    let _ ← next
    return true
  else return false

/-- Takes at most so many signs out of some characters. -/
def takeAmong (test : Char → Bool) : Nat → Reading String
  | 0 => return ""
  | count + 1 => do
    match (← peek).map String.toList with
    | some [c] =>
      if test c then
        let _ ← next
        return String.ofList [c] ++ (← takeAmong test count)
      else return ""
    | _ => return ""

/-- Takes the signs up to a closing one, which is taken as well; there must be some. -/
def takeUntil (close what : String) : Nat → String → Reading String
  | 0, done => return done
  | fuel + 1, done => do
    match ← next with
    | none => if done == "" then fail (.missing what) else fail (.openName close) done.length
    | some s =>
      if s == close then
        if done == "" then fail (.missing what) 1
        return done
      else takeUntil close what fuel (done ++ s)

/-- Takes a name up to its closing sign. -/
def takeName (close : String) : Reading String := do
  takeUntil close "group name" ((← get).signs.length + 1) ""

/-! ### Groups -/

/-- Opens a group and gives its number. -/
def openGroup : Reading Nat := do
  modify fun i => { i with groups := i.groups ++ [none] }
  return (← get).groups.length

/-- The width of a group; one that is not closed has none. -/
def Input.groupWidth? (i : Input) (number : Nat) : Option Width :=
  if number == 0 then none else (i.groups[number - 1]?).join

/-- The width of a pattern over the groups read so far. -/
def Input.widthOf (i : Input) (p : Pattern) : Width :=
  p.width fun n => (i.groupWidth? n).getD .zero

/-- Closes a group. -/
def closeGroup (number : Nat) (body : Pattern) : Reading Unit :=
  modify fun i => { i with groups := i.groups.set (number - 1) (some (i.widthOf body)) }

/-- Inside a look-behind, refuses a group that is open or was opened in it. -/
def checkLookBehind (number : Nat) : Reading Unit := do
  let i ← get
  match i.lookBehind with
  | none => return ()
  | some outside =>
    if (i.groupWidth? number).isNone then fail .insideGroup
    if outside < number then fail .insideLookBehind

/-- The text of a group once more, if the group is closed; otherwise the fault lies so many
characters back. -/
def reference (number back : Nat) : Reading Pattern := do
  if ((← get).groupWidth? number).isNone then fail .insideGroup back
  checkLookBehind number
  return .again number

end PhpAudit.Pattern
