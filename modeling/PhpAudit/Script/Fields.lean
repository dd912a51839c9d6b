/-
Descriptions: parts of an audit given as data.

Trees, rules, analyzers, reports and work can be described by values, so that the library can be
tried out on made-up cases.  A description is read leniently: a field that is missing or of another
kind stands for its default.
-/

import PhpAudit.Value.Text

set_option autoImplicit false

namespace PhpAudit.Script

/-- A field, or null. -/
def field (v : Value) (key : String) : Value :=
  (v.field? key).getD .null

/-- A field, or a default. -/
def fieldOr (v : Value) (key : String) (default : Value) : Value :=
  (v.field? key).getD default

/-- A field that is a text, or a default. -/
def textOr (v : Value) (key default : String) : String :=
  ((v.field? key).bind Value.str?).getD default

/-- A field that is a number, or a default. -/
def numberOr (v : Value) (key : String) (default : Number) : Number :=
  ((v.field? key).bind Value.number?).getD default

/-- A field that is a whole number, or a default. -/
def intOr (v : Value) (key : String) (default : Int) : Int :=
  ((v.field? key).bind Value.int?).getD default

/-- A field that is a count, or a default. -/
def natOr (v : Value) (key : String) (default : Nat) : Nat :=
  (intOr v key default).toNat

/-- Whether a field counts as true, or a default. -/
def boolOr (v : Value) (key : String) (default : Bool) : Bool :=
  match v.field? key with
  | some x => x.truthy
  | none => default

/-- The items of a list; nothing else has any. -/
def items (v : Value) : List Value :=
  v.list?.getD []

/-- The entries of a dictionary; nothing else has any. -/
def entries (v : Value) : Dict :=
  v.dict?.getD []

/-- The items of a list as texts. -/
def texts (v : Value) : List String :=
  (items v).map Value.plain

/-- A text; the empty one stands for everything else. -/
def text (v : Value) : String :=
  v.str?.getD ""

/-- An item of a list, or null. -/
def nth (v : Value) (i : Nat) : Value :=
  ((items v)[i]?).getD .null

/-- A count; zero stands for everything else. -/
def count (v : Value) : Nat :=
  (v.int?.getD 0).toNat

/-- A number; zero stands for everything else. -/
def number (v : Value) : Number :=
  v.number?.getD (.int 0)

/-- A forest from rows in pre-order with their depths. -/
def forest {α β : Type} (depth : α → Nat) (make : α → List β → β) (rows : List α) : List β :=
  let pending := rows.foldr (fun row (acc : List (Nat × β)) =>
    let d := depth row
    let inner := acc.takeWhile fun e => decide (d < e.1)
    (d, make row (inner.map Prod.snd)) :: acc.drop inner.length) []
  pending.map Prod.snd

end PhpAudit.Script
