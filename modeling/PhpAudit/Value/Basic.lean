/-
Values whose kind is known only when the program runs.

Settings, rule settings, metadata and the loosely typed fields of a finding come from outside and
may hold anything.  A `Value` is null, a truth value, a number, a text, a list or a dictionary.
Whole numbers and doubles are told apart, and dictionaries keep the order of their keys.  A key is
any value but a list or a dictionary; two keys are the same if they are equal as values, so a whole
number, a double and a truth value of one size are one key.
-/

import PhpAudit.Assoc
import PhpAudit.Number

set_option autoImplicit false

namespace PhpAudit

/-! ### Keys -/

/-- A key of a dictionary. -/
inductive Key where
  | null
  | bool (b : Bool)
  | int (n : Int)
  | float (x : Float)
  | str (s : String)
  deriving Inhabited

instance : Coe String Key := ⟨Key.str⟩

namespace Key

/-- The number that a key stands for. -/
def number? : Key → Option Number
  | bool b => some (.int (if b then 1 else 0))
  | int n => some (.int n)
  | float x => some (.float x)
  | _ => none

/-- The text, if the key is one. -/
def str? : Key → Option String
  | str s => some s
  | _ => none

/-- Whether two keys are the same: numbers by value. -/
def same : Key → Key → Bool
  | null, null => true
  | str a, str b => a == b
  | a, b =>
    match a.number?, b.number? with
    | some m, some n => m.eqv n
    | _, _ => false

instance : BEq Key := ⟨same⟩

end Key

/-! ### Values -/

/-- A value of any kind. -/
inductive Value where
  | null
  | bool (b : Bool)
  | int (n : Int)
  | float (x : Float)
  | str (s : String)
  | list (items : List Value)
  | dict (entries : List (Key × Value))
  deriving Inhabited

instance : Coe String Value := ⟨Value.str⟩

/-- The entries of a dictionary. -/
abbrev Dict := Assoc Key Value

namespace Value

/-- The word for the kind of a value. -/
def kindName : Value → String
  | null => "NoneType"
  | bool _ => "bool"
  | int _ => "int"
  | float _ => "float"
  | str _ => "str"
  | list _ => "list"
  | dict _ => "dict"

/-- Null, false, zero and everything empty count as false. -/
def truthy : Value → Bool
  | null => false
  | bool b => b
  | int n => n != 0
  | float x => !(x == 0.0)
  | str s => s != ""
  | list items => !items.isEmpty
  | dict entries => !entries.isEmpty

/-- The value that a key stands for. -/
def ofKey : Key → Value
  | .null => null
  | .bool b => bool b
  | .int n => int n
  | .float x => float x
  | .str s => str s

/-- The key that a value can serve as. -/
def key? : Value → Option Key
  | null => some .null
  | bool b => some (.bool b)
  | int n => some (.int n)
  | float x => some (.float x)
  | str s => some (.str s)
  | list _ => none
  | dict _ => none

/-- The entry of a dictionary; none for anything else. -/
def field? (v : Value) (key : String) : Option Value :=
  match v with
  | dict entries => Assoc.get? entries key
  | _ => none

/-- The text, if the value is one. -/
def str? : Value → Option String
  | str s => some s
  | _ => none

/-- The entries, if the value is a dictionary. -/
def dict? : Value → Option Dict
  | dict entries => some entries
  | _ => none

/-- The items, if the value is a list. -/
def list? : Value → Option (List Value)
  | list items => some items
  | _ => none

/-- Whether the value is a truth value. -/
def isBool : Value → Bool
  | bool _ => true
  | _ => false

/-- Whether the value is null. -/
def isNull : Value → Bool
  | null => true
  | _ => false

/-- Texts as a list value. -/
def ofTexts (texts : List String) : Value :=
  list (texts.map str)

/-- Keys as a list value. -/
def ofKeys (keys : List Key) : Value :=
  list (keys.map ofKey)

/-- Counters as a dictionary value. -/
def ofCounts (counts : Assoc String Nat) : Value :=
  dict (counts.map fun e => (Key.str e.1, int e.2))

/-- A count as a value. -/
def nat (n : Nat) : Value :=
  int n

/-- A number as a value. -/
def ofNumber : Number → Value
  | .int n => int n
  | .float x => float x

/-- The number that a value stands for; truth values count as one and zero. -/
def number? : Value → Option Number
  | bool b => some (.int (if b then 1 else 0))
  | int n => some (.int n)
  | float x => some (.float x)
  | _ => none

/-- The whole number that a value stands for, truth values included. -/
def int? : Value → Option Int
  | bool b => some (if b then 1 else 0)
  | int n => some n
  | _ => none

mutual

/-- Equality: numbers by value, dictionaries without regard to order. -/
def eqv : Value → Value → Bool
  | null, null => true
  | str a, str b => a == b
  | list xs, list ys => eqvItems xs ys
  | dict xs, dict ys => xs.length == ys.length && eqvEntries xs ys
  | a, b =>
    match a.number?, b.number? with
    | some m, some n => m.eqv n
    | _, _ => false

/-- Equality of lists, item by item. -/
def eqvItems : List Value → List Value → Bool
  | [], [] => true
  | x :: xs, y :: ys => eqv x y && eqvItems xs ys
  | _, _ => false

/-- Whether every entry on the left has an equal one on the right. -/
def eqvEntries : List (Key × Value) → List (Key × Value) → Bool
  | [], _ => true
  | (k, x) :: xs, ys =>
    (match Assoc.get? ys k with
      | some y => eqv x y
      | none => false) && eqvEntries xs ys

end

instance : BEq Value := ⟨eqv⟩

end Value

end PhpAudit
