/-
What goes wrong when a value is used as something it is not.

Values come from outside, so an operation can meet one of the wrong kind.  Each cause has a
constructor, and the wording of all of them is in `Misuse.message`.

* `Misuse` — the causes;
* `Misuse.kind`, `Misuse.message` — the word for the kind of each, and its wording;
* `Value.items`, `Value.entry`, `Value.toKey`, … — operations that can meet a wrong kind.
-/

import PhpAudit.Value.Text
import PhpAudit.Decimal.Read
import PhpAudit.Text.Part

set_option autoImplicit false

namespace PhpAudit

/-- A use of a value that its kind does not allow. -/
inductive Misuse where
  /-- The kind has no such operation. -/
  | noAttribute (kind operation : String)
  /-- The kind has no entries. -/
  | notSubscriptable (kind : String)
  /-- A list was asked for an entry by something other than its place. -/
  | listIndex (kind : String)
  /-- A text was asked for a named entry. -/
  | textIndex
  /-- A dictionary lacks the key. -/
  | missingKey (key : String)
  /-- The kind has no items to go through. -/
  | notIterable (kind : String)
  /-- The kind cannot be asked what it contains. -/
  | notContainer (kind : String)
  /-- The kind does not stand for a number. -/
  | notNumber (kind : String)
  /-- The text does not stand for a number. -/
  | unreadableNumber (text : String)
  /-- A name or a pattern must be a text. -/
  | notPath (kind : String)
  /-- A suffix must be a text. -/
  | notSuffix (kind : String)
  /-- The two kinds have no order. -/
  | unordered (relation left right : String)
  /-- An item of a list that is joined must be a text. -/
  | notJoinable (place : Nat) (kind : String)
  /-- The item cannot be read as a pair. -/
  | notPair (place : Nat)
  /-- The item has the wrong length for a pair. -/
  | pairLength (place length : Nat)
  /-- The kind cannot be added to a text. -/
  | notText (kind : String)
  /-- The kind cannot be combined by an operator. -/
  | noOperator (operator left right : String)
  /-- A pattern is malformed. -/
  | badPattern (reason : String)
  /-- A pattern repeats something too often. -/
  | countTooLarge
  /-- A pattern must be a text. -/
  | notPattern
  /-- The kind cannot be looked up. -/
  | unhashable (kind : String)
  /-- The number has no whole part. -/
  | infinite
  /-- The whole number exceeds every double. -/
  | tooLarge
  /-- The quotient of two whole numbers exceeds every double. -/
  | quotientTooLarge
  /-- The double is no number at all. -/
  | notANumber
  /-- The kind cannot be rounded. -/
  | noRounding (kind : String)
  /-- The kind has no length. -/
  | noLength (kind : String)
  /-- The kind has no such one-sided operator. -/
  | noSign (operator kind : String)
  /-- The kind cannot be added to a list. -/
  | notList (kind : String)
  /-- A list has no item at the place. -/
  | noItem
  /-- Only a text can be part of a text. -/
  | notPart (kind : String)
  /-- The kind does not say how many items are meant. -/
  | notCount
  /-- A text cannot be repeated as often as a value of this kind says. -/
  | notRepeatable (kind : String)
  /-- An encoding must be named by a text. -/
  | notEncoding (kind : String)
  /-- The kind does not stand for a whole number. -/
  | notWhole (kind : String)

namespace Misuse

/-- The wording of each cause. -/
def message : Misuse → String
  | noAttribute kind operation => s!"'{kind}' object has no attribute '{operation}'"
  | notSubscriptable kind => s!"'{kind}' object is not subscriptable"
  | listIndex kind => s!"list indices must be integers or slices, not {kind}"
  | textIndex => "string indices must be integers, not 'str'"
  | missingKey key => Text.quote key
  | notIterable kind => s!"'{kind}' object is not iterable"
  | notContainer kind => s!"argument of type '{kind}' is not iterable"
  | notNumber kind => s!"float() argument must be a string or a real number, not '{kind}'"
  | unreadableNumber text => "could not convert string to float: " ++ Text.quote text
  | notPath kind => s!"expected str, bytes or os.PathLike object, not {kind}"
  | notSuffix kind => s!"tuple for endswith must only contain str, not {kind}"
  | unordered relation left right =>
    s!"'{relation}' not supported between instances of '{left}' and '{right}'"
  | notJoinable place kind => s!"sequence item {place}: expected str instance, {kind} found"
  | notPair place => s!"cannot convert dictionary update sequence element #{place} to a sequence"
  | pairLength place length =>
    s!"dictionary update sequence element #{place} has length {length}; 2 is required"
  | notText kind => "can only concatenate str (not \"" ++ kind ++ "\") to str"
  | noOperator operator left right =>
    s!"unsupported operand type(s) for {operator}: '{left}' and '{right}'"
  | badPattern reason => reason
  | countTooLarge => "the repetition number is too large"
  | notPattern => "first argument must be string or compiled pattern"
  | unhashable kind => s!"unhashable type: '{kind}'"
  | infinite => "cannot convert float infinity to integer"
  | tooLarge => "int too large to convert to float"
  | quotientTooLarge => "integer division result too large for a float"
  | notANumber => "cannot convert float NaN to integer"
  | noRounding kind => s!"type {kind} doesn't define __round__ method"
  | noLength kind => s!"object of type '{kind}' has no len()"
  | noSign operator kind => s!"bad operand type for unary {operator}: '{kind}'"
  | notList kind => "can only concatenate list (not \"" ++ kind ++ "\") to list"
  | noItem => "list index out of range"
  | notPart kind => s!"'in <string>' requires string as left operand, not {kind}"
  | notCount => "slice indices must be integers or None or have an __index__ method"
  | notRepeatable kind => s!"can't multiply sequence by non-int of type '{kind}'"
  | notEncoding kind => s!"decode() argument 'encoding' must be str, not {kind}"
  | notWhole kind => s!"'{kind}' object cannot be interpreted as an integer"

/-- The word for the kind of each cause. -/
def kind : Misuse → String
  | noAttribute _ _ => "AttributeError"
  | missingKey _ => "KeyError"
  | noItem => "IndexError"
  | unreadableNumber _ => "ValueError"
  | pairLength _ _ => "ValueError"
  | notANumber => "ValueError"
  | badPattern _ => "error"
  | countTooLarge => "OverflowError"
  | infinite => "OverflowError"
  | tooLarge => "OverflowError"
  | quotientTooLarge => "OverflowError"
  | _ => "TypeError"

/-- Kind and wording in one line. -/
def label (m : Misuse) : String :=
  m.kind ++ ": " ++ m.message

end Misuse

namespace Value

/-- The entry of a dictionary that must be there. -/
def entry (v : Value) (key : String) : Except Misuse Value :=
  match v with
  | dict entries =>
    match Assoc.get? entries key with
    | some x => .ok x
    | none => .error (.missingKey key)
  | list _ => .error (.listIndex "str")
  | str _ => .error .textIndex
  | other => .error (.notSubscriptable other.kindName)

/-- The entries of a dictionary, asked for through the operation `operation`. -/
def entries (v : Value) (operation : String) : Except Misuse Dict :=
  match v with
  | dict es => .ok es
  | other => .error (.noAttribute other.kindName operation)

/-- The items to go through: those of a list, the keys of a dictionary, the characters of a
text. -/
def items : Value → Except Misuse (List Value)
  | list xs => .ok xs
  | dict es => .ok (es.map fun e => ofKey e.1)
  | str s => .ok (s.toList.map fun c => str (String.ofList [c]))
  | other => .error (.notIterable other.kindName)

/-- The items, or none at all for a value that counts as false. -/
def itemsOrEmpty (v : Value) : Except Misuse (List Value) :=
  if v.truthy then v.items else .ok []

/-- The double that a value stands for, texts included. -/
def toFloat (v : Value) : Except Misuse Float :=
  match v.number? with
  | some n => n.toFloat?.elim (.error .tooLarge) .ok
  | none =>
    match v with
    | str s =>
      match Decimal.ofText? s with
      | some x => .ok x
      | none => .error (.unreadableNumber s)
    | other => .error (.notNumber other.kindName)

/-- The key that a value serves as. -/
def toKey (v : Value) : Except Misuse Key :=
  v.key?.elim (.error (.unhashable v.kindName)) .ok

/-- How many items, entries or characters a value has. -/
def length : Value → Except Misuse Nat
  | list xs => .ok xs.length
  | dict es => .ok es.length
  | str s => .ok s.length
  | other => .error (.noLength other.kindName)

/-- One item read as a pair of a key and a value. -/
def pair (place : Nat) (v : Value) : Except Misuse (Key × Value) :=
  match v.items with
  | .ok [k, x] => do return (← k.toKey, x)
  | .ok xs => .error (.pairLength place xs.length)
  | .error _ => .error (.notPair place)

/-- The entries of a dictionary, or of a list of pairs. -/
def pairs (v : Value) : Except Misuse Dict :=
  match v with
  | dict es => .ok es
  | other => do
    let xs ← other.items
    return Assoc.ofList (← xs.zipIdx.mapM fun x => pair x.2 x.1)

/-- A dictionary from a dictionary or from a list of pairs; empty for a value that counts as
false. -/
def toDict (v : Value) : Except Misuse Dict :=
  if v.truthy then v.pairs else .ok []

/-- Whether a key or a word is in a value: a key of a dictionary, an item of a list, a part of a
text. -/
def holds (v : Value) (word : String) : Except Misuse Bool :=
  match v with
  | dict es => .ok (Assoc.has es word)
  | list xs => .ok (xs.any (eqv (str word)))
  | str whole => .ok (Text.contains whole word)
  | other => .error (.notContainer other.kindName)

end Value

end PhpAudit
