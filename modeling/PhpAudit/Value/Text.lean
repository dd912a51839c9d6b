/-
Values as text.

Messages show a value in one of two ways.  Plain text shows a text as it is; quoted text puts it in
quotes and escapes what cannot be shown.  Inside a list or a dictionary texts are always quoted.
-/

import PhpAudit.Value.Basic
import PhpAudit.Text.Printable

set_option autoImplicit false

namespace PhpAudit

namespace Text

/-- Hexadecimal digits of `n`, at least `width` of them. -/
def hex (width n : Nat) : List Char :=
  let digits := Nat.toDigits 16 n
  List.replicate (width - digits.length) '0' ++ digits

/-- One character inside quotes. -/
def quoteChar (mark c : Char) : List Char :=
  if c == mark || c == '\\' then ['\\', c]
  else if c == '\n' then ['\\', 'n']
  else if c == '\r' then ['\\', 'r']
  else if c == '\t' then ['\\', 't']
  else if isPrintable c then [c]
  else if c.toNat < 256 then '\\' :: 'x' :: hex 2 c.toNat
  else if c.toNat < 65536 then '\\' :: 'u' :: hex 4 c.toNat
  else '\\' :: 'U' :: hex 8 c.toNat

/-- The text in quotes. -/
def quote (s : String) : String :=
  let cs := s.toList
  let mark := if cs.contains '\'' && !cs.contains '"' then '"' else '\''
  String.ofList (mark :: cs.flatMap (quoteChar mark) ++ [mark])

end Text

namespace Value

/-- Doubles are positional from a ten-thousandth up to below ten to the sixteenth; otherwise they
have a signed exponent of at least two digits. -/
def number : Decimal.Layout :=
  ⟨-4, 15, 2, "nan", "inf"⟩

/-- A key with its text in quotes. -/
def quotedKey : Key → String
  | .null => "None"
  | .bool b => if b then "True" else "False"
  | .int n => toString n
  | .float x => number.write x
  | .str s => Text.quote s

mutual

/-- The value with texts in quotes. -/
def quoted : Value → String
  | null => "None"
  | bool b => if b then "True" else "False"
  | int n => toString n
  | float x => number.write x
  | str s => Text.quote s
  | list items => "[" ++ ", ".intercalate (quotedItems items) ++ "]"
  | dict entries => "\x7b" ++ ", ".intercalate (quotedEntries entries) ++ "\x7d"

/-- The items of a list, each quoted. -/
def quotedItems : List Value → List String
  | [] => []
  | v :: rest => quoted v :: quotedItems rest

/-- The entries of a dictionary. -/
def quotedEntries : List (Key × Value) → List String
  | [] => []
  | (k, v) :: rest => (quotedKey k ++ ": " ++ quoted v) :: quotedEntries rest

end

/-- The value as it stands in a sentence. -/
def plain : Value → String
  | str s => s
  | v => quoted v

end Value

/-- The key as it stands in a sentence. -/
def Key.plain : Key → String
  | str s => s
  | k => Value.quotedKey k

end PhpAudit
