/-
Values written as JSON.

The text is pure ASCII: everything else is written as `\u` escapes, in pairs beyond the basic
plane.  Entries keep their order, and keys that are no texts are written as the texts of their
values.  With an indent every item stands on a line of its own, behind as many copies of the indent
as there are brackets around it; without one a comma and a blank part the items.
-/

import PhpAudit.Value.Text

set_option autoImplicit false

namespace PhpAudit.Json

/-- A `\u` escape of a sixteen bit unit. -/
def unit (n : Nat) : List Char :=
  '\\' :: 'u' :: Text.hex 4 n

/-- One character inside double quotes. -/
def escapeChar (c : Char) : List Char :=
  if c == '"' then ['\\', '"']
  else if c == '\\' then ['\\', '\\']
  else if c == '\n' then ['\\', 'n']
  else if c == '\r' then ['\\', 'r']
  else if c == '\t' then ['\\', 't']
  else if c.toNat == 8 then ['\\', 'b']
  else if c.toNat == 12 then ['\\', 'f']
  else if decide (32 ≤ c.toNat) && decide (c.toNat < 127) then [c]
  else if c.toNat < 65536 then unit c.toNat
  else
    let rest := c.toNat - 65536
    unit (55296 + rest / 1024) ++ unit (56320 + rest % 1024)

/-- The text between double quotes. -/
def escape (s : String) : String :=
  String.ofList ('"' :: s.toList.flatMap escapeChar ++ ['"'])

/-- Numbers as in messages, with the words of the format for what is no number. -/
def number : Decimal.Layout :=
  { Value.number with nan := "NaN", infinity := "Infinity" }

/-- The text of a key. -/
def keyText : Key → String
  | .null => "null"
  | .bool b => if b then "true" else "false"
  | .int n => toString n
  | .float x => number.write x
  | .str s => s

/-- What follows an opening bracket or a comma at so many levels inside. -/
def lineBreak (indent : Option String) (level : Nat) : String :=
  match indent with
  | none => ""
  | some blanks => "\n" ++ String.join (List.replicate level blanks)

/-- What parts two items. -/
def comma (indent : Option String) (level : Nat) : String :=
  match indent with
  | none => ", "
  | some _ => "," ++ lineBreak indent level

mutual

/-- The text of a value that stands at a level. -/
def renderAt (indent : Option String) (level : Nat) : Value → String
  | .null => "null"
  | .bool b => if b then "true" else "false"
  | .int n => toString n
  | .float x => number.write x
  | .str s => escape s
  | .list items =>
    if items.isEmpty then "[]"
    else "[" ++ lineBreak indent (level + 1) ++
      (comma indent (level + 1)).intercalate (renderItems indent (level + 1) items) ++
      lineBreak indent level ++ "]"
  | .dict entries =>
    if entries.isEmpty then "\x7b\x7d"
    else "\x7b" ++ lineBreak indent (level + 1) ++
      (comma indent (level + 1)).intercalate (renderEntries indent (level + 1) entries) ++
      lineBreak indent level ++ "\x7d"

/-- The texts of the items of a list. -/
def renderItems (indent : Option String) (level : Nat) : List Value → List String
  | [] => []
  | v :: rest => renderAt indent level v :: renderItems indent level rest

/-- The texts of the entries of a dictionary. -/
def renderEntries (indent : Option String) (level : Nat) : List (Key × Value) → List String
  | [] => []
  | (k, v) :: rest =>
    (escape (keyText k) ++ ": " ++ renderAt indent level v) :: renderEntries indent level rest

end

/-- The JSON text of a value, on one line or indented. -/
def render (indent : Option String) (v : Value) : String :=
  renderAt indent 0 v

end PhpAudit.Json
