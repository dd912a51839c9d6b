/-
Values read from JSON.

Numbers with a point or an exponent are doubles and all others are whole numbers of any size.  The
entries of an object keep their order; a repeated key keeps its first place and its last value.
Every step of the reader uses up a character, so the length of the text bounds its recursion.

* `Json.read?` — the value of a text, with the rest behind it;
* `Json.parse?` — the value of a whole text.
-/

import PhpAudit.Value.Basic
import PhpAudit.Decimal.Read

set_option autoImplicit false

namespace PhpAudit.Json

/-- The characters after JSON's own blanks. -/
def skipBlanks (cs : List Char) : List Char :=
  cs.dropWhile fun c => c == ' ' || c == '\n' || c == '\r' || c == '\t'

/-- The value of a hexadecimal digit. -/
def hexValue? (c : Char) : Option Nat :=
  if c.isDigit then some (c.toNat - 48)
  else if 'a' ≤ c && c ≤ 'f' then some (c.toNat - 87)
  else if 'A' ≤ c && c ≤ 'F' then some (c.toNat - 55)
  else none

/-- Four hexadecimal digits and the rest. -/
def hexUnit? : List Char → Option (Nat × List Char)
  | a :: b :: c :: d :: rest =>
    match hexValue? a, hexValue? b, hexValue? c, hexValue? d with
    | some w, some x, some y, some z => some (4096 * w + 256 * x + 16 * y + z, rest)
    | _, _, _, _ => none
  | _ => none

/-- The character of a `\u` escape, whose second half may follow. -/
def escapedUnit? (cs : List Char) : Option (Char × List Char) :=
  match hexUnit? cs with
  | none => none
  | some (n, rest) =>
    if 55296 ≤ n && n < 56320 then
      match rest with
      | '\\' :: 'u' :: more =>
        match hexUnit? more with
        | some (m, after) =>
          if 56320 ≤ m && m < 57344 then
            some (Char.ofNat (65536 + 1024 * (n - 55296) + (m - 56320)), after)
          else some (Char.ofNat 65533, rest)
        | none => none
      | _ => some (Char.ofNat 65533, rest)
    else some (Char.ofNat n, rest)

/-- One escaped character, after its backslash. -/
def escaped? : List Char → Option (Char × List Char)
  | 'n' :: rest => some ('\n', rest)
  | 't' :: rest => some ('\t', rest)
  | 'r' :: rest => some ('\r', rest)
  | 'b' :: rest => some (Char.ofNat 8, rest)
  | 'f' :: rest => some (Char.ofNat 12, rest)
  | '"' :: rest => some ('"', rest)
  | '\\' :: rest => some ('\\', rest)
  | '/' :: rest => some ('/', rest)
  | 'u' :: rest => escapedUnit? rest
  | _ => none

/-- The characters up to the closing quote, put in front of `done` in reverse, and the rest. -/
def string? : Nat → List Char → List Char → Option (String × List Char)
  | 0, _, _ => none
  | _ + 1, _, [] => none
  | fuel + 1, done, c :: rest =>
    if c == '"' then some (String.ofList done.reverse, rest)
    else if c == '\\' then
      match escaped? rest with
      | some (d, after) => string? fuel (d :: done) after
      | none => none
    else string? fuel (c :: done) rest

/-- Whether a character can belong to a number. -/
def inNumber (c : Char) : Bool :=
  c.isDigit || c == '.' || c == 'e' || c == 'E' || c == '+' || c == '-'

/-- The number written by the given characters. -/
def number? (cs : List Char) : Option Value :=
  let signed := Decimal.takeSign cs
  if cs.any fun c => c == '.' || c == 'e' || c == 'E' then
    (Decimal.unsigned? signed.2).map fun d => .float (if signed.1 then -d.toFloat else d.toFloat)
  else if signed.2.isEmpty || !signed.2.all Char.isDigit then none
  else
    let n := Decimal.natOfDigits signed.2
    some (.int (if signed.1 then -(n : Int) else n))

/-- The words that stand for a value, those for doubles without decimal digits included. -/
def words : List (String × Value) :=
  [("null", .null), ("true", .bool true), ("false", .bool false),
   ("NaN", .float (0.0 / 0.0)), ("Infinity", .float (1.0 / 0.0)),
   ("-Infinity", .float (-1.0 / 0.0))]

/-- A word at the front, and the rest behind it. -/
def word? (cs : List Char) : Option (Value × List Char) :=
  words.findSome? fun w =>
    if w.1.toList.isPrefixOf cs then some (w.2, cs.drop w.1.length) else none

/-- A word or a number. -/
def atom? (cs : List Char) : Option (Value × List Char) :=
  match word? cs with
  | some r => some r
  | none => (number? (cs.takeWhile inNumber)).map fun v => (v, cs.dropWhile inNumber)

mutual

/-- A value and the rest behind it. -/
def read? : Nat → List Char → Option (Value × List Char)
  | 0, _ => none
  | fuel + 1, cs =>
    match skipBlanks cs with
    | '"' :: rest => (string? (fuel + 1) [] rest).map fun r => (.str r.1, r.2)
    | '[' :: rest =>
      match skipBlanks rest with
      | ']' :: after => some (.list [], after)
      | _ => readItems? fuel [] rest
    | c :: rest =>
      if c.toNat == 123 then
        match skipBlanks rest with
        | d :: after =>
          if d.toNat == 125 then some (.dict [], after) else readEntries? fuel [] (d :: after)
        | [] => none
      else atom? (c :: rest)
    | [] => none

/-- The items of a list up to its bracket; `done` holds those read, the last first. -/
def readItems? : Nat → List Value → List Char → Option (Value × List Char)
  | 0, _, _ => none
  | fuel + 1, done, cs =>
    match read? fuel cs with
    | none => none
    | some (v, rest) =>
      match skipBlanks rest with
      | ',' :: after => readItems? fuel (v :: done) after
      | ']' :: after => some (.list (v :: done).reverse, after)
      | _ => none

/-- The entries of an object up to its brace. -/
def readEntries? : Nat → List (Key × Value) → List Char → Option (Value × List Char)
  | 0, _, _ => none
  | fuel + 1, done, cs =>
    match skipBlanks cs with
    | '"' :: rest =>
      match string? (fuel + 1) [] rest with
      | none => none
      | some (key, after) =>
        match skipBlanks after with
        | ':' :: more =>
          match read? fuel more with
          | none => none
          | some (v, tail) =>
            match skipBlanks tail with
            | ',' :: next => readEntries? fuel ((.str key, v) :: done) next
            | d :: next =>
              if d.toNat == 125 then
                some (.dict (Assoc.ofList ((.str key, v) :: done).reverse), next)
              else none
            | [] => none
        | _ => none
    | _ => none

end

/-- The value of a whole text. -/
def parse? (s : String) : Option Value :=
  let cs := s.toList
  match read? (cs.length + 1) cs with
  | some (v, rest) => if (skipBlanks rest).isEmpty then some v else none
  | none => none

end PhpAudit.Json
