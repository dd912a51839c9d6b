/-
What plain scalars of a settings file stand for.

A plain scalar is null, a truth value, a number or a text, told apart by how it is written.  Numbers
may have underscores between their digits, and colons between digits to the base of sixty.
-/

import PhpAudit.Json.Reader

set_option autoImplicit false

namespace PhpAudit.Yaml

/-- The ways to write null. -/
def nullWords : List String :=
  ["", "~", "null", "Null", "NULL"]

/-- The ways to write true. -/
def trueWords : List String :=
  ["yes", "Yes", "YES", "true", "True", "TRUE", "on", "On", "ON"]

/-- The ways to write false. -/
def falseWords : List String :=
  ["no", "No", "NO", "false", "False", "FALSE", "off", "Off", "OFF"]

/-- Digits of a base, underscores left out. -/
def digitsOf? (base : Nat) (cs : List Char) : Option Nat :=
  (cs.filter (· != '_')).foldl (fun acc c =>
    match acc, Json.hexValue? c with
    | some n, some d => if d < base then some (base * n + d) else none
    | _, _ => none) (some 0)

/-- A group behind a colon: one digit, or two of which the first is below six. -/
def sixtieth? : List Char → Option Nat
  | [c] => if c.isDigit then some (Decimal.natOfDigits [c]) else none
  | [c, d] => if c.isDigit && c < '6' && d.isDigit then some (Decimal.natOfDigits [c, d]) else none
  | _ => none

/-- A whole number whose groups of digits have the base of sixty. -/
def sexagesimal? (first : List Char) (groups : List (List Char)) : Option Nat := do
  let start ← digitsOf? 10 first
  return (← groups.mapM sixtieth?).foldl (fun n d => 60 * n + d) start

/-- An unsigned whole number: binary, hexadecimal, octal, decimal or to the base of sixty. -/
def unsignedInt? : List Char → Option Nat
  | '0' :: 'b' :: c :: rest => digitsOf? 2 (c :: rest)
  | '0' :: 'x' :: c :: rest => digitsOf? 16 (c :: rest)
  | '0' :: rest => digitsOf? 8 rest
  | c :: rest =>
    if c.isDigit then
      match (c :: rest).splitOn ':' with
      | [digits] => digitsOf? 10 digits
      | first :: groups => sexagesimal? first groups
      | [] => none
    else none
  | [] => none

/-- An unsigned double to the base of sixty: groups of digits, and a fraction behind the last. -/
def sexagesimalFloat? (cs : List Char) : Option Float :=
  match cs.splitOn '.' with
  | [whole, fraction] =>
    match whole.splitOn ':' with
    | first :: group :: groups =>
      if first.head?.all (!Char.isDigit ·) || !fraction.all fun c => c.isDigit || c == '_' then none
      else
        match sexagesimal? first ((group :: groups).dropLast), (group :: groups).getLast? with
        | some start, some last =>
          (sixtieth? last).map fun d =>
            let ds := fraction.filter (· != '_')
            let seconds := Decimal.Digits.toFloat
              ⟨Decimal.natOfDigits (Nat.toDigits 10 d ++ ds), -(ds.length : Int)⟩
            seconds + (60 * start).toFloat
        | _, _ => none
    | _ => none
  | _ => none

/-- An unsigned double: digits around a point, and an exponent that must have a sign. -/
def unsignedFloat? (signed : Bool) (cs : List Char) : Option Float :=
  let isPart (c : Char) : Bool := c.isDigit || c == '_'
  let whole := cs.takeWhile isPart
  match cs.dropWhile isPart with
  | '.' :: rest =>
    let fraction := rest.takeWhile isPart
    let tail := rest.dropWhile isPart
    let wholeOk := match whole with
      | c :: _ => c.isDigit
      | [] => !signed && fraction.head?.any Char.isDigit
    let exponent? : Option Int := match tail with
      | [] => some 0
      | e :: s :: ds =>
        if (e == 'e' || e == 'E') && (s == '+' || s == '-') && !ds.isEmpty &&
            ds.all Char.isDigit then
          some (if s == '-' then -(Decimal.natOfDigits ds : Int) else Decimal.natOfDigits ds)
        else none
      | _ => none
    if !wholeOk then none
    else exponent?.map fun e =>
      let ds := fraction.filter (· != '_')
      Decimal.Digits.toFloat
        ⟨Decimal.natOfDigits (whole.filter (· != '_') ++ ds), e - (ds.length : Int)⟩
  | _ => none

/-- The words for infinity. -/
def infinityWords : List String :=
  [".inf", ".Inf", ".INF"]

/-- What a plain scalar stands for. -/
def resolve (s : String) : Value :=
  if nullWords.contains s then .null
  else if trueWords.contains s then .bool true
  else if falseWords.contains s then .bool false
  else
    let signed := Decimal.takeSign s.toList
    let hasSign := signed.2.length != s.toList.length
    match unsignedInt? signed.2 with
    | some n => .int (if signed.1 then -(n : Int) else n)
    | none =>
      match (unsignedFloat? hasSign signed.2).orElse fun _ => sexagesimalFloat? signed.2 with
      | some x => .float (if signed.1 then -x else x)
      | none =>
        if infinityWords.contains (String.ofList signed.2) then
          .float (if signed.1 then -(1.0 / 0.0) else 1.0 / 0.0)
        else if [".nan", ".NaN", ".NAN"].contains s then .float (0.0 / 0.0)
        else .str s

end PhpAudit.Yaml
