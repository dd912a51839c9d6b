/-
Reading a number from text.

A number is written as digits with at most one point and an optional exponent; single underscores
may stand between digits.  Blanks at the ends and a sign are allowed, and so are the words for
infinity and for the absence of a number, in any case.
-/

import PhpAudit.Decimal.Shortest
import PhpAudit.Text.Blank
import PhpAudit.Text.Alphanumeric

set_option autoImplicit false

namespace PhpAudit.Decimal

/-- The double nearest to a decimal.  Beyond a power of four hundred above the leading digit every
decimal is infinite or zero, so greater powers are cut off there. -/
def Digits.toFloat (d : Digits) : Float :=
  if d.exponent < 0 then
    Float.ofScientific d.coefficient true (min (-d.exponent).toNat (Nat.log2 d.coefficient + 400))
  else Float.ofScientific d.coefficient false (min d.exponent.toNat 400)

/-- The number written by decimal digits, the first counting most. -/
def natOfDigits (cs : List Char) : Nat :=
  cs.foldl (fun n c => 10 * n + (c.toNat - 48)) 0

/-- Digits at the front and the rest, where `after` says that a digit stands in front.  An
underscore between two digits is left out. -/
def takeDigitsAfter (after : Bool) : List Char → List Char × List Char
  | [] => ([], [])
  | c :: rest =>
    if c.isDigit then
      let r := takeDigitsAfter true rest
      (c :: r.1, r.2)
    else if after && c == '_' && rest.head?.any Char.isDigit then takeDigitsAfter false rest
    else ([], c :: rest)

/-- Digits at the front, single underscores between them left out, and the rest. -/
def takeDigits (cs : List Char) : List Char × List Char :=
  takeDigitsAfter false cs

/-- An optional sign: whether it is a minus, and the rest. -/
def takeSign : List Char → Bool × List Char
  | '-' :: rest => (true, rest)
  | '+' :: rest => (false, rest)
  | rest => (false, rest)

/-- An exponent part, empty or complete. -/
def takeExponent? : List Char → Option Int
  | [] => some 0
  | c :: rest =>
    if c == 'e' || c == 'E' then
      let signed := takeSign rest
      match takeDigits signed.2 with
      | ([], _) => none
      | (ds, []) => some (if signed.1 then -(natOfDigits ds : Int) else natOfDigits ds)
      | _ => none
    else none

/-- An unsigned decimal that takes up the whole text. -/
def unsigned? (cs : List Char) : Option Digits :=
  let whole := takeDigits cs
  let fraction := match whole.2 with
    | '.' :: rest => takeDigits rest
    | rest => ([], rest)
  if whole.1.isEmpty && fraction.1.isEmpty then none
  else (takeExponent? fraction.2).map fun e =>
    ⟨natOfDigits (whole.1 ++ fraction.1), e - (fraction.1.length : Int)⟩

/-- Digits of every script become ASCII digits. -/
def asciiDigits (cs : List Char) : List Char :=
  cs.map fun c => match Text.digitValue? c with
    | some v => Char.ofNat (48 + v)
    | none => c

/-- The double that a text stands for. -/
def ofText? (s : String) : Option Float :=
  let signed := takeSign (asciiDigits (Text.trimRight (Text.trimLeft s.toList)))
  let body := signed.2
  let word := String.ofList (body.map Char.toLower)
  let magnitude :=
    if word == "inf" || word == "infinity" then some (1.0 / 0.0 : Float)
    else if word == "nan" then some (0.0 / 0.0 : Float)
    else (unsigned? body).map Digits.toFloat
  magnitude.map fun x => if signed.1 then -x else x

/-- How many digits the text of a whole number can have. -/
def mostDigits : Nat := 4300

/-- The whole number that a text stands for: digits alone, with the same blanks, sign and
underscores allowed, and not too many. -/
def wholeOfText? (s : String) : Option Int :=
  let signed := takeSign (asciiDigits (Text.trimRight (Text.trimLeft s.toList)))
  match takeDigits signed.2 with
  | ([], _) => none
  | (ds, []) =>
    if mostDigits < ds.length then none
    else some (if signed.1 then -(natOfDigits ds : Int) else natOfDigits ds)
  | _ => none

end PhpAudit.Decimal
