/-
Escapes in patterns: a backslash and what it gives a meaning to.
-/

import PhpAudit.Pattern.Input
import PhpAudit.Decimal.Read

set_option autoImplicit false

namespace PhpAudit.Pattern

/-- The class that a letter behind a backslash stands for, and whether it is negated. -/
def classOf? : Char → Option (Class × Bool)
  | 'd' => some (.digit, false)
  | 'D' => some (.digit, true)
  | 's' => some (.space, false)
  | 'S' => some (.space, true)
  | 'w' => some (.word, false)
  | 'W' => some (.word, true)
  | _ => none

/-- The control character that a letter behind a backslash stands for. -/
def controlOf? : Char → Option Char
  | 'a' => some '\x07'
  | 'f' => some '\x0c'
  | 'n' => some '\n'
  | 'r' => some '\r'
  | 't' => some '\t'
  | 'v' => some '\x0b'
  | _ => none

/-- The place that a letter behind a backslash asks for. -/
def anchorOf? : Char → Option Anchor
  | 'A' => some .start
  | 'Z' => some .finish
  | 'b' => some .wordEdge
  | 'B' => some .inside
  | _ => none

/-- Whether a character is a digit of base eight. -/
def isOctal (c : Char) : Bool :=
  decide ('0' ≤ c) && decide (c ≤ '7')

/-- Whether a character is a digit of base sixteen. -/
def isHex (c : Char) : Bool :=
  c.isDigit || (decide ('a' ≤ c.toLower) && decide (c.toLower ≤ 'f'))

/-- The value of digits in a base. -/
def valueOf (base : Nat) (digits : String) : Nat :=
  digits.toList.foldl (fun n c =>
    base * n + (if c.isDigit then c.toNat - 48 else c.toLower.toNat - 87)) 0

/-- A character by exactly so many digits of base sixteen. -/
def hexEscape (escape : String) (count : Nat) : Reading Nat := do
  let digits ← takeAmong isHex count
  let whole := escape ++ digits
  if digits.length != count then fail (.incompleteEscape whole) whole.length
  let n := valueOf 16 digits
  if 1114111 < n then fail (.badEscape whole) whole.length
  return n

/-- A character by its name.  The table of the names of characters is no part of this library, so
no name is known. -/
def namedEscape : Reading Nat := do
  if !(← accept "\x7b") then fail (.missing "\x7b")
  let name ← takeUntil "\x7d" "character name" ((← get).signs.length + 1) ""
  fail (.unknownCharacter name) (name.length + 4)

/-- A character by digits of base eight; the largest is 377. -/
def octalEscape (escape : String) : Reading Nat := do
  let n := valueOf 8 (escape.drop 1).toString
  if 255 < n then fail (.octalTooLarge escape) escape.length
  return n

/-- The character that an escape gives by its number or name, if it is of that kind. -/
def numberedEscape? (escape : String) (letter : Char) : Reading (Option Nat) :=
  match letter with
  | 'x' => some <$> hexEscape escape 2
  | 'u' => some <$> hexEscape escape 4
  | 'U' => some <$> hexEscape escape 8
  | 'N' => some <$> namedEscape
  | _ => return none

/-- A character that stands for itself behind a backslash: letters and digits do not. -/
def plainEscape (escape : String) (c : Char) : Reading Nat := do
  if c.isAlphanum then fail (.badEscape escape) escape.length
  return c.toNat

/-- The member of a set that an escape stands for. -/
def setEscape (escape : String) : Reading Member := do
  let c := (escape.toList.drop 1).headD ' '
  let single (n : Nat) : Member := .range n n
  match classOf? c, controlOf? c with
  | some (k, negated), _ => return .ofClass k negated
  | none, some d => return single d.toNat
  | none, none =>
    if c == 'b' then return single 8
    if let some n ← numberedEscape? escape c then return single n
    if isOctal c then return single (← octalEscape (escape ++ (← takeAmong isOctal 2)))
    return single (← plainEscape escape c)

/-- The pattern of one character by its number; one that no text has is never met. -/
def single (n : Nat) : Pattern :=
  if n.isValidChar then .char (Char.ofNat n) else .set false []

/-- A group by its number, or a character by three digits of base eight. -/
def digitEscape (escape : String) (first : Char) : Reading Pattern := do
  let second ← takeAmong Char.isDigit 1
  let two := escape ++ second
  if second != "" && isOctal first && second.toList.all isOctal then
    let third ← takeAmong isOctal 1
    if third != "" then return single (← octalEscape (two ++ third))
  let number := valueOf 10 (two.drop 1).toString
  if (← get).groups.length < number then fail (.noGroup number) (two.length - 1)
  reference number two.length

/-- What an escape stands for outside a set. -/
def escape (text : String) : Reading Pattern := do
  let c := (text.toList.drop 1).headD ' '
  match anchorOf? c, classOf? c, controlOf? c with
  | some a, _, _ => return .anchor a
  | none, some (k, negated), _ => return .set false [.ofClass k negated]
  | none, none, some d => return .char d
  | none, none, none =>
    if let some n ← numberedEscape? text c then return single n
    if c == '0' then return single (← octalEscape (text ++ (← takeAmong isOctal 2)))
    if c.isDigit then digitEscape text c
    else return single (← plainEscape text c)

end PhpAudit.Pattern
