/-
A place in a settings file.

Indentation carries meaning, so the reader keeps the line and the column of the place that it has
come to.  The end of the text reads as a null character, which no text holds.
-/

set_option autoImplicit false

namespace PhpAudit.Yaml

/-- A place in a text: what is left of it, and where it is. -/
structure Cursor where
  rest : List Char
  index : Nat := 0
  line : Nat := 0
  column : Nat := 0

/-- The character that stands for the end. -/
def endMark : Char := Char.ofNat 0

/-- Whether a character ends a line. -/
def isBreak (c : Char) : Bool :=
  ['\n', '\r', Char.ofNat 0x85, Char.ofNat 0x2028, Char.ofNat 0x2029].contains c

/-- Whether a character parts words: a blank, a tab, a line break or the end. -/
def isGap (c : Char) : Bool :=
  c == ' ' || c == '\t' || c == endMark || isBreak c

/-- Whether a character ends a line or the text. -/
def endsLine (c : Char) : Bool :=
  c == endMark || isBreak c

/-- The mark that may stand in front of a text; it takes no room. -/
def orderMark : Char := Char.ofNat 0xFEFF

namespace Cursor

/-- The character so many places ahead. -/
def peek (c : Cursor) (ahead : Nat := 0) : Char :=
  (c.rest[ahead]?).getD endMark

/-- One character further. -/
def step (c : Cursor) : Cursor :=
  match c.rest with
  | [] => c
  | x :: rest =>
    if isBreak x && !(x == '\r' && rest.head? == some '\n') then
      ⟨rest, c.index + 1, c.line + 1, 0⟩
    else ⟨rest, c.index + 1, c.line, if x == orderMark then c.column else c.column + 1⟩

/-- So many characters further. -/
def advance (c : Cursor) : Nat → Cursor
  | 0 => c
  | n + 1 => c.step.advance n

/-- Behind all characters that pass a test. -/
def skipWhile (c : Cursor) (test : Char → Bool) : Cursor :=
  c.advance (c.rest.takeWhile test).length

/-- The characters up to the first that fails a test, and the place of that one. -/
def takeWhile (c : Cursor) (test : Char → Bool) : List Char × Cursor :=
  let taken := c.rest.takeWhile test
  (taken, c.advance taken.length)

/-- A line break, written as a line feed unless it is a separator of its own, and the place behind
it. -/
def lineBreak? (c : Cursor) : Option (Char × Cursor) :=
  match c.rest with
  | '\r' :: '\n' :: _ => some ('\n', c.advance 2)
  | x :: _ =>
    if x.toNat == 0x2028 || x.toNat == 0x2029 then some (x, c.step)
    else if isBreak x then some ('\n', c.step)
    else none
  | [] => none

/-- Whether three dashes or three points stand alone at the place. -/
def atMarker (c : Cursor) : Bool :=
  (c.rest.take 3 == ['-', '-', '-'] || c.rest.take 3 == ['.', '.', '.']) && isGap (c.peek 3)

end Cursor

end PhpAudit.Yaml
