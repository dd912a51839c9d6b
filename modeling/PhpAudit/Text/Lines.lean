/-
The lines of a text.

A line ends at a line feed, a carriage return, both together, a vertical tab, a form feed, one of
three information separators, the next-line control or one of the two Unicode separators.  The
last line needs no end, and an end at the very end of the text starts no further line.
-/

set_option autoImplicit false

namespace PhpAudit.Text

/-- The characters that end a line. -/
def isLineEnd (c : Char) : Bool :=
  let n := c.toNat
  (10 ≤ n && n ≤ 13) || (28 ≤ n && n ≤ 30) || n == 133 || n == 8232 || n == 8233

/-- The lines of `cs`, where `line` holds the characters of the first one so far, the last first,
and `afterReturn` says that a carriage return has just ended a line. -/
def linesFrom (line : List Char) (afterReturn : Bool) : List Char → List String
  | [] => if line.isEmpty then [] else [String.ofList line.reverse]
  | c :: rest =>
    if afterReturn && c == '\n' then linesFrom [] false rest
    else if isLineEnd c then String.ofList line.reverse :: linesFrom [] (c == '\r') rest
    else linesFrom (c :: line) false rest

/-- The lines of a text without their ends. -/
def lines (s : String) : List String :=
  linesFrom [] false s.toList

/-- The number of line feeds in a text. -/
def countFeeds (s : String) : Nat :=
  s.toList.countP (· == '\n')

end PhpAudit.Text
