/-
White space.

The class is the Unicode one: the ASCII blanks and line ends, the four information separators, the
next-line control, the no-break space and the spaces and separators of the general punctuation
block.  Trimming works on this class.
-/

set_option autoImplicit false

namespace PhpAudit.Text

/-- White space: nine to thirteen, twenty-eight to thirty-two, U+0085, U+00A0, U+1680,
U+2000 to U+200A, U+2028, U+2029, U+202F, U+205F and U+3000. -/
def isBlank (c : Char) : Bool :=
  let n := c.toNat
  (9 ≤ n && n ≤ 13) || (28 ≤ n && n ≤ 32) || n == 133 || n == 160 || n == 5760 ||
    (8192 ≤ n && n ≤ 8202) || n == 8232 || n == 8233 || n == 8239 || n == 8287 || n == 12288

/-- The characters from the first that is no blank. -/
def trimLeft (cs : List Char) : List Char :=
  cs.dropWhile isBlank

/-- The characters up to the last that is no blank. -/
def trimRight (cs : List Char) : List Char :=
  (cs.reverse.dropWhile isBlank).reverse

/-- The text without blanks at its ends. -/
def trim (s : String) : String :=
  String.ofList (trimRight (trimLeft s.toList))

end PhpAudit.Text
