/-
Glob patterns for paths.

A star stands for any run of characters, slashes included, a question mark for any one character,
and brackets for one character of a class, or of its complement after an exclamation mark.  A
bracket that is never closed stands for itself.  A pattern matches a whole text.

A class lists characters and ranges.  A range whose ends are in the wrong order is empty and is
left out; a class with nothing in it matches no character, and its complement any.
-/

set_option autoImplicit false

namespace PhpAudit.Glob

/-- A piece of a pattern. -/
inductive Piece where
  | star
  | any
  | literal (c : Char)
  | oneOf (negated : Bool) (ranges : List (Char × Char))
  deriving DecidableEq

/-- The class text cut at the hyphens that form ranges.  `skip` characters are passed before a
hyphen counts; two stand between a hyphen and the next that counts. -/
def chunks (skip : Nat) (chunk : List Char) : List Char → List (List Char)
  | [] => [chunk.reverse]
  | c :: rest =>
    match skip with
    | 0 => if c == '-' then chunk.reverse :: chunks 2 [] rest else chunks 0 (c :: chunk) rest
    | k + 1 => chunks k (c :: chunk) rest

/-- An empty last chunk means that the class ends in a hyphen, which then stands for itself. -/
def closeChunks : List (List Char) → List (List Char)
  | [] => []
  | [c] => [c]
  | [c, []] => [c ++ ['-']]
  | c :: rest => c :: closeChunks rest

/-- Joins the chunks around every range whose ends are in the wrong order, the last ones first. -/
def dropEmpty : List (List Char) → List (List Char)
  | [] => []
  | c :: rest =>
    match dropEmpty rest with
    | [] => [c]
    | d :: more =>
      match c.getLast?, d with
      | some a, b :: tail => if b < a then (c.dropLast ++ tail) :: more else c :: d :: more
      | _, _ => c :: d :: more

/-- The single characters of a chunk, its first one left out if a range ends there and its last
one if a range starts there. -/
def singles (rangeBefore rangeAfter : Bool) (chunk : List Char) : List (Char × Char) :=
  let cs := if rangeBefore then chunk.drop 1 else chunk
  let cs := if rangeAfter then cs.dropLast else cs
  cs.map fun c => (c, c)

/-- The ranges of a class whose chunks are joined by range hyphens. -/
def classRanges (rangeBefore : Bool) : List (List Char) → List (Char × Char)
  | [] => []
  | [c] => singles rangeBefore false c
  | c :: d :: rest =>
    let range := match c.getLast?, d.head? with
      | some a, some b => [(a, b)]
      | _, _ => []
    singles rangeBefore true c ++ range ++ classRanges true (d :: rest)

/-- The piece of a bracket with the given text inside. -/
def classPiece (inside : List Char) : Piece :=
  let skip := if inside.head? == some '!' then 2 else 1
  let cut :=
    if inside.contains '-' then dropEmpty (closeChunks (chunks skip [] inside)) else [inside]
  match cut with
  | ('!' :: c) :: rest =>
    if c.isEmpty && rest.isEmpty then .any else .oneOf true (classRanges false (c :: rest))
  | other => .oneOf false (classRanges false other)

/-- The text up to the closing bracket and what follows it; a bracket right at the start belongs
to the class. -/
def bracket? (cs : List Char) : Option (List Char × List Char) :=
  let (mark, rest) := match cs with
    | '!' :: rest => (['!'], rest)
    | _ => ([], cs)
  let (lead, rest) := match rest with
    | ']' :: more => ([']'], more)
    | _ => ([], rest)
  match rest.dropWhile (· != ']') with
  | _ :: after => some (mark ++ lead ++ rest.takeWhile (· != ']'), after)
  | [] => none

/-- The pieces of a pattern; `fuel` is at least its length. -/
def parseFor : Nat → List Char → List Piece
  | 0, _ => []
  | _, [] => []
  | fuel + 1, c :: rest =>
    if c == '*' then .star :: parseFor fuel rest
    else if c == '?' then .any :: parseFor fuel rest
    else if c == '[' then
      match bracket? rest with
      | some (inside, after) => classPiece inside :: parseFor fuel after
      | none => .literal '[' :: parseFor fuel rest
    else .literal c :: parseFor fuel rest

/-- The pieces of a pattern. -/
def parse (pattern : String) : List Piece :=
  parseFor pattern.toList.length pattern.toList

/-- Whether a piece that stands for one character allows it. -/
def Piece.allows : Piece → Char → Bool
  | star, _ => false
  | any, _ => true
  | literal a, c => a == c
  | oneOf negated ranges, c =>
    negated != ranges.any fun r => decide (r.1 ≤ c) && decide (c ≤ r.2)

/-- Whether some end part of the text passes the test. -/
def someSuffix (test : List Char → Bool) : List Char → Bool
  | [] => test []
  | c :: rest => test (c :: rest) || someSuffix test rest

/-- Whether the pieces match the whole text. -/
def matchesPieces : List Piece → List Char → Bool
  | [], cs => cs.isEmpty
  | .star :: ps, cs => someSuffix (matchesPieces ps) cs
  | _ :: _, [] => false
  | p :: ps, c :: cs => p.allows c && matchesPieces ps cs

/-- Whether the pattern matches the whole text. -/
def accepts (pattern text : String) : Bool :=
  matchesPieces (parse pattern) text.toList

end PhpAudit.Glob
