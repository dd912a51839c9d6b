/-
Paths with slashes.

A path is a list of parts below an optional root.  Empty parts and single dots carry no meaning and
are dropped when a text is read; double dots stay.
-/

set_option autoImplicit false

namespace PhpAudit

/-- A path: its root, empty for a relative one, and its parts. -/
structure Path where
  root : String := ""
  parts : List String := []
  deriving DecidableEq, Inhabited

namespace Path

/-- Two slashes in front, and no third, are a root of their own. -/
def rootOf : List Char → String
  | '/' :: '/' :: '/' :: _ => "/"
  | '/' :: '/' :: _ => "//"
  | '/' :: _ => "/"
  | _ => ""

/-- The parts of a text between slashes, as they are written. -/
def splitSlashes (s : String) : List String :=
  (s.toList.splitOn '/').map String.ofList

/-- The path that a text stands for. -/
def ofText (s : String) : Path :=
  ⟨rootOf s.toList, (splitSlashes s).filter fun p => p != "" && p != "."⟩

/-- The text of a path; the empty relative path is a dot. -/
def text (p : Path) : String :=
  if p.root == "" && p.parts.isEmpty then "." else p.root ++ "/".intercalate p.parts

/-- The last part, or nothing. -/
def name (p : Path) : String :=
  (p.parts.getLast?).getD ""

/-- The ending of a file name from its last dot on, unless the dot comes first or last. -/
def suffixOf (name : String) : String :=
  let reversed := name.toList.reverse
  let tail := reversed.takeWhile (· != '.')
  let front := (reversed.drop tail.length).drop 1
  if tail.length == reversed.length || tail.isEmpty || front.isEmpty then ""
  else String.ofList ('.' :: tail.reverse)

/-- The ending of the last part. -/
def suffix (p : Path) : String :=
  suffixOf p.name

/-- The path `q` taken below `p`; an absolute `q` stands alone. -/
def join (p q : Path) : Path :=
  if q.root == "" then ⟨p.root, p.parts ++ q.parts⟩ else q

end Path

end PhpAudit
