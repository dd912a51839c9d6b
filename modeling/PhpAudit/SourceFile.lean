/-
Parsed files.

A parsed file holds its text beside its tree, so that rules can show the lines around a finding.
-/

import PhpAudit.Tree.Basic
import PhpAudit.Path
import PhpAudit.Text.Case

set_option autoImplicit false

namespace PhpAudit

/-- A file with its tree. -/
structure SourceFile where
  path : String
  content : String
  digest : String
  tree : Tree
  faults : List SyntaxFault := []
  encoding : String := "utf-8"
  fromCache : Bool := false
  lines : List String := Text.lines content
  deriving Inhabited

/-- An ending in lower case and without the dots in front of it. -/
def normalExtension (s : String) : String :=
  String.ofList ((Text.lower s).toList.dropWhile (· == '.'))

namespace SourceFile

/-- Whether the parser reported a fault. -/
def hasErrors (f : SourceFile) : Bool :=
  !f.faults.isEmpty || f.tree.hasErrors

/-- Whether the tree covers only a part of the file. -/
def isPartial (f : SourceFile) : Bool :=
  f.tree.isPartial

/-- The number of lines. -/
def lineCount (f : SourceFile) : Nat :=
  f.lines.length

/-- The number of bytes in UTF-8. -/
def size (f : SourceFile) : Nat :=
  f.content.utf8ByteSize

/-- The ending of the file's name in lower case, without its dot. -/
def extension (f : SourceFile) : String :=
  normalExtension (Path.ofText f.path).suffix

/-- The line of a number. -/
def line? (f : SourceFile) (number : Int) : Option String :=
  if 1 ≤ number then f.lines[(number - 1).toNat]? else none

/-- A place in a list of the given length; below zero it counts from the end. -/
def place (length : Nat) (i : Int) : Nat :=
  if i < 0 then (i + length).toNat else min i.toNat length

/-- The lines from one number to another. -/
def linesBetween (f : SourceFile) (first last : Int) : List String :=
  let n := f.lines.length
  let start := place n (max 0 (first - 1))
  let stop := place n (min (n : Int) last)
  (f.lines.take stop).drop start

/-- The least of a list of lines. -/
def least? : List Int → Option Int
  | [] => none
  | x :: rest => some (rest.foldl min x)

/-- The line of the first fault. -/
def firstFaultLine? (f : SourceFile) : Option Int :=
  least? (f.faults.map SyntaxFault.line)

end SourceFile

end PhpAudit
