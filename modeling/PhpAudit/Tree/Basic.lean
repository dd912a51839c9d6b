/-
Syntax trees of files, and the faults that a parser reports.

A parser always returns a tree, even for a text with faults; such a tree, or one recovered from the
text in front of the first fault, is marked.
-/

import PhpAudit.Tree.Node
import PhpAudit.Text.Lines

set_option autoImplicit false

namespace PhpAudit

/-- A fault in a text. -/
structure SyntaxFault where
  message : String
  line : Int
  column : Int := 0
  nodeKind : String := "ERROR"
  deriving DecidableEq, Inhabited

/-- The dictionary of a fault. -/
def SyntaxFault.toDict (f : SyntaxFault) : Dict :=
  [("message", .str f.message), ("line", .int f.line), ("column", .int f.column),
   ("node_type", .str f.nodeKind)]

/-- Whether a fault comes before another or at the same place. -/
def SyntaxFault.before (a b : SyntaxFault) : Bool :=
  decide (a.line < b.line) || (a.line == b.line && decide (a.column ≤ b.column))

/-- The syntax tree of a text. -/
structure Tree where
  root : Node
  nodeCount : Nat
  hasErrors : Bool := false
  /-- The tree covers only what could be recovered. -/
  isPartial : Bool := false
  deriving Inhabited

namespace Tree

/-- The nodes in pre-order. -/
def walk (t : Tree) : List Node :=
  t.root.walk

/-- The nodes of one of the kinds. -/
def findAll (t : Tree) (kinds : List String) : List Node :=
  t.root.findAll kinds

/-- The tree of a text that no parser could read: a root alone. -/
def blank (source : String) : Tree :=
  { root := { kind := "program"
              span := { startLine := 1, endLine := Text.countFeeds source + 1
                        endByte := source.utf8ByteSize }
              text := source }
    nodeCount := 1
    hasErrors := true }

/-- The tree marked as recovered from faults. -/
def markPartial (t : Tree) : Tree :=
  { t with hasErrors := true, isPartial := true }

/-- The greatest of a list of lines, or zero. -/
def greatest : List Int → Int
  | [] => 0
  | x :: rest => rest.foldl max x

/-- The last line of a node that is no comment. -/
def maxLine (t : Tree) : Int :=
  greatest ((t.walk.filter fun n => n.kind != "comment").map fun n => n.span.endLine)

end Tree

/-- How a parser can fail to return a tree. -/
inductive ParseFailure where
  /-- The parser gives up at a line. -/
  | refused (message : String) (line : Int)
  /-- The parser breaks down. -/
  | crashed (cause message : String)
  deriving DecidableEq

/-- What turns a text into a tree. -/
structure Grammar where
  language : String
  parse : String → Except ParseFailure (Tree × List SyntaxFault)

end PhpAudit
