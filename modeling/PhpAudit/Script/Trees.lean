/-
Described trees and grammars.
-/

import PhpAudit.Script.Fields
import PhpAudit.Text.Part
import PhpAudit.Tree.Native

set_option autoImplicit false

namespace PhpAudit.Script

/-! ### Rows -/

/-- A node from its row. -/
def node (bytes : ByteArray) (row : Value) (children : List Node) : Node :=
  let line := intOr row "sl" 1
  let first := intOr row "sb" 0
  let last := intOr row "eb" 0
  { kind := textOr row "t" ""
    span :=
      { startLine := line, endLine := intOr row "el" line, startColumn := intOr row "sc" 0
        endColumn := intOr row "ec" 0, startByte := first, endByte := last }
    field := (field row "f").str?
    marks := entries (field row "a")
    text := Text.decodeReplacing (Text.slice bytes first last)
    children }

/-- Generic nodes over a source text, numbered in pre-order. -/
def nodes (rows : Value) (source : String) : List Node :=
  (Node.numberList 0 (forest (fun row => natOr row "d" 0) (node source.toUTF8) (items rows))).1

/-- A concrete node from its row. -/
def nativeNode (row : Value) (children : List Native) : Native :=
  { kind := text (nth row 1)
    role :=
      match count (nth row 2) with
      | 0 => .token
      | 1 => .named
      | _ => .missing
    startByte := count (nth row 3)
    endByte := count (nth row 4)
    field := (nth row 5).str?
    children }

/-- A concrete tree from its rows. -/
def native? (rows : Value) : Option Native :=
  (forest (fun row => count (nth row 0)) nativeNode (items rows)).head?

/-- The grammar of a table of texts and their concrete trees; an entry without a text stands for
the given one. -/
def phpGrammar (trees : Value) (source : String) : Grammar :=
  let table := (items trees).map fun e => (textOr e "source" source, native? (field e "rows"))
  Native.grammar fun text => (table.find? fun e => e.1 == text).bind Prod.snd

/-! ### Lines -/

/-- The lines of a text between line feeds. -/
def feedLines (source : String) : List String :=
  (source.toList.splitOn '\n').map String.ofList

/-- The node of a line at an offset. -/
def lineNode (number offset : Nat) (line : String) : Node :=
  { kind := if Text.contains line "@@" then "ERROR" else "statement"
    span :=
      { startLine := number, endColumn := line.length, startByte := offset
        endByte := offset + line.utf8ByteSize }
    text := line }

/-- The nodes of lines from a number and an offset on. -/
def lineNodes (number offset : Nat) : List String → List Node
  | [] => []
  | line :: rest =>
    lineNode number offset line :: lineNodes (number + 1) (offset + line.utf8ByteSize + 1) rest

/-- The fault of a line, if it is faulty. -/
def lineFault? (n : Node) : Option SyntaxFault :=
  if n.kind == "ERROR" then
    some { message := s!"unexpected '@@' on line {n.span.startLine}", line := n.span.startLine }
  else none

/-- One child for each line; a line with two at signs is faulty. -/
def linesTree (source : String) : Tree × List SyntaxFault :=
  let children := lineNodes 1 0 (feedLines source)
  let faults := children.filterMap lineFault?
  let root : Node :=
    { kind := "program"
      span := { startLine := 1, endLine := children.length, endByte := source.utf8ByteSize }
      text := source
      children }
  let nodeCount := children.length + 1
  ({ root := root.numbered, nodeCount, hasErrors := !faults.isEmpty }, faults)

/-- The grammar of lines. -/
def linesGrammar : Grammar :=
  { language := "lines", parse := fun source => .ok (linesTree source) }

/-- A grammar that breaks down on some texts and refuses others. -/
def brittleGrammar : Grammar :=
  { language := "lines"
    parse := fun source =>
      if Text.contains source "BOOM" then
        .error (.crashed "RecursionError" "maximum recursion depth exceeded")
      else if Text.contains source "HALT" then
        match (feedLines source).findIdx? (· == "HALT") with
        | some i => .error (.refused "unterminated comment" (i + 1))
        | none => .error (.crashed "ValueError" "'HALT' is not in list")
      else .ok (linesTree source) }

/-- The grammar of a name; the trees of texts are given for PHP. -/
def grammar (name : String) (trees : Value) (source : String) : Grammar :=
  match name with
  | "php" => phpGrammar trees source
  | "exploding" => brittleGrammar
  | _ => linesGrammar

end PhpAudit.Script
