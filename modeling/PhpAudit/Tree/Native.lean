/-
From the concrete tree of a parser to a syntax tree.

A concrete tree holds every token.  The syntax tree keeps the named nodes and the places where the
parser met a fault; of the other tokens only the one in the operator field is kept, as a mark of its
parent.  The conversion goes over the concrete tree with a stack of nodes under construction.

* `Native`, `Native.Role` — a concrete tree;
* `Native.Frame`, `Native.run` — nodes under construction, and the conversion;
* `Native.parse` — the tree with its faults in order of their place.
-/

import PhpAudit.Tree.Basic
import PhpAudit.Text.Utf8
import PhpAudit.Text.Blank

set_option autoImplicit false

namespace PhpAudit

/-- What a concrete node is. -/
inductive Native.Role where
  /-- A token without a name. -/
  | token
  /-- A node of the grammar. -/
  | named
  /-- A token that the parser expected and did not find. -/
  | missing
  deriving DecidableEq, Inhabited

/-- A node of a concrete tree. -/
structure Native where
  kind : String
  role : Native.Role
  startByte : Nat
  endByte : Nat
  field : Option String := none
  children : List Native := []
  deriving Inhabited

namespace Native

mutual

/-- The number of nodes. -/
def size : Native → Nat
  | ⟨_, _, _, _, _, children⟩ => sizeList children + 1

/-- The number of nodes of several trees. -/
def sizeList : List Native → Nat
  | [] => 0
  | n :: rest => size n + sizeList rest

end

theorem size_eq (n : Native) : n.size = sizeList n.children + 1 := by
  cases n
  rfl

/-! ### Places -/

/-- A row and a column, both from zero; the column counts bytes. -/
structure Point where
  row : Nat := 0
  column : Nat := 0
  deriving DecidableEq, Inhabited

/-- The point after one more byte. -/
def Point.next (p : Point) (byte : UInt8) : Point :=
  if byte == 10 then ⟨p.row + 1, 0⟩ else ⟨p.row, p.column + 1⟩

/-- The point of every offset of a text, its end included. -/
def pointsOf (bytes : ByteArray) : Array Point :=
  (bytes.data.foldl (fun (acc : Array Point × Point) b =>
    let p := acc.2.next b
    (acc.1.push p, p)) (#[{}], {})).1

/-- A text with the point of each offset. -/
structure Source where
  bytes : ByteArray
  points : Array Point

/-- The text in UTF-8. -/
def Source.ofText (s : String) : Source :=
  let bytes := s.toUTF8
  ⟨bytes, pointsOf bytes⟩

/-- The point of an offset. -/
def Source.point (s : Source) (offset : Nat) : Point :=
  s.points.getD offset {}

/-! ### Building one node -/

/-- How much of a faulty text a message shows. -/
def faultTextLimit : Nat := 40

/-- The start of the first line of a faulty text. -/
def faultText (s : String) : String :=
  match Text.lines (Text.trim s) with
  | [] => ""
  | line :: _ => String.ofList (line.toList.take faultTextLimit)

/-- A node under construction: the concrete node, its finished children, the last first, the marks
met so far, and the children that are still to come. -/
structure Frame where
  native : Native
  done : List Node := []
  marks : Dict := []
  todo : List Native := []

/-- The frame of a node that has just been entered. -/
def Frame.enter (n : Native) : Frame :=
  { native := n, todo := n.children }

/-- The kind of node that a concrete node becomes, if it is kept. -/
def keptKind? (n : Native) : Option String :=
  if n.role == .missing then some "MISSING"
  else if n.kind == "ERROR" then some "ERROR"
  else if n.role == .named then some n.kind
  else none

/-- The fault that a concrete node reports. -/
def fault? (source : Source) (n : Native) : Option SyntaxFault :=
  let p := source.point n.startByte
  let line : Int := p.row + 1
  if n.role == .missing then
    some ⟨s!"Syntax error, missing '{n.kind}' on line {line}", line, p.column, "MISSING"⟩
  else if n.kind == "ERROR" then
    let shown := faultText (Text.decodeReplacing (source.bytes.extract n.startByte n.endByte))
    some ⟨s!"Syntax error, unexpected '{shown}' on line {line}", line, p.column, "ERROR"⟩
  else none

/-- The span of a concrete node. -/
def spanOf (source : Source) (n : Native) : Span :=
  let first := source.point n.startByte
  let last := source.point n.endByte
  { startLine := first.row + 1, endLine := last.row + 1
    startColumn := first.column, endColumn := last.column
    startByte := n.startByte, endByte := n.endByte }

/-- The node that a concrete node becomes, given its children and marks. -/
def build? (source : Source) (n : Native) (children : List Node) (marks : Dict) :
    Option Node :=
  (keptKind? n).map fun kind =>
    { kind
      span := spanOf source n
      field := n.field
      marks := if n.role == .missing then Assoc.put marks "expected" (.str n.kind) else marks
      text := Text.decodeReplacing (source.bytes.extract n.startByte n.endByte)
      children }

/-- The parent's frame once a child is finished: a kept child is added, and a token in the operator
field becomes a mark. -/
def Frame.attach (parent : Frame) (child : Native) (built : Option Node) : Frame :=
  match built with
  | some node => { parent with done := node :: parent.done }
  | none =>
    if child.field == some "operator" then
      { parent with marks := Assoc.put parent.marks "operator" (.str child.kind) }
    else parent

theorem Frame.attach_todo (parent : Frame) (child : Native) (built : Option Node) :
    (parent.attach child built).todo = parent.todo := by
  unfold Frame.attach
  split
  · rfl
  · split <;> rfl

/-! ### The conversion -/

/-- The conversion at one moment: the frames, the innermost first, the faults met, the last first,
and the number of nodes built. -/
structure State where
  faults : List SyntaxFault := []
  count : Nat := 0

/-- What is still to be done in the frames. -/
def work : List Frame → Nat
  | [] => 0
  | f :: rest => 2 * sizeList f.todo + 1 + work rest

/-- Notes the end of a node. -/
def State.close (s : State) (source : Source) (n : Native) (built : Option Node) : State :=
  { faults := match fault? source n with
      | some f => f :: s.faults
      | none => s.faults
    count := s.count + (if built.isSome then 1 else 0) }

/-- Enters the next child of the innermost frame, or finishes it and goes on in its parent. -/
def run (source : Source) (s : State) : List Frame → Option Node × State
  | [] => (none, s)
  | ⟨n, done, marks, child :: more⟩ :: rest =>
    run source s (Frame.enter child :: ⟨n, done, marks, more⟩ :: rest)
  | [⟨n, done, marks, []⟩] =>
    let built := build? source n done.reverse marks
    (built, s.close source n built)
  | ⟨n, done, marks, []⟩ :: parent :: outer =>
    let built := build? source n done.reverse marks
    run source (s.close source n built) (parent.attach n built :: outer)
termination_by frames => work frames
decreasing_by
  · simp only [work, Frame.enter, sizeList, size_eq]
    omega
  · simp only [work, Frame.attach_todo]
    omega

/-- The node of a concrete tree, its faults in the order in which nodes end, and the number of
nodes. -/
def convert (source : Source) (n : Native) : Option Node × List SyntaxFault × Nat :=
  let r := run source {} [Frame.enter { n with field := none }]
  (r.1, r.2.faults.reverse, r.2.count)

/-- The syntax tree of a text with its faults in order of their place. -/
def parse (text : String) (n : Native) : Tree × List SyntaxFault :=
  let r := convert (Source.ofText text) n
  let faults := r.2.1.mergeSort SyntaxFault.before
  let root := (r.1.getD default).numbered
  ({ root, nodeCount := r.2.2, hasErrors := !faults.isEmpty }, faults)

/-- The grammar that looks texts up in a table of concrete trees. -/
def grammar (lookup : String → Option Native) : Grammar :=
  { language := "php"
    parse := fun text =>
      match lookup text with
      | some n => .ok (parse text n)
      | none => .error (.crashed "LookupError" "no tree") }

end Native

end PhpAudit
