/-
Files and folders.

A disk is a tree of folders with one of them as the place from which relative paths start.  Nothing
here reads a real disk: what a run needs of it is handed over as a value, and what a run writes is
handed back as another.

* `Disk.Entry`, `Disk` — the tree;
* `Disk.Trouble` — why there is nothing at a path;
* `Disk.find`, `Disk.has` — the entry at a path, and whether there is one;
* `Disk.write`, `Disk.addFolder` — the disk with one more entry;
* `Disk.absolute` — a path from the root.
-/

import PhpAudit.Path
import PhpAudit.Value.Text

set_option autoImplicit false

namespace PhpAudit

/-- A file with its bytes, or a folder with named entries.  There are no links and no devices, and
whatever is there may be read and listed. -/
inductive Disk.Entry where
  | file (content : ByteArray)
  | folder (entries : List (String × Disk.Entry))
  deriving Inhabited

/-- A tree of folders and the parts of the path from its root to the working folder. -/
structure Disk where
  top : Disk.Entry := .folder []
  home : List String := []
  deriving Inhabited

namespace Disk

/-- Why an entry cannot be had at a path. -/
inductive Trouble where
  | missing
  | notFolder
  | isFolder
  /-- A file is where a folder should be made. -/
  | taken
  | nameTooLong
  /-- A path with a zero character names nothing. -/
  | zeroByte
  deriving DecidableEq

/-- The wording of each cause for a path. -/
def Trouble.message (t : Trouble) (path : Path) : String :=
  match t with
  | missing => "[Errno 2] No such file or directory: " ++ Text.quote path.text
  | notFolder => "[Errno 20] Not a directory: " ++ Text.quote path.text
  | isFolder => "[Errno 21] Is a directory: " ++ Text.quote path.text
  | taken => "[Errno 17] File exists: " ++ Text.quote path.text
  | nameTooLong => "[Errno 36] File name too long: " ++ Text.quote path.text
  | zeroByte => "embedded null byte"

/-! ### Paths -/

/-- The parts of a path with each double dot taking back the part in front of it; `done` are the
parts so far, the last one first. -/
def collapseFrom (done : List String) : List String → List String
  | [] => done.reverse
  | part :: rest => collapseFrom (if part == ".." then done.drop 1 else part :: done) rest

/-- The parts of a path without double dots. -/
def collapse (parts : List String) : List String :=
  collapseFrom [] parts

/-- All parts of a path from the root on. -/
def fullParts (d : Disk) (path : Path) : List String :=
  if path.root == "" then d.home ++ path.parts else path.parts

/-- A path from the root on, without double dots. -/
def absolute (d : Disk) (path : Path) : Path :=
  ⟨"/", collapse (d.fullParts path)⟩

/-! ### Looking -/

/-- How many bytes the name of an entry can have. -/
def longestName : Nat := 255

/-- How many bytes a path can have. -/
def longestPath : Nat := 4095

/-- Goes down the parts of a path; `above` are the folders passed, the nearest first. -/
def descend (above : List Entry) (here : Entry) : List String → Except Trouble Entry
  | [] => .ok here
  | part :: rest =>
    match here with
    | .file _ => .error .notFolder
    | .folder entries =>
      if part == ".." then
        match above with
        | [] => descend [] here rest
        | up :: further => descend further up rest
      else if longestName < part.utf8ByteSize then .error .nameTooLong
      else
        match Assoc.get? entries part with
        | none => .error .missing
        | some e => descend (here :: above) e rest

/-- The entry at a path. -/
def find (d : Disk) (path : Path) : Except Trouble Entry :=
  if path.text.toList.contains '\x00' then .error .zeroByte
  else if longestPath < path.text.utf8ByteSize then .error .nameTooLong
  else descend [] d.top (d.fullParts path)

/-- The entry at a path, or nothing where a look can tell that there is none; only a path that is
too long to be looked up leaves this open. -/
def find? (d : Disk) (path : Path) : Except Trouble (Option Entry) :=
  match d.find path with
  | .ok e => .ok (some e)
  | .error .nameTooLong => .error .nameTooLong
  | .error _ => .ok none

/-- Whether there is anything at a path. -/
def has (d : Disk) (path : Path) : Except Trouble Bool := do
  return (← d.find? path).isSome

/-- The bytes of the file at a path. -/
def bytes (d : Disk) (path : Path) : Except Trouble ByteArray := do
  match ← d.find path with
  | .file content => return content
  | .folder _ => throw .isFolder

/-! ### Writing -/

/-- The tree with an entry at the given parts, folders made on the way.  A file takes the place of a
file; a folder that is already there stays as it is. -/
def place (new : Entry) : Entry → List String → Except Trouble Entry
  | .file _, [] =>
    match new with
    | .file _ => .ok new
    | .folder _ => .error .notFolder
  | .folder es, [] =>
    match new with
    | .file _ => .error .isFolder
    | .folder _ => .ok (.folder es)
  | .file _, _ :: _ => .error .notFolder
  | .folder es, [name] =>
    match Assoc.get? es name with
    | none => .ok (.folder (Assoc.put es name new))
    | some old => do return .folder (Assoc.put es name (← place new old []))
  | .folder es, name :: next :: rest => do
    let inner := (Assoc.get? es name).getD (.folder [])
    return .folder (Assoc.put es name (← place new inner (next :: rest)))

/-- The disk with an entry at a path. -/
def put (d : Disk) (path : Path) (new : Entry) : Except Trouble Disk := do
  return { d with top := ← place new d.top (d.absolute path).parts }

/-- The disk with a folder at a path whose other parts are there. -/
def makeFolder (d : Disk) (path : Path) : Except Trouble Disk :=
  match d.find path with
  | .ok (.folder _) => .ok d
  | .ok (.file _) => .error .taken
  | .error .missing => d.put path (.folder [])
  | .error t => .error t

/-- The disk with a folder at a path, and at each path on the way to it. -/
def addFolder (d : Disk) (path : Path) : Except Trouble Disk :=
  (List.range (path.parts.length + 1)).foldlM
    (fun d n => d.makeFolder { path with parts := path.parts.take n }) d

/-- The path of the folder that a path is in. -/
def parent (path : Path) : Path :=
  { path with parts := path.parts.dropLast }

/-- The disk with a file at a path, and folders on the way to it. -/
def write (d : Disk) (path : Path) (content : ByteArray) : Except Trouble Disk := do
  let d ← d.addFolder (parent path)
  match d.find path with
  | .ok (.folder _) => throw .isFolder
  | .ok (.file _) | .error .missing => d.put path (.file content)
  | .error t => throw t

end Disk

end PhpAudit
