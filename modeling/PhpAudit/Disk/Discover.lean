/-
Finding source files below a folder.

In each folder the files come first, by name, and then what is below its subfolders, by name as
well.  Folders of version control and of installed packages are passed over.
-/

import PhpAudit.Disk.Source

set_option autoImplicit false

namespace PhpAudit.Disk

/-- Folders that are passed over. -/
def skipped : List String :=
  [".git", ".svn", ".hg", "__pycache__", "node_modules"]

/-- Items under names, by name. -/
def byName {α : Type} (items : List (String × α)) : List (String × α) :=
  items.mergeSort fun a b => decide (a.1 ≤ b.1)

/-- A path with one more part. -/
def below (path : Path) (name : String) : Path :=
  { path with parts := path.parts ++ [name] }

/-- The files among some entries. -/
def fileEntries (entries : List (String × Entry)) : List (String × Unit) :=
  entries.filterMap fun e =>
    match e.2 with
    | .file _ => some (e.1, ())
    | .folder _ => none

mutual

/-- All files below an entry at a path, in order. -/
def filesBelow (path : Path) : Entry → List Path
  | .file _ => []
  | .folder entries =>
    (byName (fileEntries entries)).map (fun e => below path e.1) ++
      (byName (foldersBelow path entries)).flatMap Prod.snd

/-- The subfolders among some entries, each with all files below it. -/
def foldersBelow (path : Path) : List (String × Entry) → List (String × List Path)
  | [] => []
  | (name, e) :: rest =>
    match e with
    | .file _ => foldersBelow path rest
    | .folder entries =>
      if skipped.contains name then foldersBelow path rest
      else (name, filesBelow (below path name) (.folder entries)) :: foldersBelow path rest

end

/-- The files at or below a path. -/
def candidates (d : Disk) (target : Path) : Except Trouble (List Path) := do
  match ← d.find? target with
  | some (.file _) => return [target]
  | some e => return filesBelow target e
  | none => if target.text.toList.contains '\x00' then throw .zeroByte else return []

/-- The items that a test accepts, up to the first on which the test fails. -/
def select {α ε : Type} (test : α → Except ε Bool) : List α → Except ε (List α)
  | [] => .ok []
  | x :: rest => do
    if ← test x then return x :: (← select test rest) else select test rest

/-- The files at or below a path that have one of some endings and are not excluded. -/
def discover (d : Disk) (target : Path) (endings : Value)
    (excludes : Path → Except Misuse Bool) : Except Refusal (List Path) := do
  let files ← (d.candidates target).mapError (.trouble · target)
  (select (fun path => do
    if ← hasExtension path endings then return !(← excludes path) else return false)
    files).mapError .misuse

end PhpAudit.Disk
