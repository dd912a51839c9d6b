/-
Settings from a file on a disk.
-/

import PhpAudit.Disk.Basic
import PhpAudit.Settings.Basic
import PhpAudit.Text.Utf8

set_option autoImplicit false

namespace PhpAudit.Settings

/-- Why a text gives no value: it is malformed, or the reader fails in a way of its own. -/
inductive Misreading where
  | malformed
  | failed (kind text : String)

/-- What reads the text of a file.  The format is the reader's affair. -/
abbrev Reader := String → Except Misreading Value

/-- Why a file gives no settings. -/
inductive FileError where
  | settings (cause : Error)
  | trouble (cause : Disk.Trouble) (path : Path)
  /-- So many bytes from an offset on, the first of them given, are no text. -/
  | undecodable (first offset size : Nat) (reason : String)
  | unread (kind text : String)

/-- The wording of each cause. -/
def FileError.message : FileError → String
  | settings cause => cause.message
  | trouble cause path => cause.message path
  | unread _ text => text
  | undecodable first offset size reason =>
    if size ≤ 1 then
      let digits := String.ofList (Nat.toDigits 16 first)
      s!"'utf-8' codec can't decode byte 0x{digits} in position {offset}: {reason}"
    else
      s!"'utf-8' codec can't decode bytes in position {offset}-{offset + size - 1}: {reason}"

/-- A text with every line end as a line feed. -/
def plainLines : List Char → List Char
  | [] => []
  | '\r' :: '\n' :: rest => '\n' :: plainLines rest
  | '\r' :: rest => '\n' :: plainLines rest
  | c :: rest => c :: plainLines rest

/-- The text of a file that must be well-formed.  A character that the file breaks off is looked at
by itself. -/
def readText (content : ByteArray) : Except FileError String :=
  match Text.decodeStrict? content, Text.utf8Fault? content with
  | some text, _ => .ok text
  | none, some f =>
    let broken := f.start + f.size == content.size && f.reason == "unexpected end of data"
    let start := if broken then 0 else f.start
    .error (.undecodable (content.toList.getD f.start 0).toNat start f.size f.reason)
  | none, none => .ok (Text.decodeReplacing content)

/-- The entries that a settings file gives. -/
def readEntries (reader : Reader) (disk : Disk) (path : String) : Except FileError Dict := do
  let place := Path.ofText path
  if !(← (disk.has place).mapError (.trouble · place)) then
    throw (.settings (.fileNotFound path))
  let content ← (disk.bytes place).mapError (.trouble · place)
  let text := String.ofList (plainLines (← readText content).toList)
  match reader text with
  | .error .malformed => throw (.settings (.badYaml path))
  | .error (.failed kind cause) => throw (.unread kind cause)
  | .ok v => (fileEntries path v).mapError .settings

/-- The settings of a file, if one is named, with what a caller gives. -/
def load (reader : Reader) (disk : Disk) (path : Option String) (overrides : Value) :
    Except FileError Settings := do
  let file ← match path with
    | none | some "" => pure []
    | some p => readEntries reader disk p
  (ofParts file overrides).mapError .settings

end PhpAudit.Settings
