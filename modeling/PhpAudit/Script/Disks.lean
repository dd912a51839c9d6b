/-
Described disks.
-/

import PhpAudit.Disk.Basic
import PhpAudit.Encoding
import PhpAudit.Script.Fields

set_option autoImplicit false

namespace PhpAudit.Script

/-- The value of a hexadecimal digit. -/
def hexValue (c : Char) : Nat :=
  if c.isDigit then c.toNat - '0'.toNat else c.toLower.toNat - 'a'.toNat + 10

/-- The bytes of pairs of hexadecimal digits. -/
def hexBytes : List Char → List UInt8
  | a :: b :: rest => (16 * hexValue a + hexValue b).toUInt8 :: hexBytes rest
  | _ => []

/-- The bytes that hexadecimal digits stand for. -/
def ofHex (digits : String) : ByteArray :=
  ⟨(hexBytes digits.toList).toArray⟩

/-- The content of a file: a text, or digits. -/
def bytes (v : Value) : ByteArray :=
  match v with
  | .str s => s.toUTF8
  | other => ofHex (textOr other "hex" "")

/-- The disk with one more entry; a path that ends in a slash is a folder. -/
def addEntry (d : Disk) (e : Key × Value) : Disk :=
  let name := e.1.plain
  let path := Path.ofText name
  let added :=
    if name.toList.getLast? == some '/' then d.addFolder path else d.write path (bytes e.2)
  match added with
  | .ok d => d
  | .error _ => d

/-- The disk of some paths and contents, with its working folder at the given parts. -/
def disk (home : List String) (files : Value) : Disk :=
  let start : Disk := { home }
  let based :=
    match start.addFolder {} with
    | .ok d => d
    | .error _ => start
  (entries files).foldl addEntry based

/-- A guess at an encoding. -/
def guess? (v : Value) : Option Encoding.Guess :=
  v.dict?.map fun _ =>
    { name := field v "encoding", confidence := fieldOr v "confidence" (.int 0) }

end PhpAudit.Script
