/-
Reading source files.

A file that is too large or looks binary is refused before its text is taken.
-/

import PhpAudit.Disk.Basic
import PhpAudit.Encoding
import PhpAudit.Text.Case
import PhpAudit.Value.Order

set_option autoImplicit false

namespace PhpAudit.Disk

/-- Why a file gives no text. -/
inductive Refusal where
  | trouble (cause : Trouble) (path : Path)
  | tooLarge (path : Path) (size : Nat)
  | binary (path : Path)
  /-- The guess at the encoding cannot be used. -/
  | misuse (cause : Misuse)

/-- The wording of each cause. -/
def Refusal.message : Refusal → String
  | trouble cause path => cause.message path
  | tooLarge path size => s!"File too large to analyze: {path.text} ({size} bytes)"
  | binary path => s!"Binary content in {path.text}"
  | misuse cause => cause.message

/-- How many bytes are looked at for a zero. -/
def probeSize : Nat := 8192

/-- Whether a zero byte is near the start. -/
def looksBinary (content : ByteArray) : Bool :=
  ((content.extract 0 probeSize).toList).contains 0

/-- How many bytes an entry is said to have; a folder takes up one block. -/
def Entry.size : Entry → Nat
  | file content => content.size
  | folder _ => 4096

/-- Text and encoding of the file at a path.  A greatest size that counts as false is no limit. -/
def readSource (d : Disk) (path : Path) (greatest : Value) (guess : Option Encoding.Guess) :
    Except Refusal (String × String) := do
  let entry ← (d.find path).mapError (.trouble · path)
  if greatest.truthy then
    if ← (Value.greater (.nat entry.size) greatest).mapError .misuse then
      throw (.tooLarge path entry.size)
  let content ← (d.bytes path).mapError (.trouble · path)
  if looksBinary content then throw (.binary path)
  (Encoding.read content guess).mapError .misuse

/-- The endings of PHP files where none are given. -/
def phpExtensions : List String :=
  [".php", ".phtml", ".php5", ".php7", ".php8", ".inc"]

/-- An ending in lower case with a dot in front. -/
def dotted : Value → Except Misuse String
  | .str s => .ok (if Text.startsWith s "." then Text.lower s else "." ++ Text.lower s)
  | other => .error (.noAttribute other.kindName "startswith")

/-- Whether the name of a file has one of some endings; null stands for those of PHP files. -/
def hasExtension (path : Path) (endings : Value) : Except Misuse Bool := do
  let known ← if endings.isNull then pure phpExtensions else (← endings.items).mapM dotted
  return known.contains (Text.lower path.suffix)

end PhpAudit.Disk
