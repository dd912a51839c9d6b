/-
The formats in which a batch is written.
-/

import PhpAudit.Disk.Basic
import PhpAudit.Json.Writer
import PhpAudit.Page.Sections

set_option autoImplicit false

namespace PhpAudit.Report

/-- A format of reports. -/
inductive Format where
  | html
  /-- With a text to indent by, or on one line. -/
  | json (indent : Option String)
  deriving DecidableEq

namespace Format

/-- The names of the formats. -/
def names : List String :=
  ["html", "json"]

/-- Why a report cannot be written. -/
inductive Error where
  | unsupported (name : String)
  | unwritable (format : Format) (cause : Disk.Trouble) (path : Path)
  /-- A value in the report has the wrong kind for what is said of it. -/
  | misuse (cause : Misuse)

/-- The word for a format in messages. -/
def label : Format → String
  | html => "HTML"
  | json _ => "JSON"

/-- The wording of each cause. -/
def Error.message : Error → String
  | unsupported name =>
    "Unsupported report format: " ++ name ++ ". Supported formats: " ++ ", ".intercalate names
  | unwritable format cause path =>
    if cause == .zeroByte then cause.message path
    else "Failed to generate " ++ format.label ++ " report: " ++ cause.message path
  | misuse cause => cause.message

/-- The format of a name in any case. -/
def ofName (name : String) : Except Error Format :=
  match Text.lower name with
  | "html" => .ok html
  | "json" => .ok (json (some "  "))
  | other => .error (.unsupported other)

/-- The text to indent by that a value asks for: so many blanks, a text, or none at all. -/
def indentOf : Value → Except Misuse (Option String)
  | .null => .ok none
  | .int n => .ok (some (String.ofList (List.replicate n.toNat ' ')))
  | .bool b => .ok (some (if b then " " else ""))
  | .str s => .ok (some s)
  | other => .error (.notRepeatable other.kindName)

/-- The text of a batch. -/
def write (format : Format) (b : Batch) (now : Stamp) : Except Misuse String :=
  match format with
  | html => do return Page.render (← Page.report b now)
  | json indent => do return Json.render indent (.dict (← b.toDict now))

/-- Writes a batch to a file, and tells the path of the file from the root on. -/
def save (format : Format) (b : Batch) (now : Stamp) (disk : Disk) (output : String) :
    Except Error (String × Disk) := do
  let content ← (format.write b now).mapError .misuse
  let path := Path.ofText output
  let written ← (disk.write path content.toUTF8).mapError (.unwritable format · path)
  return ((disk.absolute path).text, written)

end Format

end PhpAudit.Report
