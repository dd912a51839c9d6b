/-
Faults as reports show them.

Causes of failures are types of their own throughout the library.  Where a report names a failure,
it gives the word for its kind and the text.
-/

import PhpAudit.Disk.Source
import PhpAudit.Finding.Dict
import PhpAudit.Roster.Requests
import PhpAudit.Settings.File

set_option autoImplicit false

namespace PhpAudit

/-- The kind and the text of a failure. -/
structure Fault where
  kind : String
  text : String
  deriving Inhabited

/-- Kind and text in one line. -/
def Fault.label (f : Fault) : String :=
  f.kind ++ ": " ++ f.text

/-- A misuse as a fault. -/
def Misuse.fault (m : Misuse) : Fault :=
  ⟨m.kind, m.message⟩

/-- The fault of a dictionary that is no finding. -/
def Finding.Error.fault (e : Finding.Error) : Fault :=
  match e with
  | .misuse m => m.fault
  | _ => ⟨"ValueError", e.message⟩

/-- The fault of settings. -/
def Settings.Error.fault (e : Settings.Error) : Fault :=
  match e with
  | .misuse m => m.fault
  | _ => ⟨"ConfigurationError", e.message⟩

/-- The word for the kind of trouble with a disk. -/
def Disk.Trouble.kind : Disk.Trouble → String
  | missing => "FileNotFoundError"
  | notFolder => "NotADirectoryError"
  | isFolder => "IsADirectoryError"
  | taken => "FileExistsError"
  | nameTooLong => "OSError"
  | zeroByte => "ValueError"

/-- The fault of a settings file. -/
def Settings.FileError.fault (e : Settings.FileError) : Fault :=
  match e with
  | .settings cause => cause.fault
  | .trouble cause _ => ⟨cause.kind, e.message⟩
  | .undecodable _ _ _ _ => ⟨"UnicodeDecodeError", e.message⟩
  | .unread kind text => ⟨kind, text⟩

/-- The fault of a request that a roster refuses. -/
def Roster.Refusal.fault (r : Roster.Refusal) : Fault :=
  match r with
  | .locked => ⟨"RegistryLockedError", r.message⟩
  | .notAnalyzer _ => ⟨"ConfigurationError", r.message⟩
  | .misuse m => m.fault

/-- The fault of a file that gives no text. -/
def Disk.Refusal.fault (r : Disk.Refusal) : Fault :=
  match r with
  | .trouble cause path => ⟨cause.kind, cause.message path⟩
  | .misuse m => m.fault
  | _ => ⟨"ValueError", r.message⟩

end PhpAudit
