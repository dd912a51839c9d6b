/-
The command.

PHP itself is parsed by another program.  The command therefore takes one line of JSON from standard
input, which holds the files of the working folder and their concrete trees; everything else is
said on the command line.  The report is written to the real disk.
-/

import PhpAudit.Script.Scenes

set_option autoImplicit false

namespace PhpAudit.Command

/-- Prints what a command said, and writes its report. -/
def Ending.publish (e : Ending) : IO Unit := do
  IO.print e.out
  match e.err with
  | some line => IO.eprintln line
  | none => pure ()
  match e.report with
  | some path =>
    match e.disk.bytes (Path.ofText path) with
    | .ok content => IO.FS.writeBinFile path content
    | .error _ => pure ()
  | none => pure ()

end PhpAudit.Command

/-- Runs the command line. -/
def main (words : List String) : IO UInt32 := do
  let line ← (← IO.getStdin).getLine
  let scene := PhpAudit.Script.scene [] ((PhpAudit.Json.parse? line).getD .null)
  match PhpAudit.Command.run scene words with
  | .ok e =>
    e.publish
    return e.exit.toUInt32
  | .error f =>
    IO.eprintln f.label
    return 1
