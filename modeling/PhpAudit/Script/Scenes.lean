/-
Described scenes for commands.
-/

import PhpAudit.Command.Run
import PhpAudit.Script.Disks
import PhpAudit.Script.Trees
import PhpAudit.Yaml.Reader

set_option autoImplicit false

namespace PhpAudit.Script

/-- A moment from year, month, day, hour, minute and second; without them, the first of 1970. -/
def stamp (v : Value) : Stamp :=
  match (items v).map count with
  | [year, month, day, hour, minute, second] => { year, month, day, hour, minute, second }
  | _ => { year := 1970, month := 1, day := 1 }

/-- Settings files are YAML. -/
def yaml : Settings.Reader :=
  fun text => (Yaml.parse? text).elim (.error .malformed) .ok

/-- The files, trees and moment that a command finds, with the working folder at the given parts. -/
def scene (home : List String) (spec : Value) : Command.Scene :=
  { shelf := { disk := disk home (field spec "files"), guess := guess? (field spec "detected") }
    reader := yaml
    grammar := phpGrammar (field spec "trees") ""
    now := stamp (field spec "now")
    interrupted := boolOr spec "interrupt" false }

end PhpAudit.Script
