/-
What a command does.

A command lists rules or analyzers, or it audits a target, writes a report and sums it up.  It ends
with zero if no finding reaches the threshold, with one if a finding does or the audit breaks down,
with two if the command line or the settings are at fault, and with 130 if it was interrupted.

* `Command.Scene` — what a command finds: files, reader, grammar, moment, interruption;
* `Command.Ending` — what it leaves: its exit code, what it printed, and the disk;
* `Command.settings` — the settings that the command line asks for;
* `Command.ruleList`, `Command.analyzerList`, `Command.summary` — what is printed;
* `Command.run` — the command.
-/

import PhpAudit.Audit.Files
import PhpAudit.Command.Arguments
import PhpAudit.Fault
import PhpAudit.Language

set_option autoImplicit false

namespace PhpAudit.Command

/-- What a command finds. -/
structure Scene where
  shelf : Audit.Shelf
  reader : Settings.Reader
  grammar : Grammar
  now : Stamp
  /-- Whether the run is interrupted while files are worked on. -/
  interrupted : Bool := false

/-- What a command leaves. -/
structure Ending where
  exit : Nat
  out : String := ""
  /-- What is said about a faulty command line. -/
  err : Option String := none
  /-- The path of the report, if one was written. -/
  report : Option String := none
  disk : Disk

/-- Lines of output, each with its line end. -/
def printed (lines : List String) : String :=
  String.join (lines.map fun l => l ++ "\n")

/-! ### Settings -/

/-- Applies a change for a value that may be given. -/
def whenGiven {α : Type} (given : Option α) (s : Settings)
    (change : Settings → α → Except Settings.Error Settings) : Except Settings.FileError Settings :=
  match given with
  | none => .ok s
  | some v => (change s v).mapError .settings

/-- The settings that the command line asks for. -/
def settings (scene : Scene) (a : Arguments) : Except Settings.FileError Settings := do
  let s ← Settings.load scene.reader scene.shelf.disk a.config .null
  let s ← whenGiven a.riskThreshold s fun s v => s.setRiskThreshold (.str v)
  let s ←
    if a.excluded.isEmpty then pure s
    else (s.addExclusions (.ofTexts a.excluded)).mapError fun m => .settings (.misuse m)
  let s ← whenGiven a.workers s fun s v => s.setWorkerCount (.int v)
  let s ← whenGiven a.timeout s fun s v => s.setPerFileTimeout (.int v)
  (a.disabled.foldlM (fun (s : Settings) name => s.setAnalyzerEnabled (.str name) (.bool false))
    s).mapError fun m => .settings (.misuse m)

/-! ### What is printed -/

/-- The line of a rule. -/
def ruleLine (r : Rule) : String :=
  let category :=
    match r.profile.security with
    | some s => " [" ++ s.owasp.code ++ " " ++ s.owasp.name ++ "]"
    | none => ""
  Text.padRight r.profile.id 28 ++ " " ++ Text.padRight r.profile.severity 9 ++ " " ++
    r.profile.name ++ category

/-- A line of equals signs. -/
def ruler (width : Nat) : String :=
  String.ofList (List.replicate width '=')

/-- The rules of all analyzers. -/
def ruleList (s : Settings) : Except Misuse (List String) := do
  let analyzers ← Language.php.analyzers s
  return analyzers.flatMap fun a =>
    [Text.capitalize a.kind.name ++ " rules:", ruler 50] ++ a.book.rules.map ruleLine ++ [""]

/-- The line of an analyzer. -/
def analyzerLine (s : Settings) (language : String) (a : RuledAnalyzer) : Except Misuse String := do
  let state := if (← s.analyzerEnabled a.kind.name).truthy then "enabled" else "disabled"
  return " " ++ Text.padRight a.kind.name 12 ++ " " ++ Text.padRight state 9 ++ " " ++ language ++
    " (" ++ toString a.detectors.length ++ " detectors; " ++
    ", ".intercalate RuledAnalyzer.extensions ++ ")"

/-- The analyzers of all languages. -/
def analyzerList (s : Settings) : Except Misuse (List String) := do
  let perLanguage ← Language.all.mapM fun l => do
    (← l.analyzers s).mapM (analyzerLine s l.name)
  return ["Built-in Analyzers:", ruler 35] ++ perLanguage.flatten

/-- What is said about a batch at the end. -/
def summary (b : Batch) (reportPath threshold : String) : List String :=
  let counts := b.severityCounts.filter fun e => e.2 != 0
  ["",
   "Analysis complete!",
   s!"Files analyzed: {b.successful.length} ({b.failures.length} failed)",
   s!"Total issues found: {b.findingCount}"] ++
  counts.map (fun e => "  " ++ Text.padRight e.1 9 ++ " " ++ toString e.2) ++
  ["Average quality score: " ++ (Value.float (Decimal.round b.averageQuality 2)).plain ++ " (" ++
     b.grade ++ ")",
   "Report generated: " ++ reportPath,
   "",
   if b.passes threshold then "No issues at or above '" ++ threshold ++ "' severity."
   else "Issues at or above '" ++ threshold ++
     "' severity detected. Review the report for details."]

/-! ### Running -/

/-- The name of the program in its messages. -/
def program : String := "periksa"

/-- The line that names the version. -/
def versionLine : String := "Periksa PHP Code Analyzer v1.0.0"

/-- The end of a command whose command line is at fault. -/
def refuse (disk : Disk) (cause : Error) : Ending :=
  { exit := 2, err := some (program ++ ": error: " ++ cause.message), disk }

/-- The file to which the report goes. -/
def outputPath (a : Arguments) : String :=
  match a.output with
  | none | some "" => program ++ "_report." ++ a.format
  | some path => path

/-- Why an audit ends without a report. -/
inductive Breakdown where
  | interrupted
  | undiscovered (cause : Disk.Refusal)
  | misuse (cause : Misuse)
  | endless
  | unwritable (cause : Report.Format.Error)

/-- Audits the files at or below a target and writes the report: the batch, the path of the report
and the disk with it. -/
def produce (scene : Scene) (a : Arguments) (audit : Audit) (target : String) :
    Except Breakdown (Batch × String × Disk) := do
  let files ← (audit.discover scene.shelf.disk target).mapError .undiscovered
  if scene.interrupted then throw .interrupted
  let finished ← (audit.analyzeBatch scene.shelf files).mapError .misuse
  match finished with
  | none => throw .endless
  | some (batch, _) =>
    let format ← (Report.Format.ofName a.format).mapError .unwritable
    let (path, disk) ← (format.save batch scene.now scene.shelf.disk (outputPath a)).mapError
      .unwritable
    return (batch, path, disk)

/-- Audits a target. -/
def audit (scene : Scene) (a : Arguments) (s : Settings) (target : String) : Ending :=
  let disk := scene.shelf.disk
  let say (lines : List String) : String := if a.quiet then "" else printed lines
  match Audit.standard s scene.grammar with
  | .error _ => { exit := 1, disk }
  | .ok start =>
    let greeting := ["Starting analysis of: " ++ (Path.ofText target).text]
    match produce scene a start target with
    | .error .interrupted =>
      { exit := 130, out := say (greeting ++ ["", "Analysis interrupted by user"]), disk }
    | .error _ => { exit := 1, out := say greeting, disk }
    | .ok (batch, path, written) =>
      match s.riskThreshold with
      | .error _ =>
        { exit := 1, out := say greeting, report := some (outputPath a), disk := written }
      | .ok threshold =>
        { exit := if batch.passes threshold.plain then 0 else 1
          out := say (greeting ++ summary batch path threshold.plain)
          report := some (outputPath a)
          disk := written }

/-- Does what the arguments ask for. -/
def perform (scene : Scene) (a : Arguments) (s : Settings) : Except Fault Ending := do
  let disk := scene.shelf.disk
  if a.listRules then
    return { exit := 0, out := printed (← (ruleList s).mapError Misuse.fault), disk }
  if a.listAnalyzers then
    return { exit := 0, out := printed (← (analyzerList s).mapError Misuse.fault), disk }
  match a.target with
  | none => return refuse disk .missingTarget
  | some target => return audit scene a s target

/-- Whether there is anything at the path that a word stands for. -/
def isThere (disk : Disk) (word : String) : Except Halt Bool :=
  (disk.has (Path.ofText word)).mapError (.trouble · (Path.ofText word))

/-- Runs a command line. -/
def run (scene : Scene) (words : List String) : Except Fault Ending :=
  let disk := scene.shelf.disk
  match read (isThere disk) words with
  | .error (.fault cause) => .ok (refuse disk cause)
  | .error (.trouble cause path) => .error ⟨cause.kind, cause.message path⟩
  | .error .version => .ok { exit := 0, out := printed [versionLine], disk }
  | .error .help => .ok { exit := 0, disk }
  | .ok a =>
    match settings scene a with
    | .ok s => perform scene a s
    | .error (.settings (.misuse m)) => .error m.fault
    | .error (.settings _) => .ok { exit := 2, disk }
    | .error e => .error e.fault

end PhpAudit.Command
