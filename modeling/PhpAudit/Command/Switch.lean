/-
The switches of the command line.
-/

import PhpAudit.Analyzer.Ruled
import PhpAudit.Report.Format

set_option autoImplicit false

namespace PhpAudit.Command

/-- A switch of the command line. -/
inductive Switch where
  | help
  | output
  | format
  | config
  | riskThreshold
  | exclude
  | workers
  | timeout
  | disableAnalyzer
  | verbose
  | quiet
  | listRules
  | listAnalyzers
  | version
  deriving DecidableEq

namespace Switch

/-- All switches in the order in which they are declared. -/
def all : List Switch :=
  [help, output, format, config, riskThreshold, exclude, workers, timeout, disableAnalyzer,
   verbose, quiet, listRules, listAnalyzers, version]

/-- The ways in which a switch is written. -/
def spellings : Switch → List String
  | help => ["-h", "--help"]
  | output => ["--output", "-o"]
  | format => ["--format", "-f"]
  | config => ["--config", "-c"]
  | riskThreshold => ["--risk-threshold"]
  | exclude => ["--exclude"]
  | workers => ["--workers", "-w"]
  | timeout => ["--timeout-ms"]
  | disableAnalyzer => ["--disable-analyzer"]
  | verbose => ["--verbose", "-v"]
  | quiet => ["--quiet", "-q"]
  | listRules => ["--list-rules"]
  | listAnalyzers => ["--list-analyzers"]
  | version => ["--version"]

/-- The name of a switch in messages. -/
def label (s : Switch) : String :=
  "/".intercalate s.spellings

/-- Every way of writing a switch, in the order of declaration. -/
def table : List (String × Switch) :=
  all.flatMap fun s => s.spellings.map fun w => (w, s)

/-- The switch that is written so. -/
def ofSpelling? (word : String) : Option Switch :=
  table.lookup word

/-- Whether a value follows. -/
def takesValue : Switch → Bool
  | output | format | config | riskThreshold | exclude | workers | timeout | disableAnalyzer => true
  | _ => false

/-- The values among which one has to choose. -/
def choices : Switch → Option (List String)
  | format => some Report.Format.names
  | riskThreshold => some (Severity.all.map Severity.name)
  | disableAnalyzer => some (RuledAnalyzer.Kind.all.map RuledAnalyzer.Kind.name)
  | _ => none

end Switch

end PhpAudit.Command
