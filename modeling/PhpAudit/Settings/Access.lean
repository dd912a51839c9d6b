/-
Reading and changing settings.

Every answer is read from the nested dictionary at the time it is asked for, so a section of the
wrong kind shows where it is used.
-/

import PhpAudit.Settings.Basic
import PhpAudit.Glob
import PhpAudit.Path
import PhpAudit.Value.Arithmetic

set_option autoImplicit false

namespace PhpAudit.Settings

/-! ### Reading -/

/-- The least severity that counts against a run. -/
def riskThreshold (s : Settings) : Except Misuse Value :=
  s.analysis "risk_threshold"

/-- The least confidence of a security finding. -/
def confidenceThreshold (s : Settings) : Except Misuse Float := do
  (← s.analysis "confidence_threshold").toFloat

/-- How many parsed files are kept. -/
def cacheCapacity (s : Settings) : Except Misuse Value :=
  s.analysis "cache_capacity"

/-- How many parsed files are dropped at once. -/
def cacheEvictionBatch (s : Settings) : Except Misuse Value :=
  s.analysis "cache_eviction_batch"

/-- How long a parsed file is kept. -/
def cacheTtl (s : Settings) : Except Misuse Value :=
  s.analysis "cache_ttl_seconds"

/-- How many files are worked on at once. -/
def workerCount (s : Settings) : Except Misuse Value :=
  s.analysis "worker_count"

/-- The time allowed for a file, in seconds. -/
def perFileTimeout (s : Settings) : Except Misuse Float := do
  (← s.analysis "per_file_timeout_ms").dividedBy (.float 1000.0)

/-- The greatest size of a file, in megabytes. -/
def maxFileSize (s : Settings) : Except Misuse Value :=
  s.analysis "max_file_size_mb"

/-- The endings of the files that are looked at. -/
def fileExtensions (s : Settings) : Except Misuse (List Value) := do
  (← s.analysis "file_extensions").items

/-- Whether an analyzer runs; one that is not mentioned does. -/
def analyzerEnabled (s : Settings) (name : Value) : Except Misuse Value := do
  let entries ← (← s.part "enabled_analyzers").entries "get"
  return Assoc.getD entries (← name.toKey) (.bool true)

/-- The settings of an analyzer. -/
def analyzerSettings (s : Settings) (name : Value) : Except Misuse Value := do
  let entries ← (← s.part "analyzer_settings").entries "get"
  return Assoc.getD entries (← name.toKey) (.dict [])

/-- The settings of a rule. -/
def ruleSettings (s : Settings) (id : Value) : Except Misuse Value := do
  let entries ← (← s.part "rules").entries "get"
  return Assoc.getD entries (← id.toKey) (.dict [])

/-- The patterns of excluded files. -/
def exclusionPatterns (s : Settings) : Except Misuse (List Value) := do
  (← (← s.part "exclusions").entry "patterns").items

/-- Whether a pattern excludes a path: it matches the path, its last part, or the end of the path
after a slash. -/
def patternExcludes (path : Path) (pattern : String) : Bool :=
  Glob.accepts pattern path.text || Glob.accepts pattern path.name ||
    Glob.accepts ("*/" ++ pattern) path.text

/-- Whether one of the patterns excludes the path; a pattern must be a text. -/
def anyExcludes (path : Path) : List Value → Except Misuse Bool
  | [] => .ok false
  | .str pattern :: rest => if patternExcludes path pattern then .ok true else anyExcludes path rest
  | other :: _ => .error (.notPath other.kindName)

/-- Whether a path is excluded. -/
def excludes (s : Settings) (path : Path) : Except Misuse Bool := do
  anyExcludes path (← s.exclusionPatterns)

/-- Whether a severity reaches the threshold; what names no degree counts as the lowest. -/
def meetsThreshold (s : Settings) (severity : Value) : Except Misuse Bool := do
  let given ← severity.toKey
  let threshold ← s.riskThreshold
  return decide (Severity.priorityOf threshold.plain ≤ Severity.priorityOf given.plain)

/-! ### Changing -/

/-- Writes an entry of a section that is a dictionary. -/
def write (s : Settings) (part key : Key) (v : Value) : Settings :=
  match Assoc.get? s.tree part with
  | some (.dict entries) => ⟨Assoc.put s.tree part (.dict (Assoc.put entries key v))⟩
  | _ => s

/-- Changes the least severity that counts. -/
def setRiskThreshold (s : Settings) (given : Value) : Except Error Settings :=
  if (given.str?.bind Severity.ofName?).isSome then
    .ok (s.write "analysis" "risk_threshold" given)
  else .error (.refusedThreshold given)

/-- The number that a setter compares with zero. -/
def comparable (relation : String) (given : Value) : Except Error Number :=
  match given.number? with
  | some n => .ok n
  | none => .error (.misuse (.unordered relation given.kindName "int"))

/-- Changes the number of workers, which must not be negative. -/
def setWorkerCount (s : Settings) (given : Value) : Except Error Settings := do
  let n ← comparable "<" given
  if n.lt (.int 0) then throw (.refusedNumber "worker_count" given)
  return s.write "analysis" "worker_count" given

/-- Changes the time allowed for a file, which must be positive. -/
def setPerFileTimeout (s : Settings) (given : Value) : Except Error Settings := do
  let n ← comparable "<=" given
  if n.le (.int 0) then throw (.refusedNumber "per_file_timeout_ms" given)
  return s.write "analysis" "per_file_timeout_ms" given

/-- Switches an analyzer on or off. -/
def setAnalyzerEnabled (s : Settings) (name enabled : Value) : Except Misuse Settings := do
  return s.write "enabled_analyzers" (← name.toKey) enabled

/-- Adds patterns of excluded files. -/
def addExclusions (s : Settings) (given : Value) : Except Misuse Settings := do
  let patterns ← s.exclusionPatterns
  let more ← given.items
  return s.write "exclusions" "patterns" (.list (patterns ++ more))

end PhpAudit.Settings
