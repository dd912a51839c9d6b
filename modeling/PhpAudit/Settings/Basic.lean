/-
The settings of a run.

Settings are a nested dictionary that starts from defaults.  What a file or a caller gives is merged
in: dictionaries are merged entry by entry, anything else replaces what was there.  The result is
checked before it is used, and the first fault found is reported.

* `Settings`, `Settings.defaults` — the dictionary and where it starts;
* `Settings.merge` — taking in what was given;
* `Settings.Error` — what can be wrong;
* `Settings.check` — the check, in the order in which faults are reported;
* `Settings.ofParts` — settings from a file and from a caller.
-/

import PhpAudit.Value.Misuse
import PhpAudit.Finding.Severity

set_option autoImplicit false

namespace PhpAudit

/-- The settings as a nested dictionary. -/
structure Settings where
  tree : Dict
  deriving Inhabited

namespace Settings

/-- The settings that hold where nothing else is said. -/
def defaultTree : Dict :=
  [("analysis", .dict [
     ("risk_threshold", .str "medium"),
     ("confidence_threshold", .float 0.5),
     ("cache_capacity", .int 1000),
     ("cache_eviction_batch", .null),
     ("cache_ttl_seconds", .null),
     ("worker_count", .int 4),
     ("per_file_timeout_ms", .int 30000),
     ("max_file_size_mb", .int 10),
     ("file_extensions", .ofTexts [".php", ".phtml", ".php5", ".php7", ".php8", ".inc"])]),
   ("enabled_analyzers", .dict [
     ("syntax", .bool true),
     ("security", .bool true),
     ("quality", .bool true),
     ("performance", .bool true)]),
   ("exclusions", .dict [
     ("patterns", .ofTexts
       [".git/*", ".svn/*", "vendor/*", "node_modules/*", "cache/*", "*.min.php"])]),
   ("analyzer_settings", .dict [
     ("syntax", .dict [("max_line_length", .int 120), ("check_unused_variables", .bool true)]),
     ("quality", .dict [("max_function_lines", .int 50), ("max_parameters", .int 5),
       ("max_complexity", .int 10)]),
     ("performance", .dict [("max_loop_depth", .int 2)]),
     ("security", .dict [])]),
   ("rules", .dict [])]

/-- The default settings. -/
def defaults : Settings :=
  ⟨defaultTree⟩

/-! ### Merging -/

mutual

/-- What stands under a key after a value is merged onto what was there. -/
def mergeValue (old : Option Value) : Value → Value
  | .dict entries =>
    match old with
    | some (.dict base) => .dict (mergeEntries base entries)
    | _ => .dict entries
  | v => v

/-- The base with the given entries merged in, in their order. -/
def mergeEntries (base : List (Key × Value)) : List (Key × Value) → List (Key × Value)
  | [] => base
  | (k, v) :: rest => mergeEntries (Assoc.put base k (mergeValue (Assoc.get? base k) v)) rest

end

/-- The settings with the given entries merged in. -/
def merge (s : Settings) (given : Dict) : Settings :=
  ⟨mergeEntries s.tree given⟩

/-! ### Checking -/

/-- What can be wrong with settings. -/
inductive Error where
  | fileNotFound (path : String)
  | badYaml (path : String)
  | notMapping (path : String)
  | badRiskThreshold (given : Value)
  | notPositiveInteger (key : String) (given : Value)
  | negativeWorkerCount (given : Value)
  | notPositiveNumber (key : String) (given : Value)
  | badConfidenceThreshold (given : Value)
  | notSwitch (analyzer : Key)
  | patternsNotList
  /-- A setter was given a word that names no severity. -/
  | refusedThreshold (given : Value)
  /-- A setter was given a number out of range. -/
  | refusedNumber (key : String) (given : Value)
  /-- A section has a kind that cannot be read. -/
  | misuse (cause : Misuse)

/-- The wording of each cause. -/
def Error.message : Error → String
  | fileNotFound path => s!"Configuration file not found: {path}"
  | badYaml path => s!"Invalid YAML in config file {path}"
  | notMapping path => s!"Config file {path} must contain a mapping at the top level"
  | badRiskThreshold given =>
    "Invalid risk_threshold: " ++ given.plain ++ ". Must be one of: " ++ Severity.names
  | notPositiveInteger key given =>
    "Invalid " ++ key ++ ": " ++ given.plain ++ ". Must be a positive integer."
  | negativeWorkerCount given =>
    "Invalid worker_count: " ++ given.plain ++ ". Must be a non-negative integer."
  | notPositiveNumber key given =>
    "Invalid " ++ key ++ ": " ++ given.plain ++ ". Must be a positive number."
  | badConfidenceThreshold given =>
    "Invalid confidence_threshold: " ++ given.plain ++ ". Must be between 0 and 1."
  | notSwitch analyzer => "enabled_analyzers." ++ analyzer.plain ++ " must be true or false"
  | patternsNotList => "exclusions.patterns must be a list of glob patterns"
  | refusedThreshold given => "Invalid risk threshold: " ++ given.plain
  | refusedNumber key given => "Invalid " ++ key ++ ": " ++ given.plain
  | misuse cause => cause.message

/-- A misuse as a fault of the settings. -/
def lift {α : Type} (e : Except Misuse α) : Except Error α :=
  e.mapError .misuse

/-- A section of the settings. -/
def part (s : Settings) (key : String) : Except Misuse Value :=
  (Value.dict s.tree).entry key

/-- An entry of the analysis section. -/
def analysis (s : Settings) (key : String) : Except Misuse Value := do
  (← s.part "analysis").entry key

/-- Whether a value is a whole number, truth values excluded, of at least the given size. -/
def isIntegerFrom (least : Int) : Value → Bool
  | .int n => decide (least ≤ n)
  | _ => false

/-- Whether a value is a number, truth values included, that is not zero or below it. -/
def isPositive (v : Value) : Bool :=
  match v.number? with
  | some n => !Number.le n (.int 0)
  | none => false

/-- Whether a value is a number between zero and one. -/
def isFraction (v : Value) : Bool :=
  match v.number? with
  | some n => Number.le (.int 0) n && Number.le n (.int 1)
  | none => false

/-- Refuses with the cause unless the condition holds. -/
def require (condition : Bool) (cause : Error) : Except Error Unit :=
  if condition then .ok () else .error cause

/-- The first entry that is no truth value is at fault. -/
def checkSwitches : Dict → Except Error Unit
  | [] => .ok ()
  | (name, v) :: rest => if v.isBool then checkSwitches rest else .error (.notSwitch name)

/-- The check of the settings, in the order in which faults are reported. -/
def check (s : Settings) : Except Error Unit := do
  let threshold ← lift (s.analysis "risk_threshold")
  require ((threshold.str?.bind Severity.ofName?).isSome) (.badRiskThreshold threshold)
  let capacity ← lift (s.analysis "cache_capacity")
  require (isIntegerFrom 1 capacity) (.notPositiveInteger "cache_capacity" capacity)
  let timeout ← lift (s.analysis "per_file_timeout_ms")
  require (isIntegerFrom 1 timeout) (.notPositiveInteger "per_file_timeout_ms" timeout)
  let workers ← lift (s.analysis "worker_count")
  require (isIntegerFrom 0 workers) (.negativeWorkerCount workers)
  let batch ← lift (s.analysis "cache_eviction_batch")
  require (batch.isNull || (batch.int?.any fun n => decide (0 < n)))
    (.notPositiveInteger "cache_eviction_batch" batch)
  let ttl ← lift (s.analysis "cache_ttl_seconds")
  require (ttl.isNull || isPositive ttl) (.notPositiveNumber "cache_ttl_seconds" ttl)
  let confidence ← lift (s.analysis "confidence_threshold")
  require (isFraction confidence) (.badConfidenceThreshold confidence)
  let size ← lift (s.analysis "max_file_size_mb")
  require (isPositive size) (.notPositiveNumber "max_file_size_mb" size)
  let switches ← lift (s.part "enabled_analyzers")
  checkSwitches (← lift (switches.entries "items"))
  let exclusions ← lift (s.part "exclusions")
  let entries ← lift (exclusions.entries "get")
  require ((Assoc.getD entries "patterns" (.list [])).list?.isSome) .patternsNotList

/-- What the top level of a settings file gives: nothing, entries, or a fault. -/
def fileEntries (path : String) : Value → Except Error Dict
  | .null => .ok []
  | .dict entries => .ok entries
  | _ => .error (.notMapping path)

/-- Settings from the entries of a file and from what a caller gives, checked. -/
def ofParts (file : Dict) (overrides : Value) : Except Error Settings := do
  let given ← if overrides.truthy then lift (overrides.entries "items") else .ok []
  let s := (defaults.merge file).merge given
  s.check
  return s

end Settings

end PhpAudit
