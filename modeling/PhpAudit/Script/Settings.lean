/-
Described questions to settings, and changes of them.
-/

import PhpAudit.Fault
import PhpAudit.Script.Fields
import PhpAudit.Settings.Access

set_option autoImplicit false

namespace PhpAudit.Script

/-- The questions and changes with the names of what has to be given. -/
def settingsParameters : List (String × List String) :=
  [("get_risk_threshold", []),
   ("set_risk_threshold", ["threshold"]),
   ("get_confidence_threshold", []),
   ("get_cache_capacity", []),
   ("get_cache_eviction_batch", []),
   ("get_cache_ttl", []),
   ("get_worker_count", []),
   ("set_worker_count", ["count"]),
   ("get_per_file_timeout", []),
   ("set_per_file_timeout_ms", ["timeout_ms"]),
   ("get_max_file_size_mb", []),
   ("get_file_extensions", []),
   ("is_analyzer_enabled", ["name"]),
   ("set_analyzer_enabled", ["name", "enabled"]),
   ("get_analyzer_settings", ["name"]),
   ("get_rule_config", ["rule_id"]),
   ("get_exclusion_patterns", []),
   ("set_exclusions", ["patterns"]),
   ("should_exclude_file", ["file_path"]),
   ("meets_severity_threshold", ["severity"]),
   ("to_dict", [])]

/-- What is said when more is given than there are parameters. -/
def surplus (call : String) (parameters given : Nat) : Fault :=
  let plural := if parameters == 0 then "" else "s"
  ⟨"TypeError", s!"{call} takes {parameters + 1} positional argument{plural} but " ++
    s!"{given + 1} were given"⟩

/-- What is said when parameters are left open. -/
def shortage (call : String) (missing : List String) : Fault :=
  let plural := if missing.length == 1 then "" else "s"
  let names := " and ".intercalate (missing.map Text.quote)
  ⟨"TypeError", s!"{call} missing {missing.length} required positional argument{plural}: {names}"⟩

/-- Refuses a step that is unknown or has too many or too few arguments. -/
def checkArguments (method : String) (given : Nat) : Except Fault Unit :=
  match settingsParameters.lookup method with
  | none => .error (Misuse.noAttribute "Config" method).fault
  | some parameters =>
    let call := "Config." ++ method ++ "()"
    if parameters.length < given then .error (surplus call parameters.length given)
    else if given < parameters.length then .error (shortage call (parameters.drop given))
    else .ok ()

/-- The path that a value stands for. -/
def path : Value → Except Misuse Path
  | .str s => .ok (Path.ofText s)
  | other => .error (.notPath other.kindName)

/-- The answer to a question. -/
def settingsAnswer (s : Settings) (question : String) (arg : Value) : Except Misuse Value :=
  match question with
  | "get_risk_threshold" => s.riskThreshold
  | "get_confidence_threshold" => s.confidenceThreshold.map .float
  | "get_cache_capacity" => s.cacheCapacity
  | "get_cache_eviction_batch" => s.cacheEvictionBatch
  | "get_cache_ttl" => s.cacheTtl
  | "get_worker_count" => s.workerCount
  | "get_per_file_timeout" => s.perFileTimeout.map .float
  | "get_max_file_size_mb" => s.maxFileSize
  | "get_file_extensions" => s.fileExtensions.map .list
  | "is_analyzer_enabled" => s.analyzerEnabled arg
  | "get_analyzer_settings" => s.analyzerSettings arg
  | "get_rule_config" => s.ruleSettings arg
  | "get_exclusion_patterns" => s.exclusionPatterns.map .list
  | "should_exclude_file" => do return .bool (← s.excludes (← path arg))
  | "meets_severity_threshold" => (s.meetsThreshold arg).map .bool
  | _ => .ok (.dict s.tree)

/-- The answer to a question or a change, and the settings afterwards. -/
def settingsStep (s : Settings) (step : Value) : Except Fault (Value × Settings) := do
  let method := text (nth step 0)
  let arg := nth step 1
  checkArguments method ((items step).length - 1)
  match method with
  | "set_risk_threshold" =>
    return (.null, ← (s.setRiskThreshold arg).mapError Settings.Error.fault)
  | "set_worker_count" => return (.null, ← (s.setWorkerCount arg).mapError Settings.Error.fault)
  | "set_per_file_timeout_ms" =>
    return (.null, ← (s.setPerFileTimeout arg).mapError Settings.Error.fault)
  | "set_analyzer_enabled" =>
    return (.null, ← (s.setAnalyzerEnabled arg (nth step 2)).mapError Misuse.fault)
  | "set_exclusions" => return (.null, ← (s.addExclusions arg).mapError Misuse.fault)
  | question => return (← (settingsAnswer s question arg).mapError Misuse.fault, s)

end PhpAudit.Script
