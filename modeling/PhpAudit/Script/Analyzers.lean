/-
Described analyzers.
-/

import PhpAudit.Analyzer.Basic
import PhpAudit.Script.Reports

set_option autoImplicit false

namespace PhpAudit.Script

/-- The seconds that a value adds to a clock. -/
def seconds (v : Value) : Except Misuse Float :=
  match v.number? with
  | some n => n.toFloat?.elim (.error .tooLarge) .ok
  | none => .error (.noOperator "+=" "float" v.kindName)

/-- An analyzer that finds nothing. -/
def idleAnalyzer (name : Key) : Analyzer :=
  .foreign name (.ofTexts ["php"]) false fun _ file =>
    { answer := .outcome { analyzer := .ofKey name, filePath := file.path } }

/-- The analyzers that a described one brings in. -/
def newcomers (spec : Value) : List Analyzer :=
  match (field spec "mutate").key? with
  | some name => if (field spec "mutate").truthy then [idleAnalyzer name] else []
  | none => []

/-- What a described analyzer says about bringing in another. -/
def newcomerNote (spec : Value) (locked : Bool) : List Value :=
  if (newcomers spec).isEmpty then []
  else if locked then [.str ("RegistryLockedError: " ++ Roster.Error.locked.message)]
  else ["registered"]

/-- What a described analyzer says of a file before it lists its findings. -/
def remarks (spec : Value) (locked : Bool) (file : SourceFile) : Except Misuse Outcome := do
  let errors ← (field spec "errors").itemsOrEmpty
  let metadata ← (field spec "metadata").toDict
  return {
    analyzer := field spec "name"
    filePath := file.path
    errors
    warnings := newcomerNote spec locked
    metadata }

/-- What a described analyzer does once some time has passed: it may break down or answer with
something else before it brings in others. -/
def reaction (spec : Value) (seconds : Float) (locked : Bool) (file : SourceFile) :
    Analyzer.Reaction Analyzer :=
  let cancels := boolOr spec "cancel" false
  match spec.field? "crash", spec.field? "bad_return" with
  | some message, _ => { answer := .crash "RuntimeError" message.plain, seconds, cancels }
  | none, some v => { answer := .other v.kindName, seconds, cancels }
  | none, none =>
    match remarks spec locked file with
    | .error m => { answer := .crash m.kind m.message, seconds, cancels }
    | .ok said =>
      let answer :=
        match findings (field spec "issues") with
        | .error f => Analyzer.Answer.crash f.kind f.text
        | .ok found => .outcome { said with findings := found }
      { answer, seconds, cancels, newcomers := if locked then [] else newcomers spec }

/-- What a described analyzer does with a file. -/
def react (spec : Value) (locked : Bool) (file : SourceFile) : Analyzer.Reaction Analyzer :=
  match seconds (fieldOr spec "advance" (.int 0)) with
  | .error m => { answer := .crash m.kind m.message }
  | .ok s => reaction spec s locked file

/-- An analyzer that does what its description says. -/
def analyzer (spec : Value) : Except Misuse Analyzer := do
  let name ← (← spec.entry "name").toKey
  return .foreign name (fieldOr spec "extensions" (.ofTexts ["php"]))
    (boolOr spec "recovery" false) (react spec)

end PhpAudit.Script
