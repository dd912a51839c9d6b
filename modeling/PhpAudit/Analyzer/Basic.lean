/-
Analyzers of any origin.

Besides the built-in analyzers a run can have others, about which nothing is known but what they
answer.  Such an analyzer may break down, answer with something that is no outcome, take its time,
cancel the run, or bring in further analyzers.
-/

import PhpAudit.Analyzer.Ruled

set_option autoImplicit false

namespace PhpAudit

/-- What an analyzer answers. -/
inductive Analyzer.Answer where
  | outcome (o : Outcome)
  /-- Something else, of a kind with this name. -/
  | other (kind : String)
  /-- It broke down. -/
  | crash (cause message : String)

/-- What a call of an analyzer comes to: its answer, the time it took, whether it cancelled the run,
and analyzers of the type `α` that it brought in. -/
structure Analyzer.Reaction (α : Type) where
  answer : Analyzer.Answer
  seconds : Float := 0.0
  cancels : Bool := false
  newcomers : List α := []

/-- A built-in analyzer, or another one that is told whether the roster is locked. -/
inductive Analyzer where
  | builtIn (a : RuledAnalyzer)
  | foreign (name : Key) (extensions : Value) (recovers : Bool)
      (react : Bool → SourceFile → Analyzer.Reaction Analyzer)

namespace Analyzer

/-- The name under which an analyzer is listed. -/
def name : Analyzer → Key
  | builtIn a => .str a.kind.name
  | foreign name _ _ _ => name

/-- The endings of the files that an analyzer looks at. -/
def extensions : Analyzer → Value
  | builtIn _ => .ofTexts RuledAnalyzer.extensions
  | foreign _ extensions _ _ => extensions

/-- Whether an analyzer can work with a file that has faults. -/
def recovers : Analyzer → Bool
  | builtIn a => a.kind.recovers
  | foreign _ _ recovers _ => recovers

/-- Whether an analyzer looks at files with an ending. -/
def supports (a : Analyzer) (ending : String) : Except Misuse Bool :=
  a.extensions.holds (normalExtension ending)

/-- Whether an analyzer can work on a file. -/
def isReady (a : Analyzer) (file : SourceFile) : Except Misuse Bool :=
  if file.hasErrors && !a.recovers then .ok false else a.supports file.extension

/-- The call of an analyzer. -/
def react (a : Analyzer) (locked : Bool) (file : SourceFile) : Reaction Analyzer :=
  match a with
  | builtIn a =>
    match a.analyze file with
    | .ok o => { answer := .outcome o }
    | .error m => { answer := .crash m.kind m.message }
  | foreign _ _ _ react => react locked file

/-- What is said of an analyzer that failed. -/
def failureText (name : Key) (reason : String) : String :=
  "Analyzer '" ++ name.plain ++ "' failed: " ++ reason

/-- The outcome for an answer: its own, or the record of the failure. -/
def Answer.toOutcome (answer : Answer) (name : Key) (path : String) (time : Float) : Outcome :=
  match answer with
  | .outcome o => o
  | .other kind =>
    .failure (.ofKey name) path
      (failureText name ("returned " ++ kind ++ ", expected AnalyzerResult")) (.float time)
  | .crash cause message =>
    .failure (.ofKey name) path (failureText name (cause ++ ": " ++ message)) (.float time)

end Analyzer

end PhpAudit
