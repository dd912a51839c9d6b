/-
The languages that can be analyzed.
-/

import PhpAudit.Analyzer.Ruled

set_option autoImplicit false

namespace PhpAudit

/-- A language that can be analyzed. -/
inductive Language where
  | php
  deriving DecidableEq

namespace Language

/-- The name of a language. -/
def name : Language → String
  | php => "php"

/-- All languages. -/
def all : List Language :=
  [php]

/-- The language of a name. -/
def ofName? (name : String) : Option Language :=
  all.find? fun l => l.name == name

/-- Why there are no analyzers for a name. -/
inductive Error where
  | unknown (name : String)
  | misuse (cause : Misuse)

/-- The wording of each cause. -/
def Error.message : Error → String
  | unknown name => "Language module not available: " ++ name
  | misuse cause => cause.message

/-- The analyzers for a language. -/
def analyzers (l : Language) (settings : Settings) : Except Misuse (List RuledAnalyzer) :=
  match l with
  | php => RuledAnalyzer.defaults settings

/-- The analyzers for the language of a name. -/
def load (name : String) (settings : Settings) : Except Error (List RuledAnalyzer) :=
  match ofName? name with
  | some l => (l.analyzers settings).mapError .misuse
  | none => .error (.unknown name)

end Language

end PhpAudit
