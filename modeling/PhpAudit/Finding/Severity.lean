/-
How grave a finding is, and what it is about.
-/

set_option autoImplicit false

namespace PhpAudit

/-- The degrees of severity, the gravest first. -/
inductive Severity where
  | critical
  | high
  | medium
  | low
  | info
  deriving DecidableEq, Inhabited

namespace Severity

/-- All degrees, the gravest first. -/
def all : List Severity :=
  [critical, high, medium, low, info]

/-- The word for a degree. -/
def name : Severity → String
  | critical => "critical"
  | high => "high"
  | medium => "medium"
  | low => "low"
  | info => "info"

/-- The degree that a word stands for. -/
def ofName? (word : String) : Option Severity :=
  all.find? fun s => s.name == word

@[simp] theorem ofName?_name (s : Severity) : ofName? s.name = some s := by
  cases s <;> rfl

/-- Five for the gravest degree down to one. -/
def priority : Severity → Nat
  | critical => 5
  | high => 4
  | medium => 3
  | low => 2
  | info => 1

/-- The priority of a word; words that name no degree count as the lowest. -/
def priorityOf (word : String) : Nat :=
  match ofName? word with
  | some s => s.priority
  | none => 1

/-- All words in one line. -/
def names : String :=
  ", ".intercalate (all.map name)

end Severity

/-- The subjects of findings. -/
inductive Category where
  | security
  | performance
  | quality
  | syntactic
  | style
  | maintainability
  | compatibility
  deriving DecidableEq, Inhabited

namespace Category

/-- All subjects. -/
def all : List Category :=
  [security, performance, quality, syntactic, style, maintainability, compatibility]

/-- The word for a subject. -/
def name : Category → String
  | security => "security"
  | performance => "performance"
  | quality => "quality"
  | syntactic => "syntax"
  | style => "style"
  | maintainability => "maintainability"
  | compatibility => "compatibility"

/-- The subject that a word stands for. -/
def ofName? (word : String) : Option Category :=
  all.find? fun c => c.name == word

/-- All words in one line. -/
def names : String :=
  ", ".intercalate (all.map name)

end Category

end PhpAudit
