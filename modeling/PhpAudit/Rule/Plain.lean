/-
Rules about quality: they report whatever they see, with the place and the severity of their
profile.
-/

import PhpAudit.Rule.Draft

set_option autoImplicit false

namespace PhpAudit.Rule

/-- The findings of several drafts at one node. -/
def Profile.findings (p : Profile) (drafts : List Draft) (n : Node) (site : Site) :
    Except Fault (List Finding) :=
  drafts.mapM fun d => (p.finding d n site).mapError .finding

/-- What an inspection says about a node. -/
abbrev Remarks := Dict → Node → Site → Except Misuse (List Draft)

/-- A rule from its profile, its settings and its inspection. -/
def plain (p : Profile) (defaults : Dict) (ownProblems : Dict → List Problem) (inspect : Remarks) :
    Rule :=
  { profile := p
    defaults
    ownProblems
    check := fun settings n site => do
      let drafts ← (inspect settings n site).mapError .misuse
      p.findings drafts n site }

/-- The whole number that a setting holds. -/
def limit (settings : Dict) (key : String) (default : Int) : Int :=
  ((setting settings key (.int default)).int?).getD default

/-- Whether a value is a whole number of at least a minimum; truth values do not count. -/
def isAtLeast (minimum : Int) : Value → Bool
  | .int n => decide (minimum ≤ n)
  | _ => false

/-- A setting that bounds a count must be a whole number of at least a minimum. -/
def limitProblems (key : String) (minimum : Int) (settings : Dict) : List Problem :=
  problemIf settings key (fun v => !isAtLeast minimum v) s!"{key} must be an integer >= {minimum}"

end PhpAudit.Rule
