/-
Scoring the risk of a vulnerability.

The weights of how it is attacked and of what is lost are added, scaled, and capped at ten.  The
priority orders findings: it grows with the score, with exploits in use and with easy fixes.
-/

import PhpAudit.Risk.Factors
import PhpAudit.Value.Arithmetic
import PhpAudit.Value.Order

set_option autoImplicit false

namespace PhpAudit.Risk

/-- The score from zero to ten, with one decimal place. -/
def score (f : Factors) : Except Misuse Float := do
  let vector ← Vector.ofValue f.vector
  let complexity ← Complexity.ofValue f.complexity
  let privileges ← Privileges.ofValue f.privileges
  let interaction ← Interaction.ofValue f.interaction
  let confidentiality ← Impact.ofValue .high f.confidentiality
  let integrity ← Impact.ofValue .high f.integrity
  let availability ← Impact.ofValue .low f.availability
  let base := vector.weight + complexity.weight + privileges.weight + interaction.weight
  let impact := confidentiality.weight + integrity.weight + availability.weight
  let rounded := Decimal.halfUp ((base + impact) * 2.5) 1
  return if rounded < 10.0 then rounded else 10.0

/-- The bands of scores with their lower bounds, the highest first. -/
def bands : List (Float × String) :=
  [(9.0, "critical"), (7.0, "high"), (4.0, "medium"), (0.1, "low")]

/-- The first of some bands that a score reaches. -/
def bandAmong (score : Value) : List (Float × String) → Except Misuse String
  | [] => .ok "info"
  | (bound, name) :: rest => do
    if ← score.atLeast (.float bound) then return name else bandAmong score rest

/-- The band of a score. -/
def severityOf (score : Value) : Except Misuse String :=
  bandAmong score bands

/-- What being attacked already adds to the priority, step by step. -/
def bonuses (f : Factors) : List Int :=
  (if f.exploitable.truthy then [20] else []) ++ (if f.knownExploits.truthy then [30] else []) ++
    (if f.reachable.truthy then [15] else [])

/-- The priority of a score and its factors. -/
def priority (score : Value) (f : Factors) : Except Misuse Int := do
  let start ← score.times 10
  let attacked ← (bonuses f).foldlM (fun p n => p.plusInPlace (.int n)) start
  let effort ← Effort.ofValue f.effort
  let whole ← attacked.plusInPlace (.nat effort.bonus)
  Value.wholePart (whole.number?.getD (.int 0))

/-- Score, band and priority of one finding. -/
structure Assessment where
  score : Float
  severity : String
  priority : Int

/-- The assessment as a dictionary. -/
def Assessment.toDict (a : Assessment) : Dict :=
  [("score", .float a.score), ("severity", .str a.severity), ("priority", .int a.priority)]

/-- The assessment of some factors. -/
def assess (f : Factors) : Except Misuse Assessment := do
  let s ← score f
  let severity ← severityOf (.float s)
  return { score := s, severity, priority := ← priority (.float s) f }

/-- The factors of a kind of vulnerability; those of an unknown kind are the general ones. -/
def factorsOf (known : Assoc Key Factors) (kind : Key) : Factors :=
  Assoc.getD known kind {}

/-- Items under keys, the highest key first, ties as they stand. -/
def sortByPriority {α : Type} (items : List (Value × α)) : Except Misuse (List α) := do
  let keyed ← items.mapM fun e => return (← e.1.negated, e.2)
  let less (a b : Number × α) : Except Misuse Bool := .ok (a.1.lt b.1)
  return (← Sorting.sorted less keyed).map Prod.snd

/-- The percentage of confidences below nine tenths. -/
def falsePositiveRate (confidences : Value) : Except Misuse Float := do
  let cs ← confidences.itemsOrEmpty
  let doubtful ← cs.filterM fun c => c.less (.float 0.9)
  if cs.isEmpty then return 0.0
  return Decimal.round (doubtful.length.toFloat / cs.length.toFloat * 100.0) 2

/-- The percentage of registered checks that ran. -/
def coverage (executed registered : Value) : Except Misuse Float := do
  if ← registered.atMost (.int 0) then return 0.0
  return Decimal.round ((← executed.dividedBy registered) * 100.0) 2

end PhpAudit.Risk
