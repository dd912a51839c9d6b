/-
Evidence for a finding.

A security rule adds up what speaks for a finding.  Each factor brings a weight and maybe a
sentence; the confidence is the sum of the weights, rounded to six places and never above one.
-/

import PhpAudit.Text.Blank
import PhpAudit.Value.Basic

set_option autoImplicit false

namespace PhpAudit

/-- What speaks for a finding. -/
structure Evidence where
  factors : List Value := []
  confidence : Float := 0.0
  description : String := ""
  deriving Inhabited

namespace Evidence

/-- Whether anything speaks for a finding. -/
def hasRisk (e : Evidence) : Bool :=
  !e.factors.isEmpty

/-- A confidence of at most one. -/
def capped (x : Float) : Float :=
  if x < 1.0 then x else 1.0

/-- One more factor with its weight; a factor is named once, however often it is added. -/
def add (e : Evidence) (factor : Value) (weight : Float) (text : String := "") : Evidence :=
  { factors := if e.factors.any (Value.eqv factor) then e.factors else e.factors ++ [factor]
    confidence := capped (Decimal.round (e.confidence + weight) 6)
    description :=
      if text == "" then e.description else Text.trim (e.description ++ " " ++ text) }

end Evidence

end PhpAudit
