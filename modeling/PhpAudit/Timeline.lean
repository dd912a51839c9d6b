/-
Moments and durations.

What a run does depends on its clock in three ways only: durations are added to a moment, the time
between two moments is taken, and durations are compared.  The operations are kept apart from the
numbers that carry them; a run counts seconds in doubles.
-/

set_option autoImplicit false

namespace PhpAudit

/-- Numbers that measure time. -/
class Timeline (τ : Type) where
  zero : τ
  add : τ → τ → τ
  /-- The time from the second moment to the first. -/
  since : τ → τ → τ
  /-- Whether the first duration is longer than the second. -/
  exceeds : τ → τ → Bool

instance : Timeline Float where
  zero := 0.0
  add a b := a + b
  since later earlier := later - earlier
  exceeds a b := decide (b < a)

end PhpAudit
