/-
**Tallies add up.**

Two routines write the counts of rules: one records a run, the other adds a whole tally.  They agree
because an addition to a counter that is there commutes with all others, and a new counter goes last
in both.

Main definitions:

* `Rule.Tally.Balanced` — the totals of a tally are those of its maps and its list of failures;
* `RuleBook.Question`, `RuleBook.Sweep.inspect` — questions to a book that count into one tally.

Main results:

* `Rule.Tally.merge_record` — **a run may be recorded before or after tallies are added**;
* `Rule.Tally.Balanced.record`, `RuleBook.Sweep.Settled.inspect` — what a step keeps;
* `RuleBook.tallies_add_up` — the same for whole sequences.
-/

import Mathlib
import PhpAudit.Proofs.Assoc
import PhpAudit.Rule.Sweep

set_option autoImplicit false

namespace PhpAudit

namespace Assoc

variable {κ : Type} [BEq κ]

theorem bump_cons (e : κ × Nat) (m : Assoc κ Nat) (k : κ) (n : Nat) :
    bump (e :: m) k n = if e.1 == k then (e.1, e.2 + n) :: m else e :: bump m k n := by
  simp only [bump, put, getD, get?]
  split <;> rfl

theorem sum_values_bump (m : Assoc κ Nat) (k : κ) (n : Nat) :
    (values (bump m k n)).sum = (values m).sum + n := by
  induction m with
  | nil => simp [bump, put, getD, get?, values]
  | cons e m ih =>
      simp only [values] at ih
      rw [bump_cons]
      split <;> simp only [values, List.map_cons, List.sum_cons, ih] <;> omega

theorem bump_bump [ReflBEq κ] (m : Assoc κ Nat) (k : κ) (n n' : Nat) :
    bump (bump m k n) k n' = bump m k (n + n') := by
  induction m with
  | nil => simp [bump, put, getD, get?]
  | cons e m ih =>
      by_cases hk : e.1 == k
      · simp [bump_cons, hk, Nat.add_assoc]
      · simp [bump_cons, hk, ih]

/-- An addition to a counter that is there may come before another one. -/
theorem bump_comm {m : Assoc κ Nat} {k : κ} (h : (get? m k).isSome) (j : κ) (n n' : Nat) :
    bump (bump m j n') k n = bump (bump m k n) j n' := by
  induction m with
  | nil => cases h
  | cons e m ih =>
      by_cases hj : e.1 == j <;> by_cases hk : e.1 == k
      · simp [bump_cons, hj, hk, Nat.add_right_comm]
      · simp [bump_cons, hj, hk]
      · simp [bump_cons, hj, hk]
      · have hrest : (get? m k).isSome := by simpa [get?, hk] using h
        simp [bump_cons, hj, hk, ih hrest]

end Assoc

namespace Rule.Tally

open Assoc (bump)

/-- What is added to a counter that is there may be added before a whole map. -/
theorem addCounts_bump_left {m : Assoc String Nat} {k : String} (h : (Assoc.get? m k).isSome)
    (n : Nat) (new : Assoc String Nat) :
    addCounts (bump m k n) new = bump (addCounts m new) k n := by
  induction new generalizing m with
  | nil => rfl
  | cons e new ih =>
      have hthere : (Assoc.get? (bump m e.1 e.2) k).isSome := by
        rw [bump, Assoc.get?_put]
        split
        · rfl
        · exact h
      exact (congrArg (addCounts · new) (Assoc.bump_comm h _ _ _).symm).trans (ih hthere)

/-- A counter may be raised before or after its map is added to another. -/
theorem addCounts_bump (m new : Assoc String Nat) (k : String) (n : Nat) :
    addCounts m (bump new k n) = bump (addCounts m new) k n := by
  induction new generalizing m with
  | nil => simp [addCounts, bump, Assoc.put, Assoc.getD, Assoc.get?]
  | cons e new ih =>
      rw [Assoc.bump_cons]
      split
      · -- the counter is there from here on, so its second addition may wait
        rename_i hk
        obtain rfl := eq_of_beq hk
        have hthere : (Assoc.get? (bump m e.1 e.2) e.1).isSome := by simp [bump, Assoc.get?_put]
        exact (congrArg (addCounts · new) (Assoc.bump_bump m e.1 e.2 n).symm).trans
          (addCounts_bump_left hthere n new)
      · exact ih _

theorem merge_countFinding (t u : Tally) (f : Finding) :
    t.merge (u.countFinding f) = (t.merge u).countFinding f := by
  simp only [merge, countFinding, addCounts_bump, Nat.add_assoc]

/-- **A run may be recorded before or after tallies are added.** -/
theorem merge_record (t u : Tally) (r : Run) : t.merge (u.record r) = (t.merge u).record r := by
  unfold record
  rw [← List.foldl_hom t.merge fun u f => (merge_countFinding t u f).symm]
  congr 1
  split <;> simp only [merge, addCounts_bump, Nat.add_assoc, List.append_assoc]

theorem merge_empty (t : Tally) : t.merge {} = t := by
  simp [merge, addCounts]

theorem merge_foldl_record (t u : Tally) (rs : List Run) :
    t.merge (rs.foldl record u) = rs.foldl record (t.merge u) :=
  (List.foldl_hom t.merge fun u r => (merge_record t u r).symm).symm

/-- The totals of a tally are those of its maps and its list of failures. -/
structure Balanced (t : Tally) : Prop where
  executed : t.executed = (Assoc.values t.byRule).sum
  found : t.found = (Assoc.values t.bySeverity).sum
  failed : t.failed = t.failures.length

variable {t : Tally}

theorem Balanced.foldl_countFinding (h : t.Balanced) (fs : List Finding) :
    (fs.foldl countFinding t).Balanced ∧ (fs.foldl countFinding t).found = t.found + fs.length := by
  induction fs generalizing t with
  | nil => exact ⟨h, rfl⟩
  | cons f fs ih =>
      have hone : (t.countFinding f).Balanced :=
        ⟨h.executed, by simp only [countFinding, Assoc.sum_values_bump, h.found], h.failed⟩
      obtain ⟨hall, hfound⟩ := ih hone
      exact ⟨hall, hfound.trans (Nat.add_right_comm t.found 1 fs.length)⟩

/-- A run keeps the balance and adds its findings. -/
theorem Balanced.record (h : t.Balanced) (r : Run) :
    (t.record r).Balanced ∧ (t.record r).found = t.found + r.findings.length := by
  have hran : t.executed + 1 = (Assoc.values (bump t.byRule r.id 1)).sum := by
    rw [Assoc.sum_values_bump, h.executed]
  unfold Tally.record
  split
  · refine Balanced.foldl_countFinding ?_ r.findings
    exact ⟨hran, h.found, by simp [h.failed]⟩
  · refine Balanced.foldl_countFinding ?_ r.findings
    exact ⟨hran, h.found, h.failed⟩

theorem Balanced.foldl_record (h : t.Balanced) (rs : List Run) :
    (rs.foldl Tally.record t).Balanced ∧
      (rs.foldl Tally.record t).found = t.found + (rs.flatMap Run.findings).length := by
  induction rs generalizing t with
  | nil => exact ⟨h, rfl⟩
  | cons r rs ih =>
      obtain ⟨hone, hadded⟩ := h.record r
      obtain ⟨hall, hfound⟩ := ih hone
      refine ⟨hall, ?_⟩
      rw [List.foldl_cons, hfound, hadded, List.flatMap_cons, List.length_append, Nat.add_assoc]

end Rule.Tally

namespace RuleBook

/-- A question about a node, and what becomes of the book before it is put. -/
structure Question where
  change : RuleBook → RuleBook := id
  node : Node
  site : Rule.Site

namespace Sweep

/-- One more question, counted with those before. -/
def inspect (s : Sweep) (q : Question) : Sweep :=
  let (found, tally, book) := (q.change s.book).inspect q.node q.site s.tally
  { book, findings := s.findings ++ found, tally }

/-- The tally is balanced and counts what was found. -/
structure Settled (s : Sweep) : Prop where
  balanced : s.tally.Balanced
  found : s.tally.found = s.findings.length

theorem Settled.inspect {s : Sweep} (h : s.Settled) (q : Question) : (s.inspect q).Settled := by
  obtain ⟨hbalanced, hfound⟩ :=
    h.balanced.foldl_record ((q.change s.book).runs q.node q.site).1
  refine ⟨hbalanced, hfound.trans ?_⟩
  rw [h.found]
  exact List.length_append.symm

end Sweep

/-- **Tallies add up**: those of two sequences of runs to that of both together, and the totals of a
sequence of questions to what was counted and returned. -/
theorem tallies_add_up :
    (∀ xs ys : List Rule.Run,
      (xs.foldl Rule.Tally.record {}).merge (ys.foldl Rule.Tally.record {}) =
        (xs ++ ys).foldl Rule.Tally.record {}) ∧
    ∀ (b : RuleBook) (qs : List Question), (qs.foldl Sweep.inspect { book := b }).Settled := by
  constructor
  · intro xs ys
    rw [Rule.Tally.merge_foldl_record, Rule.Tally.merge_empty, List.foldl_append]
  · intro b qs
    exact List.foldlRecOn qs Sweep.inspect ⟨⟨rfl, rfl, rfl⟩, rfl⟩ fun s h q _ => h.inspect q

end RuleBook

end PhpAudit
