/-
**What the figures of a report and of a batch say.**

The quality of a file is announced as a hundred less the penalties: twenty for a critical finding,
ten for a high one, five for a medium one, one for a low one, thirty if the file has parse errors
and fifteen if there is a finding about security, all within zero and a hundred.  That is what the
score is as soon as there is a finding.  A file without findings scores a hundred without a look at
its parse errors: if the analyzer that turns parse errors into findings is switched off, a file that
cannot be parsed scores as a clean one.

A batch is counted in several ways: whether it passes is asked file by file and finding by finding,
its findings are counted by severity, by category and by file, and its files by how they ended.
These counts agree, whatever files there are.

Main definitions:

* `Report.deduction`, `Report.announcedScore` — the penalties by numbers of findings, and what they
  leave;
* `Batch.counted` — the counts that a summary holds.

Main results:

* `Report.qualityScore_of_ne_nil` — with a finding the score is the announced one;
* `Report.deduction_mono` — more findings and parse errors cost no less;
* `Report.quality_law` — **what the score is, and when it is the announced one**;
* `Report.faulty_file_scores_full` — a file with a parse error that scores a hundred;
* `sum_counts` — findings counted by one of their parts add up;
* `Batch.passes_agrees_with_counts` — **a batch passes just if its counts say so**, and its counts
  agree.
-/

import Mathlib
import PhpAudit.Proofs.Assoc
import PhpAudit.Proofs.Except
import PhpAudit.Report.Batch

set_option autoImplicit false

namespace PhpAudit

namespace Report

/-! ### The announced score -/

/-- How many findings of a severity there are. -/
def number (r : Report) (s : Severity) : Nat :=
  r.findings.countP fun f => f.severity == s

/-- All penalties of a file. -/
def deduction (r : Report) : Nat :=
  20 * r.number .critical + 10 * r.number .high + 5 * r.number .medium + r.number .low +
    (if r.parseErrors = [] then 0 else 30) +
    (if ∃ f ∈ r.findings, f.category = .security then 15 else 0)

/-- A hundred less the penalties, within zero and a hundred. -/
def announcedScore (r : Report) : Int :=
  max 0 (min 100 (100 - (r.deduction : Int)))

/-- The penalties of the findings one by one add up to those by number. -/
theorem foldr_penalty (findings : List Finding) :
    (findings.map fun f => penalty f.severity).foldr (· + ·) 0 =
      20 * findings.countP (fun f => f.severity == .critical) +
        10 * findings.countP (fun f => f.severity == .high) +
        5 * findings.countP (fun f => f.severity == .medium) +
        findings.countP (fun f => f.severity == .low) := by
  induction findings with
  | nil => rfl
  | cons f findings ih =>
      simp only [List.map_cons, List.foldr_cons, List.countP_cons, ih]
      cases f.severity <;> simp [penalty] <;> omega

theorem hasSecurityFindings_iff {r : Report} :
    r.hasSecurityFindings = true ↔ ∃ f ∈ r.findings, f.category = .security := by
  simp [hasSecurityFindings]

/-- The announced score as the difference that stops at zero. -/
theorem announcedScore_eq (r : Report) : r.announcedScore = ((100 - r.deduction : Nat) : Int) := by
  rw [announcedScore]
  omega

/-- With a finding the score is the announced one: it is kept from going below zero after every
step, which leaves the same in the end. -/
theorem qualityScore_of_ne_nil {r : Report} (hdone : r.failed = false) (hne : r.findings ≠ []) :
    r.qualityScore = 100 - r.deduction := by
  have hsome : ¬ r.findings.isEmpty = true := by simpa using hne
  rw [qualityScore, hdone, if_neg hsome, foldr_penalty]
  simp only [deduction, number, parseErrorPenalty, securityPenalty, List.isEmpty_iff,
    hasSecurityFindings_iff, Bool.false_eq_true, if_false]
  split <;> split <;> omega

theorem qualityScore_of_nil {r : Report} (hdone : r.failed = false) (hnil : r.findings = []) :
    r.qualityScore = 100 := by
  simp [qualityScore, hdone, hnil]

theorem deduction_of_nil {r : Report} (hnil : r.findings = []) :
    r.deduction = if r.parseErrors = [] then 0 else 30 := by
  simp [deduction, number, hnil]

/-! ### More findings and parse errors -/

/-- More findings and parse errors cost no less. -/
theorem deduction_mono {r r' : Report} (hfindings : r.findings.Subperm r'.findings)
    (herrors : r.parseErrors.Subperm r'.parseErrors) : r.deduction ≤ r'.deduction := by
  have hnumber : ∀ s, r.number s ≤ r'.number s := fun s => hfindings.countP_le _
  have hparse : (if r.parseErrors = [] then 0 else 30) ≤ if r'.parseErrors = [] then 0 else 30 := by
    by_cases hnil : r'.parseErrors = []
    · have : r.parseErrors = [] := List.subperm_nil.1 (hnil ▸ herrors)
      simp [hnil, this]
    · rw [if_neg hnil]
      split <;> omega
  have hsecurity : (if ∃ f ∈ r.findings, f.category = .security then 15 else 0) ≤
      if ∃ f ∈ r'.findings, f.category = .security then 15 else 0 := by
    by_cases hsome : ∃ f ∈ r.findings, f.category = .security
    · have hsome' := hsome.imp fun f hf => And.intro (hfindings.subset hf.1) hf.2
      exact Nat.le_of_eq ((if_pos hsome).trans (if_pos hsome').symm)
    · rw [if_neg hsome]
      exact Nat.zero_le _
  have hcritical := hnumber .critical
  have hhigh := hnumber .high
  have hmedium := hnumber .medium
  have hlow := hnumber .low
  unfold deduction
  omega

/-- **What the score is, and when it is the announced one.**  For a file that was analyzed: without
findings it is a hundred, otherwise it is the announced score; the two differ exactly for files
with parse errors and no finding.  A file with parse errors and a finding scores seventy at most,
and no finding and no parse error, wherever they are added, raises the score. -/
theorem quality_law (r : Report) (hdone : r.failed = false) :
    (r.findings = [] → r.qualityScore = 100) ∧
    (r.findings ≠ [] → (r.qualityScore : Int) = r.announcedScore) ∧
    ((r.qualityScore : Int) = r.announcedScore ↔ (r.findings = [] → r.parseErrors = [])) ∧
    (r.findings ≠ [] → r.parseErrors ≠ [] → r.qualityScore ≤ 70) ∧
    ∀ r' : Report, r'.failed = false → r.findings.Subperm r'.findings →
      r.parseErrors.Subperm r'.parseErrors → r'.qualityScore ≤ r.qualityScore := by
  refine ⟨qualityScore_of_nil hdone, ?_, ?_, ?_, ?_⟩
  · intro hne
    rw [announcedScore_eq, qualityScore_of_ne_nil hdone hne]
  · rw [announcedScore_eq]
    by_cases hnil : r.findings = []
    · rw [qualityScore_of_nil hdone hnil, deduction_of_nil hnil]
      by_cases herrors : r.parseErrors = [] <;> simp [hnil, herrors]
    · simp [hnil, qualityScore_of_ne_nil hdone hnil]
  · intro hne herrors
    have hthirty : 30 ≤ r.deduction := by
      rw [deduction, if_neg herrors]
      omega
    rw [qualityScore_of_ne_nil hdone hne]
    omega
  · intro r' hdone' hfindings herrors
    by_cases hnil : r.findings = []
    · rw [qualityScore_of_nil hdone hnil]
      by_cases hnil' : r'.findings = []
      · exact Nat.le_of_eq (qualityScore_of_nil hdone' hnil')
      · rw [qualityScore_of_ne_nil hdone' hnil']
        omega
    · have hne' : r'.findings ≠ [] := fun hnil' => hnil (List.subperm_nil.1 (hnil' ▸ hfindings))
      have hmore := deduction_mono hfindings herrors
      rw [qualityScore_of_ne_nil hdone hnil, qualityScore_of_ne_nil hdone' hne']
      omega

/-- A file with a parse error and the given findings. -/
def faulty (findings : List Finding) : Report :=
  { path := .str "src/app.php", findings
    parseErrors := [.dict [("message", .str "unexpected token"), ("line", .int 3)]] }

/-- A medium finding about security. -/
def leak : Finding :=
  { title := .str "Leak", description := .str "", severity := .medium, category := .security }

/-- With a medium finding about security and a parse error fifty are left, and no finding that is
added brings the score above that. -/
theorem leaking_file_scores_fifty :
    (faulty [leak]).failed = false ∧ (faulty [leak]).qualityScore = 50 ∧
    ((faulty [leak]).qualityScore : Int) = (faulty [leak]).announcedScore ∧
    ∀ f, (faulty [leak, f]).qualityScore ≤ 50 := by
  have hscore : (faulty [leak]).qualityScore = 50 := rfl
  obtain ⟨_, hlaw, _, _, hmono⟩ := quality_law (faulty [leak]) rfl
  refine ⟨rfl, hscore, hlaw (by simp [faulty]), fun f => ?_⟩
  rw [← hscore]
  refine hmono _ rfl ?_ (List.Subperm.refl _)
  exact List.Sublist.subperm (List.sublist_append_left [leak] [f])

/-- **A file with a parse error and no finding scores a hundred**, where seventy are announced. -/
theorem faulty_file_scores_full :
    (faulty []).failed = false ∧ (faulty []).parseErrors ≠ [] ∧ (faulty []).qualityScore = 100 ∧
    (faulty []).announcedScore = 70 := by
  refine ⟨rfl, by simp [faulty], rfl, ?_⟩
  rw [announcedScore_eq, deduction_of_nil rfl, if_neg (by simp [faulty])]
  rfl

end Report

/-! ### Counts of a batch -/

theorem Severity.mem_all (s : Severity) : s ∈ all := by
  cases s <;> decide

theorem Category.mem_all (c : Category) : c ∈ all := by
  cases c <;> decide

theorem Severity.priorityOf_name (s : Severity) : priorityOf s.name = s.priority := by
  cases s <;> rfl

/-- Findings that are counted by one of their parts, every value of it listed once, add up. -/
theorem sum_counts {κ : Type} [DecidableEq κ] (all : List κ) (hnodup : all.Nodup)
    (hall : ∀ k, k ∈ all) (part : Finding → κ) (findings : List Finding) :
    (all.map fun k => (findings.filter fun f => part f == k).length).sum = findings.length := by
  have hcount : ∀ k,
      (findings.filter fun f => part f == k).length = (findings.map part).count k := by
    intro k
    rw [← List.countP_eq_length_filter, List.count_eq_countP, List.countP_map]
    rfl
  -- as a bag, the parts are counted over all values; the order of the findings does not matter
  calc (all.map fun k => (findings.filter fun f => part f == k).length).sum
      = (all.map fun k => (findings.map part : Multiset κ).count k).sum := by
        simp only [hcount, Multiset.coe_count]
    _ = ∑ k ∈ all.toFinset, (findings.map part : Multiset κ).count k :=
        (List.sum_toFinset _ hnodup).symm
    _ = (findings.map part : Multiset κ).card :=
        Multiset.sum_count_eq_card fun k _ => List.mem_toFinset.2 (hall k)
    _ = findings.length := by simp

theorem get?_countBySeverity (findings : List Finding) (s : Severity) :
    Assoc.get? (countBySeverity findings) s.name =
      some (findings.countP fun f => f.severity == s) := by
  rw [countBySeverity, Assoc.get?_map_of_mem (by decide) _ s.mem_all, List.countP_eq_length_filter]

theorem get?_countByCategory (findings : List Finding) (c : Category) :
    Assoc.get? (countByCategory findings) c.name =
      some (findings.countP fun f => f.category == c) := by
  rw [countByCategory, Assoc.get?_map_of_mem (by decide) _ c.mem_all, List.countP_eq_length_filter]

namespace Batch

/-- What is counted over a batch is what is counted over its files. -/
theorem countP_findings (b : Batch) (p : Finding → Bool) :
    (b.list.flatMap Report.findings).countP p =
      (b.list.map fun r => r.findings.countP p).sum := by
  rw [List.countP_flatMap]
  rfl

theorem findingCount_eq (b : Batch) :
    b.findingCount = (b.list.flatMap Report.findings).length := by
  rw [List.length_flatMap]
  rfl

theorem passes_iff (b : Batch) (t : Severity) :
    b.passes t.name = true ↔
      ∀ f ∈ b.list.flatMap Report.findings, f.severity.priority < t.priority := by
  simp only [passes, Report.exceeds, Finding.meets, t.priorityOf_name, List.forall_mem_flatMap]
  simp

/-- The counts that a summary of a batch holds. -/
def counted (b : Batch) : Dict :=
  [("total_files", .nat b.reports.length), ("successful_files", .nat b.successful.length),
   ("failed_files", .nat b.failures.length), ("total_issues", .nat b.findingCount),
   ("severity_distribution", .ofCounts b.severityCounts),
   ("issue_distribution", .ofCounts b.categoryCounts)]

/-- **A batch passes just if its counts say so.**  It passes at a severity exactly if no finding of
that severity or a graver one is counted, and so it passes at every graver one too.  Counted by
severity, by category or by file, there are as many findings, and the counts by severity and by
category are those of the files added up; files that were analyzed and files that failed are all
files.  A summary holds these counts. -/
theorem passes_agrees_with_counts (b : Batch) :
    (∀ t : Severity, b.passes t.name = true ↔
      ∀ s : Severity, t.priority ≤ s.priority → Assoc.get? b.severityCounts s.name = some 0) ∧
    (∀ t t' : Severity, t.priority < t'.priority → b.passes t.name = true →
      b.passes t'.name = true) ∧
    b.findingCount = (Assoc.values b.severityCounts).sum ∧
    b.findingCount = (Assoc.values b.categoryCounts).sum ∧
    b.findingCount = (b.list.map fun r => r.findings.length).sum ∧
    (∀ s : Severity, Assoc.get? b.severityCounts s.name =
      some (b.list.map fun r => Assoc.getD (countBySeverity r.findings) s.name 0).sum) ∧
    (∀ c : Category, Assoc.get? b.categoryCounts c.name =
      some (b.list.map fun r => Assoc.getD (countByCategory r.findings) c.name 0).sum) ∧
    b.successful.length + b.failures.length = b.reports.length ∧
    ∀ d, b.summary = .ok d → ∀ e ∈ b.counted, Assoc.get? d e.1 = some e.2 := by
  refine ⟨?_, ?_, ?_, ?_, rfl, ?_, ?_, ?_, ?_⟩
  · intro t
    rw [passes_iff]
    simp only [severityCounts, get?_countBySeverity, Option.some.injEq, List.countP_eq_zero]
    constructor
    · intro h s hs f hf hsame
      have hlow := h f hf
      rw [eq_of_beq hsame] at hlow
      omega
    · intro h f hf
      by_contra hhigh
      exact h f.severity (Nat.le_of_not_lt hhigh) f hf (beq_self_eq_true _)
  · intro t t' hgraver hpass
    rw [passes_iff] at hpass ⊢
    exact fun f hf => (hpass f hf).trans hgraver
  · rw [findingCount_eq, ← sum_counts Severity.all (by decide) Severity.mem_all Finding.severity]
    rfl
  · rw [findingCount_eq, ← sum_counts Category.all (by decide) Category.mem_all Finding.category]
    rfl
  · intro s
    simp only [severityCounts, Assoc.getD, get?_countBySeverity, Option.getD_some, countP_findings]
  · intro c
    simp only [categoryCounts, Assoc.getD, get?_countByCategory, Option.getD_some, countP_findings]
  · have hfiles := List.length_eq_countP_add_countP (l := b.list) Report.failed
    have hall : b.list.length = b.reports.length := List.length_map ..
    rw [successful, failures, ← List.countP_eq_length_filter, ← List.countP_eq_length_filter]
    simp only [Bool.not_eq_true, Bool.decide_eq_false] at hfiles
    omega
  · intro d hd
    obtain ⟨total, -, hd⟩ := of_bind_eq_ok hd
    obtain ⟨average, -, hd⟩ := of_bind_eq_ok hd
    cases hd
    simp only [counted, List.forall_mem_cons]
    exact ⟨rfl, rfl, rfl, rfl, rfl, rfl, List.forall_mem_nil _⟩

/-- A batch of a file with a parse error, one with a medium finding, and one that failed. -/
def mixed : Batch :=
  { reports := [(.str "a.php", Report.faulty []), (.str "b.php", Report.faulty [Report.leak]),
      (.str "c.php", Report.failure "c.php" "timeout" "failed" (.float 1.0))] }

/-- It passes at high, so there is no finding of that severity and it passes at critical as well; it
does not pass at medium. -/
theorem mixed_passes_at_high :
    mixed.passes "high" = true ∧ Assoc.get? mixed.severityCounts "high" = some 0 ∧
      mixed.passes "critical" = true ∧ mixed.passes "medium" = false ∧
      mixed.findingCount = 1 ∧ mixed.failures.length = 1 := by
  obtain ⟨hcounts, hgraver, -⟩ := passes_agrees_with_counts mixed
  have hhigh : mixed.passes "high" = true := by decide
  exact ⟨hhigh, (hcounts .high).1 hhigh .high (Nat.le_refl _),
    hgraver .high .critical (by decide) hhigh, by decide, by decide, by decide⟩

end Batch

end PhpAudit
