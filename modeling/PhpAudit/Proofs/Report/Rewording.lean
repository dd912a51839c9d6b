/-
**The figures of a batch do not depend on its words.**

Two batches whose findings agree in severity, category and weaknesses, file by file and in order,
may have other titles, descriptions, suggestions, snippets, paths and reasons of failure.  All
figures about them are the same, and their files are ranked in the same order.

Main definitions:

* `Finding.Reworded`, `Report.Reworded`, `Batch.Reworded` — the same but for the words.

Main results:

* `Report.Reworded.qualityScore_eq` — the figure of a file;
* `Batch.Reworded.ascending` — the order of the files;
* `Batch.Reworded.summary_eq` — **the figures of a batch**.
-/

import Mathlib.Data.List.Forall2
import PhpAudit.Report.Batch

set_option autoImplicit false

namespace PhpAudit

/-! ### Related lists -/

section Related

variable {α β γ : Type} {R : α → β → Prop} {as : List α} {bs : List β}

theorem map_eq_of_forall₂ {f : α → γ} {g : β → γ} (h : List.Forall₂ R as bs)
    (hfg : ∀ a b, R a b → f a = g b) : as.map f = bs.map g := by
  have := List.rel_map (R := R) (P := Eq) (fun a b => hfg a b) h
  rwa [List.forall₂_eq_eq_eq] at this

theorem isEmpty_eq_of_length_eq (h : as.length = bs.length) : as.isEmpty = bs.isEmpty := by
  cases as <;> cases bs <;> simp_all

/-- Sorting by keys that agree keeps lists related. -/
theorem forall₂_mergeSort {le : α → α → Bool} {le' : β → β → Bool}
    (hle : ∀ a b, R a b → ∀ a' b', R a' b' → le a a' = le' b b') (h : List.Forall₂ R as bs) :
    List.Forall₂ R (as.mergeSort le) (bs.mergeSort le') := by
  -- sort the pairs and look at both sides of them
  obtain ⟨hlength, hpair⟩ := List.forall₂_iff_zip.1 h
  have hleft : ((as.zip bs).mergeSort fun p q => le p.1 q.1).map Prod.fst = as.mergeSort le := by
    rw [List.map_mergeSort (f := Prod.fst) (s := le) fun _ _ _ _ => rfl,
      List.map_fst_zip (Nat.le_of_eq hlength)]
  have hright : ((as.zip bs).mergeSort fun p q => le p.1 q.1).map Prod.snd =
      bs.mergeSort le' := by
    rw [List.map_mergeSort fun p hp q hq => hle _ _ (hpair hp) _ _ (hpair hq),
      List.map_snd_zip (Nat.le_of_eq hlength.symm)]
  rw [← hleft, ← hright, List.forall₂_map_left_iff, List.forall₂_map_right_iff, List.forall₂_same]
  intro p hp
  exact hpair (List.mem_mergeSort.1 hp)

end Related

/-! ### Findings and reports -/

/-- Findings that differ in their words at most: what decides how they are counted and grouped is
the same. -/
structure Finding.Reworded (f g : Finding) : Prop where
  severity : f.severity = g.severity
  category : f.category = g.category
  owaspCategory : f.owaspCategory = g.owaspCategory
  cweIds : f.cweIds = g.cweIds
  suggestions : f.suggestions.length = g.suggestions.length
  codeSnippet : f.codeSnippet.truthy = g.codeSnippet.truthy

/-- Reports that differ in their words at most. -/
structure Report.Reworded (r s : Report) : Prop where
  findings : List.Forall₂ Finding.Reworded r.findings s.findings
  failed : r.failed = s.failed
  isPartial : r.isPartial.truthy = s.isPartial.truthy
  parseErrors : r.parseErrors.length = s.parseErrors.length
  time : r.time = s.time

namespace Report.Reworded

variable {r s : Report}

theorem securityFindings (h : r.Reworded s) :
    List.Forall₂ Finding.Reworded r.securityFindings s.securityFindings := by
  refine List.rel_filter ?_ h.findings
  intro f g hfg
  simp [hfg.category]

theorem hasSecurityFindings_eq (h : r.Reworded s) :
    r.hasSecurityFindings = s.hasSecurityFindings := by
  have hmap : r.findings.map Finding.category = s.findings.map Finding.category :=
    map_eq_of_forall₂ h.findings fun f g hfg => hfg.category
  have hany : ∀ t : Report, t.hasSecurityFindings =
      (t.findings.map Finding.category).any (· == .security) := by
    intro t
    rw [List.any_map]
    rfl
  rw [hany, hany, hmap]

theorem qualityScore_eq (h : r.Reworded s) : r.qualityScore = s.qualityScore := by
  have hfindings : r.findings.isEmpty = s.findings.isEmpty :=
    isEmpty_eq_of_length_eq h.findings.length_eq
  have herrors : r.parseErrors.isEmpty = s.parseErrors.isEmpty :=
    isEmpty_eq_of_length_eq h.parseErrors
  have hpenalties : (r.findings.map fun f => penalty f.severity) =
      s.findings.map fun f => penalty f.severity :=
    map_eq_of_forall₂ h.findings fun f g hfg => by rw [hfg.severity]
  simp only [qualityScore, h.failed, hfindings, herrors, hpenalties, h.hasSecurityFindings_eq]

end Report.Reworded

/-! ### Batches -/

/-- Batches that differ in their words at most. -/
def Batch.Reworded (b c : Batch) : Prop :=
  List.Forall₂ Report.Reworded b.list c.list

namespace Batch.Reworded

variable {b c : Batch}

theorem length_eq (h : b.Reworded c) : b.reports.length = c.reports.length := by
  simpa [list, Assoc.values] using List.Forall₂.length_eq h

theorem successful (h : b.Reworded c) :
    List.Forall₂ Report.Reworded b.successful c.successful := by
  refine List.rel_filter ?_ h
  intro r s hrs
  simp [hrs.failed]

theorem failures (h : b.Reworded c) : List.Forall₂ Report.Reworded b.failures c.failures := by
  refine List.rel_filter ?_ h
  intro r s hrs
  simp [hrs.failed]

theorem findings (h : b.Reworded c) :
    List.Forall₂ Finding.Reworded (b.list.flatMap Report.findings)
      (c.list.flatMap Report.findings) :=
  List.rel_flatMap h fun _ _ hrs => hrs.findings

/-- The files come in the same order. -/
theorem ascending (h : b.Reworded c) :
    List.Forall₂ Report.Reworded b.ascending c.ascending :=
  forall₂_mergeSort (fun r s hrs r' s' hrs' => by rw [hrs.qualityScore_eq, hrs'.qualityScore_eq])
    h.successful

theorem scores_eq (h : b.Reworded c) :
    b.successful.map Report.qualityScore = c.successful.map Report.qualityScore :=
  map_eq_of_forall₂ h.successful fun _ _ hrs => hrs.qualityScore_eq

theorem averageQuality_eq (h : b.Reworded c) : b.averageQuality = c.averageQuality := by
  have hscores := h.scores_eq
  have hlength := h.successful.length_eq
  unfold averageQuality
  generalize b.successful = rs at hscores hlength
  generalize c.successful = ss at hscores hlength
  cases rs with
  | nil =>
      cases ss with
      | nil => rfl
      | cons s ss => simp at hlength
  | cons r rs =>
      cases ss with
      | nil => simp at hlength
      | cons s ss => simp only [hscores, hlength]

theorem grade_eq (h : b.Reworded c) : b.grade = c.grade := by
  simp only [grade, h.averageQuality_eq]

/-- As many findings have a property that rewording keeps. -/
theorem count_eq (h : b.Reworded c) {p : Finding → Bool}
    (hp : ∀ f g : Finding, f.Reworded g → p f = p g) :
    ((b.list.flatMap Report.findings).filter p).length =
      ((c.list.flatMap Report.findings).filter p).length := by
  refine (List.rel_filter ?_ h.findings).length_eq
  intro f g hfg
  simp [hp f g hfg]

theorem severityCounts_eq (h : b.Reworded c) : b.severityCounts = c.severityCounts := by
  unfold severityCounts countBySeverity
  refine List.map_congr_left fun x _ => ?_
  rw [h.count_eq fun f g hfg => by rw [hfg.severity]]

theorem categoryCounts_eq (h : b.Reworded c) : b.categoryCounts = c.categoryCounts := by
  unfold categoryCounts countByCategory
  refine List.map_congr_left fun x _ => ?_
  rw [h.count_eq fun f g hfg => by rw [hfg.category]]

theorem securityFiles_length_eq (h : b.Reworded c) :
    b.securityFiles.length = c.securityFiles.length := by
  have hcount : ∀ d : Batch, d.securityFiles.length =
      (d.list.map Report.hasSecurityFindings).countP id := by
    intro d
    rw [securityFiles, List.length_map, ← List.countP_eq_length_filter, list, Assoc.values,
      List.countP_map, List.countP_map]
    rfl
  have hmap : b.list.map Report.hasSecurityFindings = c.list.map Report.hasSecurityFindings :=
    map_eq_of_forall₂ h fun _ _ hrs => hrs.hasSecurityFindings_eq
  rw [hcount, hcount, hmap]

theorem findingCount_eq (h : b.Reworded c) : b.findingCount = c.findingCount := by
  have hcounts : (b.list.map fun r => r.findings.length) = c.list.map fun r => r.findings.length :=
    map_eq_of_forall₂ h fun _ _ hrs => hrs.findings.length_eq
  simp only [findingCount, hcounts]

theorem totalTime_eq (h : b.Reworded c) : b.totalTime = c.totalTime := by
  have htimes : b.list.map Report.time = c.list.map Report.time :=
    map_eq_of_forall₂ h fun _ _ hrs => hrs.time
  simp only [totalTime, htimes]

theorem averageTime_eq (h : b.Reworded c) : b.averageTime = c.averageTime := by
  have hempty : b.reports.isEmpty = c.reports.isEmpty := isEmpty_eq_of_length_eq h.length_eq
  simp only [averageTime, hempty, h.totalTime_eq, h.length_eq]

/-- **The figures of a batch do not depend on its words.** -/
theorem summary_eq (h : b.Reworded c) : b.summary = c.summary := by
  simp only [summary, h.scores_eq, h.totalTime_eq, h.averageTime_eq, h.length_eq,
    h.successful.length_eq, h.failures.length_eq, h.findingCount_eq, h.averageQuality_eq,
    h.grade_eq, h.categoryCounts_eq, h.severityCounts_eq, h.securityFiles_length_eq]

end Batch.Reworded

end PhpAudit
