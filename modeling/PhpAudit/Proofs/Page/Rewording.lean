/-
**Pages about reworded batches differ in their text only.**

The page about a batch is made of markup and of text.  Which markup stands on it depends on the
figures and on how many findings, weaknesses and suggestions there are, never on their words.  So
the pages about two batches that differ in their words at most have the same markup in the same
order, and hence the same delimiters; and each word of a batch stands on its page, escaped.

Main definitions:

* `SameFate` — two computations fail alike or come to related results;
* `Page.Piece.Alike`, `Page.Alike` — the same markup, and text at the same places.

Main results:

* `Page.groupsOf_sameFate` — the same categories with the same number of findings;
* `Page.alike_files`, `Page.alike_categories`, … — what the sections of the pages have in common;
* `Page.report_reworded` — **the page of a reworded batch has the same markup**.
-/

import PhpAudit.Proofs.Page.Escaping
import PhpAudit.Proofs.Report.Rewording

set_option autoImplicit false

namespace PhpAudit

/-! ### Computations that fail alike -/

/-- Two computations that fail for the same cause or come to related results. -/
inductive SameFate {ε α β : Type} (R : α → β → Prop) : Except ε α → Except ε β → Prop
  | ok {a : α} {b : β} (h : R a b) : SameFate R (.ok a) (.ok b)
  | error (e : ε) : SameFate R (.error e) (.error e)

namespace SameFate

variable {ε α β γ δ : Type} {R : α → β → Prop} {S : γ → δ → Prop}

theorem refl (x : Except ε α) : SameFate Eq x x := by
  cases x with
  | ok a => exact .ok rfl
  | error e => exact .error e

theorem bind {x : Except ε α} {y : Except ε β} (h : SameFate R x y) {f : α → Except ε γ}
    {g : β → Except ε δ} (hfg : ∀ a b, R a b → SameFate S (f a) (g b)) :
    SameFate S (x >>= f) (y >>= g) := by
  cases h with
  | ok hab => exact hfg _ _ hab
  | error e => exact .error e

/-- Steps that keep results related do so over related lists. -/
theorem foldlM {f : γ → α → Except ε γ} {g : δ → β → Except ε δ}
    (hstep : ∀ s t, S s t → ∀ a b, R a b → SameFate S (f s a) (g t b)) {as : List α} {bs : List β}
    (h : List.Forall₂ R as bs) {s : γ} {t : δ} (hst : S s t) :
    SameFate S (as.foldlM f s) (bs.foldlM g t) := by
  induction h generalizing s t with
  | nil => exact .ok hst
  | cons hab _ ih =>
      rw [List.foldlM_cons, List.foldlM_cons]
      exact (hstep s t hst _ _ hab).bind fun _ _ => ih

end SameFate

namespace Page

/-! ### Pieces -/

/-- Pieces of the same markup, or of any text on both sides. -/
inductive Piece.Alike : Piece → Piece → Prop
  | markup (s : String) : Alike (.markup s) (.markup s)
  | text (s t : String) : Alike (.text s) (.text t)

/-- Pages that agree but for their text. -/
abbrev Alike (ps qs : List Piece) : Prop :=
  List.Forall₂ Piece.Alike ps qs

@[simp] theorem alike_text (s t : String) : Piece.Alike (.text s) (.text t) :=
  .text s t

@[simp] theorem alike_shown (v w : Value) : Piece.Alike (shown v) (shown w) :=
  .text _ _

@[simp] theorem alike_number (m n : Nat) : Piece.Alike (number m) (number n) :=
  .text _ _

@[simp] theorem alike_refl (p : Piece) : Piece.Alike p p := by
  cases p with
  | markup s => exact .markup s
  | text s => exact .text s s

theorem Alike.refl (ps : List Piece) : Alike ps ps :=
  List.forall₂_same.2 fun p _ => alike_refl p

theorem Alike.append {ps qs ps' qs' : List Piece} (h : Alike ps qs) (h' : Alike ps' qs') :
    Alike (ps ++ ps') (qs ++ qs') :=
  List.rel_append h h'

/-- Pages that agree but for their text have the same markup. -/
theorem Alike.template_eq {ps qs : List Piece} (h : Alike ps qs) : template ps = template qs := by
  have hmarkup : ps.filterMap Piece.markup? = qs.filterMap Piece.markup? := by
    induction h with
    | nil => rfl
    | cons hp _ ih =>
        cases hp with
        | markup s => simp only [List.filterMap_cons, Piece.markup?, ih]
        | text s t => simp only [List.filterMap_cons, Piece.markup?, ih]
  rw [template, hmarkup, template]

/-- Repeated parts that agree, as many on both sides. -/
theorem alike_repeated (blanks : String) {α β : Type} {R : α → β → Prop} {f : α → List Piece}
    {g : β → List Piece} (hfg : ∀ a b, R a b → Alike (f a) (g b)) {as : List α} {bs : List β}
    (h : List.Forall₂ R as bs) :
    Alike (repeated blanks (as.map f)) (repeated blanks (bs.map g)) := by
  refine .cons (.markup _) (List.rel_flatMap (List.rel_map hfg h) ?_)
  intro p q hpq
  exact .cons (.markup _) (hpq.append (.refl _))

/-! ### Sections -/

theorem alike_summaryGrid {b c : Batch} (h : b.Reworded c) :
    Alike (summaryGrid b) (summaryGrid c) := by
  rw [summaryGrid, summaryGrid, h.length_eq, h.findingCount_eq, h.averageQuality_eq, h.grade_eq,
    h.severityCounts_eq]
  exact .refl _

theorem alike_fileRow (r s : Report) (h : r.Reworded s) : Alike (fileRow r) (fileRow s) := by
  simp [Alike, fileRow, cell, h.isPartial]

theorem alike_fileFinding (f g : Finding) (h : f.Reworded g) :
    Alike (fileFinding f) (fileFinding g) := by
  have hsuggestions : Alike
      (f.suggestions.flatMap fun s => [.markup "<div>&rarr; ", shown s, .markup "</div>"])
      (g.suggestions.flatMap fun s => [.markup "<div>&rarr; ", shown s, .markup "</div>"]) := by
    refine List.rel_flatMap (R := fun _ _ => True) ?_ ?_
    · exact List.forall₂_iff_zip.2 ⟨h.suggestions, fun _ => trivial⟩
    · intro s t _
      simp
  refine Alike.append (Alike.append ?_ hsuggestions) (.refl _)
  simp

theorem alike_fileSection (r s : Report) (h : r.Reworded s) :
    Alike (fileSection r) (fileSection s) := by
  unfold fileSection
  rw [isEmpty_eq_of_length_eq h.findings.length_eq]
  split
  · exact .refl _
  · refine (Alike.refl _).append (((?_ : Alike _ _).append ?_).append (.refl _))
    · simp
    · exact alike_repeated level3 alike_fileFinding h.findings

theorem alike_files {b c : Batch} (h : b.Reworded c) : Alike (files b) (files c) := by
  refine ((((Alike.refl _).append ?_).append (.refl _)).append ?_).append (.refl _)
  · exact alike_repeated level4 alike_fileRow h.ascending
  · exact alike_repeated level3 alike_fileSection h.ascending

theorem alike_failures {b c : Batch} (h : b.Reworded c) : Alike (failures b) (failures c) := by
  have hrow : ∀ r s : Report, r.Reworded s → Alike (failureRow r) (failureRow s) := by
    intro r s _
    simp [failureRow]
  unfold failures
  simp only [isEmpty_eq_of_length_eq h.failures.length_eq]
  refine (Alike.refl _).append ?_
  split
  · exact .refl _
  · exact ((Alike.refl _).append (alike_repeated level4 hrow h.failures)).append (.refl _)

/-! ### Categories -/

/-- Findings that differ in their words at most, with any paths. -/
abbrev RewordedAt (e e' : Value × Finding) : Prop :=
  e.2.Reworded e'.2

/-- Groups under the same title of findings that differ in their words at most. -/
structure Group.Reworded (g g' : Group) : Prop where
  title : g.title = g'.title
  members : List.Forall₂ RewordedAt g.members g'.members

/-- Lists of groups under the same codes. -/
abbrev GroupsReworded (gs gs' : Assoc Key Group) : Prop :=
  List.Forall₂ (fun x y : Key × Group => x.1 = y.1 ∧ x.2.Reworded y.2) gs gs'

theorem getD_reworded {gs gs' : Assoc Key Group} (h : GroupsReworded gs gs') (code : Key)
    {g g' : Group} (hg : g.Reworded g') :
    (Assoc.getD gs code g).Reworded (Assoc.getD gs' code g') := by
  induction h with
  | nil => exact hg
  | @cons x y xs ys hxy _ ih =>
      simp only [Assoc.getD, Assoc.get?, hxy.1]
      split
      · exact hxy.2
      · exact ih

theorem put_reworded {gs gs' : Assoc Key Group} (h : GroupsReworded gs gs') (code : Key)
    {g g' : Group} (hg : g.Reworded g') :
    GroupsReworded (Assoc.put gs code g) (Assoc.put gs' code g') := by
  induction h with
  | nil => exact .cons ⟨rfl, hg⟩ .nil
  | @cons x y xs ys hxy hrest ih =>
      simp only [Assoc.put, hxy.1]
      split
      · exact .cons ⟨rfl, hg⟩ hrest
      · exact .cons ⟨rfl, hxy.2⟩ ih

theorem enterGroup_sameFate (gs gs' : Assoc Key Group) (h : GroupsReworded gs gs')
    (e e' : Value × Finding) (he : RewordedAt e e') :
    SameFate GroupsReworded (enterGroup gs e.1 e.2) (enterGroup gs' e'.1 e'.2) := by
  unfold enterGroup
  rw [he.owaspCategory]
  refine (SameFate.refl _).bind ?_
  rintro title _ rfl
  refine (SameFate.refl _).bind ?_
  rintro code _ rfl
  have hnew : Group.Reworded { title } { title } := ⟨rfl, .nil⟩
  have hgroup := getD_reworded h code hnew
  exact .ok (put_reworded h code
    ⟨hgroup.title, List.rel_append hgroup.members (.cons he .nil)⟩)

theorem classified_reworded {b c : Batch} (h : b.Reworded c) :
    List.Forall₂ RewordedAt (classified b) (classified c) := by
  refine List.rel_flatMap h ?_
  intro r s hrs
  have hkept : List.Forall₂ Finding.Reworded
      (r.securityFindings.filter fun f => f.owaspCategory.truthy)
      (s.securityFindings.filter fun f => f.owaspCategory.truthy) := by
    refine List.rel_filter ?_ hrs.securityFindings
    intro f g hfg
    simp [hfg.owaspCategory]
  exact List.forall₂_map_left_iff.2 (List.forall₂_map_right_iff.2 hkept)

/-- The same categories with as many findings, or the same complaint about one. -/
theorem groupsOf_sameFate {b c : Batch} (h : b.Reworded c) :
    SameFate (List.Forall₂ Group.Reworded) (groupsOf b) (groupsOf c) := by
  have hknown : GroupsReworded knownGroups knownGroups := by
    refine List.forall₂_same.2 fun e he => ⟨rfl, rfl, ?_⟩
    obtain ⟨c, -, rfl⟩ := List.mem_map.1 he
    exact .nil
  refine (SameFate.foldlM enterGroup_sameFate (classified_reworded h) hknown).bind ?_
  intro gs gs' hgs
  exact .ok (List.rel_map (fun x y hxy => hxy.2) hgs)

theorem alike_classifiedFinding (e e' : Value × Finding) (h : RewordedAt e e') :
    Alike (classifiedFinding e) (classifiedFinding e') := by
  simp only [classifiedFinding, h.cweIds, h.codeSnippet]
  refine (((Alike.append ?_ (.refl _)).append ?_).append ?_).append (.refl _)
  · simp
  · simp
  · split
    · simp
    · exact .refl _

theorem alike_groupSection (g g' : Group) (h : g.Reworded g') :
    Alike (groupSection g) (groupSection g') := by
  unfold groupSection
  rw [isEmpty_eq_of_length_eq h.members.length_eq]
  split
  · exact .refl _
  · refine (Alike.refl _).append (((?_ : Alike _ _).append ?_).append (.refl _))
    · simp
    · exact alike_repeated level3 alike_classifiedFinding h.members

theorem alike_categories {gs gs' : List Group} (h : List.Forall₂ Group.Reworded gs gs') :
    Alike (categories gs) (categories gs') :=
  ((Alike.refl _).append (alike_repeated level3 alike_groupSection h)).append (.refl _)

theorem weaknessCounts_eq {b c : Batch} (h : b.Reworded c) :
    weaknessCounts b = weaknessCounts c := by
  have hids : ∀ r s : Report, r.Reworded s →
      r.findings.flatMap Finding.cweIds = s.findings.flatMap Finding.cweIds := by
    intro r s hrs
    rw [List.flatMap_def, List.flatMap_def,
      map_eq_of_forall₂ hrs.findings fun _ _ hfg => hfg.cweIds]
  unfold weaknessCounts
  rw [List.flatMap_def, List.flatMap_def, map_eq_of_forall₂ h hids]

/-! ### The page -/

theorem report_sameFate {b c : Batch} (h : b.Reworded c) (now later : Stamp) :
    SameFate Alike (report b now) (report c later) := by
  unfold report
  rw [weaknessCounts_eq h, h.summary_eq]
  refine (SameFate.refl _).bind ?_
  rintro counts _ rfl
  refine (SameFate.refl _).bind ?_
  rintro summary _ rfl
  refine (groupsOf_sameFate h).bind ?_
  intro gs gs' hgs
  refine .ok ?_
  refine (((((Alike.append ?_ (alike_summaryGrid h)).append (.refl _)).append
    (alike_categories hgs)).append (alike_files h)).append (alike_failures h)).append (.refl _)
  simp [opening]

/-- **The page of a reworded batch has the same markup.**  The pages about two batches that differ
in their words at most, made at any moments, consist of the same markup with text at the same
places, so the delimiters on them are the same, and all of them come from the markup; if one page
cannot be made, the other cannot, for the same cause.  On each page every word of its batch stands
escaped, and escaped words have no delimiters and can be read back. -/
theorem report_reworded (b c : Batch) (h : b.Reworded c) (now later : Stamp) :
    SameFate (fun page page' =>
        Alike page page' ∧ delimiters (render page) = delimiters (render page') ∧
          delimiters (render page) = delimiters (template page) ∧
          (∀ s ∈ shownTexts b, (escape s).toList <:+: (render page).toList) ∧
          ∀ s ∈ shownTexts c, (escape s).toList <:+: (render page').toList)
        (report b now) (report c later) ∧
      ∀ s, delimiters (escape s) = [] ∧ unescape (escape s) = s := by
  refine ⟨?_, fun s => ⟨delimiters_escape s, unescape_escape s⟩⟩
  have hwords : ∀ (d : Batch) (moment : Stamp) (page : List Piece), report d moment = .ok page →
      ∀ s ∈ shownTexts d, (escape s).toList <:+: (render page).toList :=
    fun d moment page hpage s hs => escape_infix_render (text_mem_report hpage hs)
  have hfate := report_sameFate h now later
  generalize hb : report b now = x at hfate
  generalize hc : report c later = y at hfate
  cases hfate with
  | error m => exact .error m
  | @ok page page' halike =>
      refine .ok ⟨halike, ?_, delimiters_render page, hwords b now page hb,
        hwords c later page' hc⟩
      rw [delimiters_render, halike.template_eq, delimiters_render]

/-- A security finding with harmless words. -/
def quietFinding : Finding where
  title := .str "Weak hash"
  description := .str "A weak hash is used"
  severity := .high
  category := .security
  suggestions := [.str "Use a strong one"]
  codeSnippet := .str "$h"
  owaspCategory := .str "A02"
  cweIds := [.int 327]

/-- The same finding with words that try to be markup. -/
def loudFinding : Finding :=
  { quietFinding with
    title := .str "<script>alert('x')</script>"
    suggestions := [.str "</div>"]
    codeSnippet := .str "\"><img src='y'>" }

/-- A file with a finding, and one that could not be analyzed. -/
def twoFiles (f : Finding) (path reason : String) : Batch where
  reports := [("a.php", { path := .str "a.php", findings := [f] }),
    (.str path, .failure (.str path) (.str reason) "failed" (.float 0.0))]

/-- Neither the words of a finding nor those of a failure bring markup onto the page. -/
theorem loud_report_reworded :
    let quiet := twoFiles quietFinding "b.php" "no file"
    let loud := twoFiles loudFinding "<b>.php" "<no> \"file\" & no 'folder'"
    let now : Stamp := { year := 2024, month := 2, day := 29 }
    quiet.Reworded loud ∧
      ∃ page page', report quiet now = .ok page ∧ report loud now = .ok page' ∧
        delimiters (render page) = delimiters (render page') ∧
        "&lt;no&gt; &#34;file&#34; &amp; no &#39;folder&#39;".toList <:+:
          (render page').toList := by
  intro quiet loud now
  have hreworded : quiet.Reworded loud := by
    refine .cons ⟨.cons ⟨rfl, rfl, rfl, rfl, rfl, rfl⟩ .nil, rfl, rfl, rfl, rfl⟩ (.cons ?_ .nil)
    exact ⟨.nil, rfl, rfl, rfl, rfl⟩
  have hmade : (report quiet now).isOk = true := by decide +kernel
  have hword : "<no> \"file\" & no 'folder'" ∈ shownTexts loud := by decide +kernel
  have hescaped : escape "<no> \"file\" & no 'folder'" =
      "&lt;no&gt; &#34;file&#34; &amp; no &#39;folder&#39;" := by decide +kernel
  obtain ⟨hfate, -⟩ := report_reworded quiet loud hreworded now now
  refine ⟨hreworded, ?_⟩
  generalize report quiet now = x at hfate hmade
  generalize report loud now = y at hfate
  cases hfate with
  | error m => cases hmade
  | @ok page page' h =>
      obtain ⟨-, hdelimiters, -, -, hwords⟩ := h
      have hshown := hwords _ hword
      rw [hescaped] at hshown
      exact ⟨page, page', rfl, rfl, hdelimiters, hshown⟩

end Page

end PhpAudit
