/-
**The security analyzer comes to an outcome, and its outcome has what its rules found.**

After the walk the security analyzer looks up each finding in tables, rates its risk, sorts the
findings by priority and sums them up.  Each of these steps fails on values of the wrong sort.
Every finding of a security rule carries the rule's identifier, the place of the node, the name of
a vulnerability and the code of a category, so no step fails; and the findings come out as they
went in, but for added facts and references.

Main definitions:

* `Finding.At`, `Finding.Rated`, `Finding.Annotated` — the place of a finding, the facts by which it
  is rated, and a finding with other facts and references;
* `Rule.Signs` — a rule whose findings carry its identifier, the place and these facts;
* `Rule.Inspection.Modest` — an inspection that leaves the name of the vulnerability alone.

Main results:

* `Rule.signs_of_guardedCheck` — a security rule with a modest inspection signs its findings;
* `RuledAnalyzer.assessed_ok`, `RuledAnalyzer.securityFacts_ok` — rating and summing up succeed;
* `RuledAnalyzer.analyze_ok` — **the analyzer comes to an outcome with the findings of the walk**.
-/

import PhpAudit.Analyzer.Ruled
import PhpAudit.Proofs.Dict
import PhpAudit.Proofs.Except

set_option autoImplicit false

namespace PhpAudit

/-! ### Facts under texts -/

/-- A write under one text is not seen under another. -/
theorem get?_put_text (m : Dict) {a b : String} (h : a ≠ b) (v : Value) :
    Assoc.get? (Assoc.put m (.str a) v) (.str b) = Assoc.get? m (.str b) :=
  Dict.get?_put_of_ne m (mt Key.str.inj h) v

theorem get?_update_text (m : Dict) {new : Dict} {b : String}
    (h : ∀ e ∈ new, ∃ a, e.1 = .str a ∧ a ≠ b) :
    Assoc.get? (Assoc.update m new) (.str b) = Assoc.get? m (.str b) := by
  induction new generalizing m with
  | nil => rfl
  | cons e new ih =>
      obtain ⟨a, ha, hne⟩ := h e List.mem_cons_self
      have hrest := ih (Assoc.put m e.1 e.2) fun e' he' => h e' (List.mem_cons_of_mem _ he')
      rw [ha, get?_put_text m hne] at hrest
      rw [← hrest, Assoc.update, List.foldl_cons, ha]
      rfl

theorem get?_putNew (m : Dict) {a b : String} (h : a ≠ b) (v : Value) :
    Assoc.get? (Owasp.putNew m a v) (.str b) = Assoc.get? m (.str b) := by
  unfold Owasp.putNew
  split
  · rfl
  · exact get?_put_text m h v

/-! ### Findings of security rules -/

namespace Finding

/-- The finding stands at a node of a file. -/
structure At (f : Finding) (n : Node) (file : SourceFile) : Prop where
  line : f.line = .int n.span.startLine
  column : f.column = .int n.span.startColumn
  endLine : f.endLine = .int n.span.endLine
  endColumn : f.endColumn = .int n.span.endColumn
  filePath : f.filePath = .str file.path

/-- The finding names a vulnerability and a category. -/
structure Rated (f : Finding) : Prop where
  vulnerability : ∃ word, Assoc.get? f.metadata (.str "vulnerability_type") = some (.str word)
  owasp : ∃ code, f.owaspCategory = .str code

/-- The finding with other facts and references. -/
def Annotated (f g : Finding) : Prop :=
  ∃ metadata cweIds, g = { f with metadata, cweIds }

theorem Annotated.at {f g : Finding} (h : f.Annotated g) {n : Node} {file : SourceFile}
    (hf : f.At n file) : g.At n file := by
  obtain ⟨_, _, rfl⟩ := h
  exact ⟨hf.line, hf.column, hf.endLine, hf.endColumn, hf.filePath⟩

theorem Annotated.ruleId {f g : Finding} (h : f.Annotated g) : g.ruleId = f.ruleId := by
  obtain ⟨_, _, rfl⟩ := h
  rfl

theorem Annotated.confidence {f g : Finding} (h : f.Annotated g) : g.confidence = f.confidence := by
  obtain ⟨_, _, rfl⟩ := h
  rfl

theorem Annotated.owaspCategory {f g : Finding} (h : f.Annotated g) :
    g.owaspCategory = f.owaspCategory := by
  obtain ⟨_, _, rfl⟩ := h
  rfl

end Finding

namespace Rule

/-- Every finding of the rule carries its identifier, the place of the node and the facts by which
it is rated. -/
def Signs (r : Rule) : Prop :=
  ∀ settings n site found, r.check settings n site = .ok found →
    ∀ f ∈ found, f.ruleId = .str r.profile.id ∧ f.At n site.file ∧ f.Rated

/-- The suspicion adds nothing under the name of the vulnerability. -/
def Suspicion.Modest (x : Suspicion) : Prop :=
  ∀ e ∈ x.metadata, ∃ a, e.1 = .str a ∧ a ≠ "vulnerability_type"

/-- All suspicions of an inspection are modest. -/
def Inspection.Modest (inspect : Inspection) : Prop :=
  ∀ settings n site x e, inspect settings n site = .ok (some (x, e)) → x.Modest

/-- What a finding takes from the profile, the node and the suspicion. -/
theorem of_securityFinding {p : Profile} {s : Security} {x : Suspicion} {n : Node} {site : Site}
    {f : Finding} (h : p.securityFinding s x n site = .ok f) :
    f.ruleId = .str p.id ∧ f.At n site.file ∧ f.owaspCategory = .str s.owasp.code ∧
      f.metadata = Assoc.update (s.facts x.evidence) x.metadata ∧
      ∀ e, x.evidence = some e → f.confidence = Finding.clampConfidence e.confidence := by
  unfold Profile.securityFinding at h
  obtain ⟨g, hg, h⟩ := of_bind_eq_ok h
  cases h
  unfold Profile.finding at hg
  obtain ⟨severity, _, hg⟩ := of_bind_eq_ok hg
  obtain ⟨category, _, hg⟩ := of_bind_eq_ok hg
  cases hg
  exact ⟨rfl, ⟨rfl, rfl, rfl, rfl, rfl⟩, rfl, rfl, fun e he => by dsimp only; rw [he]⟩

theorem rated_of_securityFinding {p : Profile} {s : Security} {x : Suspicion} {n : Node}
    {site : Site} {f : Finding} (hx : x.Modest) (h : p.securityFinding s x n site = .ok f) :
    f.Rated := by
  obtain ⟨_, _, howasp, hfacts, _⟩ := of_securityFinding h
  refine ⟨⟨s.vulnerability, ?_⟩, _, howasp⟩
  rw [hfacts, get?_update_text _ hx]
  rfl

/-- What is reported is the finding for a suspicion with more to say. -/
theorem of_report {p : Profile} {s : Security} {settings : Dict} {n : Node} {site : Site}
    {x : Suspicion} {e : Evidence} {found : List Finding}
    (h : report p s settings n site x e = .ok found) {f : Finding} (hf : f ∈ found) :
    ∃ description,
      p.securityFinding s { x with description, evidence := some e } n site = .ok f := by
  unfold report at h
  split at h
  · obtain ⟨g, hg, h⟩ := of_bind_eq_ok h
    cases h
    rw [List.mem_singleton.1 hf]
    exact ⟨_, of_mapError_eq_ok hg⟩
  · cases h
    cases hf

/-- A suspicion with enough confidence is reported. -/
theorem report_ok {p : Profile} {s : Security} {settings : Dict} {n : Node} {site : Site}
    {x : Suspicion} {e : Evidence} {severity : Severity} {category : Category}
    (hconfident : meetsConfidence settings e = true)
    (hseverity : Finding.readSeverity (.str (severityWord x.severity p.severity)) = .ok severity)
    (hcategory : Finding.readCategory (.str p.category) = .ok category) :
    ∃ f, report p s settings n site x e = .ok [f] := by
  unfold report Profile.securityFinding Profile.finding
  simp only [hconfident, if_true, hseverity, hcategory, bind, Except.bind]
  exact ⟨_, rfl⟩

/-- Outside test code a rule says what its inspection comes to. -/
theorem guardedCheck_eq {p : Profile} {s : Security} {inspect : Inspection} {settings : Dict}
    {n : Node} {site : Site} {suspected : Option (Suspicion × Evidence)}
    (houtside : inTestCode settings site = .ok false)
    (hinspect : inspect settings n site = .ok suspected) :
    guardedCheck p s inspect settings n site =
      suspected.elim (.ok []) fun xe => report p s settings n site xe.1 xe.2 := by
  unfold guardedCheck
  simp only [houtside, hinspect, mapError_ok, bind, Except.bind]
  cases suspected with
  | none => rfl
  | some xe => rfl

/-- Where nothing is suspected, nothing is found, in test code or not. -/
theorem eq_nil_of_guardedCheck {p : Profile} {s : Security} {inspect : Inspection} {settings : Dict}
    {n : Node} {site : Site} {found : List Finding} (hinspect : inspect settings n site = .ok none)
    (h : guardedCheck p s inspect settings n site = .ok found) : found = [] := by
  have hcheck := h
  unfold guardedCheck at h
  obtain ⟨inTest, htest, h⟩ := of_bind_eq_ok h
  cases inTest with
  | true =>
      cases h
      rfl
  | false =>
      rw [guardedCheck_eq (of_mapError_eq_ok htest) hinspect] at hcheck
      cases hcheck
      rfl

/-- **A security rule with a modest inspection signs its findings.** -/
theorem signs_of_guardedCheck {r : Rule} {s : Security} {inspect : Inspection}
    (hcheck : r.check = guardedCheck r.profile s inspect) (hmodest : inspect.Modest) :
    r.Signs := by
  intro settings n site found h f hf
  rw [hcheck] at h
  unfold guardedCheck at h
  obtain ⟨inTest, _, h⟩ := of_bind_eq_ok h
  cases inTest with
  | true =>
      cases h
      cases hf
  | false =>
      obtain ⟨suspected, hinspect, h⟩ := of_bind_eq_ok h
      cases suspected with
      | none =>
          cases h
          cases hf
      | some xe =>
          obtain ⟨x, e⟩ := xe
          have hx : x.Modest := hmodest settings n site x e (of_mapError_eq_ok hinspect)
          obtain ⟨description, hfinding⟩ := of_report h hf
          obtain ⟨hid, hat, _⟩ := of_securityFinding hfinding
          have hrated : f.Rated := by
            refine rated_of_securityFinding ?_ hfinding
            exact hx
          exact ⟨hid, hat, hrated⟩

end Rule

/-! ### Rating -/

namespace RuledAnalyzer

/-- Every kind of vulnerability, known or not, can be assessed. -/
theorem assess_ok (kind : Key) :
    ∃ a, Risk.assess (Risk.factorsOf Risk.profiles kind) = .ok a := by
  have hall : (({} : Risk.Factors) :: Risk.profiles.map Prod.snd).all
      (fun f => (Risk.assess f).toBool) = true := by
    decide +kernel
  have hmem : Risk.factorsOf Risk.profiles kind ∈
      ({} : Risk.Factors) :: Risk.profiles.map Prod.snd := by
    unfold Risk.factorsOf Assoc.getD
    cases hget : Assoc.get? Risk.profiles kind with
    | none => exact List.mem_cons_self
    | some f =>
        obtain ⟨k, _, hstored⟩ := Assoc.exists_mem_of_get? hget
        exact List.mem_cons_of_mem _ (List.mem_map_of_mem hstored)
  have hok := List.all_eq_true.1 hall _ hmem
  cases hassess : Risk.assess (Risk.factorsOf Risk.profiles kind) with
  | ok a => exact ⟨a, rfl⟩
  | error e =>
      rw [hassess] at hok
      cases hok

/-- The name of the category of a code is found, whatever the code. -/
theorem categoryName_ok (code : String) : ∃ name, Owasp.categoryName (.str code) = .ok name := by
  have hfor : Owasp.categoryFor (.str code) = .ok (Owasp.Category.ofCode? code) := rfl
  unfold Owasp.categoryName
  split
  · exact ⟨_, rfl⟩
  · rw [hfor]
    cases Owasp.Category.ofCode? code with
    | none => exact ⟨_, rfl⟩
    | some c => exact ⟨_, rfl⟩

/-- References are added without touching the name of the vulnerability. -/
theorem enrich_ok {f : Finding} (h : f.Rated) :
    ∃ g, Owasp.enrich f = .ok g ∧ f.Annotated g ∧
      Assoc.get? g.metadata (.str "vulnerability_type") =
        Assoc.get? f.metadata (.str "vulnerability_type") := by
  obtain ⟨⟨word, hword⟩, code, hcode⟩ := h
  have hname : ∃ name, Owasp.categoryName f.owaspCategory = .ok name := by
    rw [hcode]
    exact categoryName_ok code
  obtain ⟨name, hname⟩ := hname
  have hkind : Assoc.getD f.metadata (.str "vulnerability_type") .null = .str word := by
    rw [Assoc.getD, hword, Option.getD_some]
  have hprofile : Owasp.profileFor (.str word) = .ok (Owasp.profile? word) := rfl
  have hnamed := get?_putNew f.metadata
    (show "owasp_name" ≠ "vulnerability_type" by decide) name
  have hreferences : ∀ named references, Assoc.get? (Owasp.putNew named "references" references)
      (.str "vulnerability_type") = Assoc.get? named (.str "vulnerability_type") :=
    fun named => get?_putNew named (by decide)
  unfold Owasp.enrich
  simp only [hkind, hname, hprofile]
  -- whichever profile is found and whether or not the category has a name
  split
  · cases Owasp.profile? word with
    | none =>
        split
        · exact ⟨_, rfl, ⟨_, _, rfl⟩, hnamed⟩
        · exact ⟨_, rfl, ⟨_, _, rfl⟩, rfl⟩
    | some p =>
        split
        · exact ⟨_, rfl, ⟨_, _, rfl⟩, (hreferences _ _).trans hnamed⟩
        · exact ⟨_, rfl, ⟨_, _, rfl⟩, hreferences _ _⟩
  · split
    · exact ⟨_, rfl, ⟨_, _, rfl⟩, hnamed⟩
    · exact ⟨_, rfl, ⟨_, _, rfl⟩, rfl⟩

/-- **A finding that names a vulnerability and a category can be rated**, and stays as it is but for
added facts and references. -/
theorem assessed_ok {f : Finding} (h : f.Rated) :
    ∃ priority g, assessed f = .ok (priority, g) ∧ f.Annotated g := by
  obtain ⟨g, hg, ⟨metadata, cweIds, hannotated⟩, hkept⟩ := enrich_ok h
  obtain ⟨word, hword⟩ := h.vulnerability
  have hkind : (Assoc.getD g.metadata (.str "vulnerability_type") (.str "")).toKey =
      .ok (.str word) := by
    rw [Assoc.getD, hkept, hword]
    rfl
  obtain ⟨a, ha⟩ := assess_ok (.str word)
  have hassessed : assessed f = .ok (a.priority, { g with
      metadata := Assoc.update g.metadata
        [("risk_score", .float a.score), ("risk_severity", .str a.severity),
         ("risk_priority", .int a.priority)] }) := by
    unfold assessed
    simp only [hg, bind, Except.bind, hkind, ha]
    rfl
  refine ⟨a.priority, _, hassessed, ?_⟩
  rw [hannotated]
  exact ⟨_, cweIds, rfl⟩

/-- Rating and sorting lose nothing and bring nothing in. -/
theorem arrange_ok {found : List Finding} (h : ∀ f ∈ found, f.Rated) :
    ∃ arranged, arrange .security found = .ok arranged ∧
      (∀ f ∈ found, ∃ g ∈ arranged, f.Annotated g) ∧
      ∀ g ∈ arranged, ∃ f ∈ found, f.Annotated g := by
  have hrated : ∀ f ∈ found, ∃ y, assessed f = .ok y := by
    intro f hf
    obtain ⟨priority, g, hg, _⟩ := assessed_ok (h f hf)
    exact ⟨_, hg⟩
  obtain ⟨rated, hmap⟩ := mapM_ok hrated
  obtain ⟨hforth, hback⟩ := mem_of_mapM_ok hmap
  have hannotated : ∀ f ∈ found, ∀ y, assessed f = .ok y → f.Annotated y.2 := by
    intro f hf y hy
    obtain ⟨priority, g, hg, hfg⟩ := assessed_ok (h f hf)
    rw [hg] at hy
    cases hy
    exact hfg
  refine ⟨(rated.mergeSort fun a b => decide (b.1 ≤ a.1)).map Prod.snd, ?_, ?_, ?_⟩
  · unfold arrange
    simp only [beq_self_eq_true, if_true, hmap]
    rfl
  · intro f hf
    obtain ⟨y, hy, heq⟩ := hforth f hf
    exact ⟨y.2, List.mem_map_of_mem (List.mem_mergeSort.2 hy), hannotated f hf y heq⟩
  · intro g hg
    obtain ⟨y, hy, rfl⟩ := List.mem_map.1 hg
    obtain ⟨f, hf, heq⟩ := hback y (List.mem_mergeSort.1 hy)
    exact ⟨f, hf, hannotated f hf y heq⟩

/-! ### Summing up -/

theorem compliance_ok (b : RuleBook) {found : List Finding}
    (h : ∀ f ∈ found, ∃ code, f.owaspCategory = .str code) :
    ∃ facts, b.compliance found = .ok facts := by
  have hcounts : ∃ counts,
      RuleBook.owaspCounts (found.filter fun f => f.category == .security) = .ok counts := by
    unfold RuleBook.owaspCounts
    refine foldlM_ok ?_ []
    intro f hf m
    have hmem : f ∈ found := (List.mem_filter.1 (List.mem_filter.1 hf).1).1
    obtain ⟨code, hcode⟩ := h f hmem
    rw [hcode]
    exact ⟨_, rfl⟩
  obtain ⟨counts, hcounts⟩ := hcounts
  unfold RuleBook.compliance
  simp only [hcounts]
  exact ⟨_, rfl⟩

/-- Confidences are numbers, so they can be compared. -/
theorem falsePositiveRate_ok (confidences : List Float) :
    ∃ rate, Risk.falsePositiveRate (.list (confidences.map .float)) = .ok rate := by
  have hitems : ∃ cs : List Float,
      (Value.list (confidences.map .float)).itemsOrEmpty = .ok (cs.map .float) := by
    unfold Value.itemsOrEmpty
    split
    · exact ⟨confidences, rfl⟩
    · exact ⟨[], rfl⟩
  obtain ⟨cs, hcs⟩ := hitems
  have hdoubtful : ∃ ys, (cs.map Value.float).filterM (fun c => c.less (.float 0.9)) = .ok ys := by
    refine filterM_ok ?_
    intro v hv
    obtain ⟨x, _, rfl⟩ := List.mem_map.1 hv
    exact ⟨_, rfl⟩
  obtain ⟨ys, hys⟩ := hdoubtful
  unfold Risk.falsePositiveRate
  simp only [hcs, hys, bind, Except.bind]
  split <;> exact ⟨_, rfl⟩

theorem securityFacts_ok (a : RuledAnalyzer) {found : List Finding}
    (h : ∀ f ∈ found, ∃ code, f.owaspCategory = .str code) :
    ∃ facts, a.securityFacts found = .ok facts := by
  obtain ⟨compliance, hcompliance⟩ := compliance_ok a.book h
  obtain ⟨rate, hrate⟩ := falsePositiveRate_ok (found.map Finding.confidence)
  rw [List.map_map] at hrate
  unfold securityFacts
  split
  · simp only [hcompliance, bind, Except.bind]
    have hrate' : Risk.falsePositiveRate (.list (found.map fun f => .float f.confidence)) =
        .ok rate := hrate
    rw [hrate']
    exact ⟨_, rfl⟩
  · exact ⟨_, rfl⟩

/-- The findings of an outcome are those of the walk, rated and sorted. -/
theorem analyze_arranged {a : RuledAnalyzer} (hkind : a.kind = .security) (file : SourceFile)
    (h : ∀ f ∈ (a.book.sweep file).1.findings, f.Rated) :
    ∃ outcome, a.analyze file = .ok outcome ∧
      arrange .security (a.book.sweep file).1.findings = .ok outcome.findings := by
  obtain ⟨arranged, harrange, _, hback⟩ := arrange_ok h
  have hcodes : ∀ g ∈ arranged, ∃ code, g.owaspCategory = .str code := by
    intro g hg
    obtain ⟨f, hf, hfg⟩ := hback g hg
    obtain ⟨code, hcode⟩ := (h f hf).owasp
    exact ⟨code, hfg.owaspCategory.trans hcode⟩
  obtain ⟨facts, hfacts⟩ := securityFacts_ok a hcodes
  obtain ⟨kind, settings, book⟩ := a
  cases hkind
  have hfirst : (if (Kind.security == .syntactic) = true then
      file.faults.map (parseFinding file.path) else []) = [] := rfl
  unfold analyze
  simp only [harrange, hfirst, List.nil_append, hfacts, bind, Except.bind]
  exact ⟨_, rfl, rfl⟩

/-- **The security analyzer comes to an outcome with the findings of the walk.** -/
theorem analyze_ok {a : RuledAnalyzer} (hkind : a.kind = .security) (file : SourceFile)
    (h : ∀ f ∈ (a.book.sweep file).1.findings, f.Rated) :
    ∃ outcome, a.analyze file = .ok outcome ∧
      (∀ f ∈ (a.book.sweep file).1.findings, ∃ g ∈ outcome.findings, f.Annotated g) ∧
      ∀ g ∈ outcome.findings, ∃ f ∈ (a.book.sweep file).1.findings, f.Annotated g := by
  obtain ⟨outcome, houtcome, hfindings⟩ := analyze_arranged hkind file h
  obtain ⟨arranged, harrange, hforth, hback⟩ := arrange_ok h
  cases hfindings.symm.trans harrange
  exact ⟨outcome, houtcome, hforth, hback⟩

end RuledAnalyzer

end PhpAudit
