/-
**A file's report, whatever its analyzers do.**

An analyzer may break down, answer with something that is no outcome, or find things; the parser may
break down or report faults on the whole text and on what stands in front of the first fault.  None
of it keeps the audit from a report.  Two things could: a finding that has no fingerprint, and a
file of which only a part was parsed although no fault is known.  The first cannot come from
findings that are made of texts.  The second cannot come from a parse, since only a fault makes a
file partial.

Main definitions:

* `Grammar.Whole` — a parser that does not mark its trees as partial;
* `Finding.Textual`, `Analyzer.Textual` — findings with texts for title, description and rule.

Main results:

* `SourceFile.Genuine.isPartial_eq` — a parsed file is partial exactly if it has faults;
* `Report.collect_ok` — findings made of texts can be collected;
* `Audit.analyzeText_isolates_analyzers` — **every text gets a report that holds one outcome for
  each analyzer that was asked**.
-/

import PhpAudit.Proofs.Audit.Consult
import PhpAudit.Proofs.Settings.Admitted
import PhpAudit.Proofs.TreeCache.Transparency

set_option autoImplicit false

namespace PhpAudit

/-! ### Partial files have faults -/

/-- A parser that does not mark its trees as partial. -/
def Grammar.Whole (g : Grammar) : Prop :=
  ∀ text tree faults, g.parse text = .ok (tree, faults) → tree.isPartial = false

theorem SourceFile.least?_eq_none {xs : List Int} : least? xs = none ↔ xs = [] := by
  cases xs with
  | nil => simp [least?]
  | cons x xs => simp [least?]

namespace TreeCache

theorem firstAttempt_isPartial {g : Grammar} (hg : g.Whole) (content : String) :
    (firstAttempt g content).1.isPartial = false := by
  unfold firstAttempt
  split
  · rename_i tree faults hparse
    exact hg content tree faults hparse
  · rfl
  · rfl

theorem recover_isPartial (g : Grammar) (content : String) (line : Int) (tolerant : Tree) :
    (recover g content line tolerant).1.isPartial = true := by
  unfold recover
  split
  · rfl
  · rfl

/-- The tree of a content is partial exactly if there are faults. -/
theorem parseContent_isPartial {g : Grammar} (hg : g.Whole) (content : String) :
    (parseContent g content).1.isPartial = !(parseContent g content).2.1.isEmpty := by
  have hfirst := firstAttempt_isPartial hg content
  unfold parseContent
  cases hattempt : firstAttempt g content with
  | mk tree rest =>
      obtain ⟨faults, failed⟩ := rest
      rw [hattempt] at hfirst
      cases hleast : SourceFile.least? (faults.map SyntaxFault.line) with
      | none =>
          have hnone : faults = [] := by simpa using SourceFile.least?_eq_none.1 hleast
          simp only [hleast]
          rw [hnone]
          exact hfirst
      | some line =>
          have hsome : faults ≠ [] := by
            rintro rfl
            simp [SourceFile.least?] at hleast
          simp only [hleast, recover_isPartial]
          simp [hsome]

end TreeCache

theorem SourceFile.Genuine.isPartial_eq {g : Grammar} (hg : g.Whole) {f : SourceFile}
    (h : f.Genuine g) : f.isPartial = !f.faults.isEmpty := by
  unfold SourceFile.isPartial
  rw [h.tree, h.faults]
  exact TreeCache.parseContent_isPartial hg f.content

theorem Audit.soundLines?_ok {file : SourceFile} (h : file.isPartial = !file.faults.isEmpty) :
    ∃ lines, soundLines? file = .ok lines := by
  unfold soundLines?
  split
  · rename_i hpartial
    have hfaults : file.faults ≠ [] := by
      intro hnone
      simp [hpartial, hnone] at h
    cases hline : file.firstFaultLine? with
    | none =>
        unfold SourceFile.firstFaultLine? at hline
        exact absurd (SourceFile.least?_eq_none.1 hline) (by simpa using hfaults)
    | some line => exact ⟨_, rfl⟩
  · exact ⟨none, rfl⟩

/-! ### Findings made of texts -/

/-- A finding with texts for title, description and rule. -/
structure Finding.Textual (f : Finding) : Prop where
  title : ∃ text, f.title = .str text
  description : ∃ text, f.description = .str text
  rule : ∃ text, f.ruleId = .str text

theorem Finding.Textual.fingerprint_ok {f : Finding} (h : f.Textual) :
    ∃ key, f.fingerprint = .ok key := by
  obtain ⟨title, htitle⟩ := h.title
  obtain ⟨description, hdescription⟩ := h.description
  obtain ⟨rule, hrule⟩ := h.rule
  have hlabel : ∃ text, f.ruleLabel = .str text := by
    unfold ruleLabel orElse
    split
    · exact ⟨rule, hrule⟩
    · exact ⟨"no-rule", rfl⟩
  obtain ⟨label, hlabel⟩ := hlabel
  unfold fingerprint
  rw [htitle, hdescription, hlabel]
  exact ⟨_, rfl⟩

theorem Finding.Textual.placed {f : Finding} (h : f.Textual) (path : Value) :
    (Report.placed path f).Textual := by
  unfold Report.placed
  split
  · exact h
  · exact ⟨h.title, h.description, h.rule⟩

namespace Report

theorem distinct_ok {findings : List Finding}
    (h : ∀ f ∈ findings, ∃ key, f.fingerprint = .ok key) :
    ∃ kept, distinct findings = .ok kept := by
  have hkeys : ∀ f ∈ findings, ∃ y : String × Finding,
      (do return (← f.fingerprint, f) : Except Misuse (String × Finding)) = .ok y := by
    intro f hf
    obtain ⟨key, hkey⟩ := h f hf
    exact ⟨(key, f), by rw [hkey]; rfl⟩
  obtain ⟨keyed, hkeyed⟩ := mapM_ok hkeys
  unfold distinct
  rw [hkeyed]
  exact ⟨_, rfl⟩

/-- Findings made of texts can be collected, and the report says what it was made of. -/
theorem collect_ok (path : Value) {outcomes : List Outcome} (parseErrors : List Value)
    (isPartial time : Value) (h : ∀ o ∈ outcomes, ∀ f ∈ o.findings, f.Textual) :
    ∃ r, collect path outcomes parseErrors isPartial time = .ok r ∧ r.outcomes = outcomes ∧
      r.parseErrors = parseErrors ∧ r.isPartial = isPartial ∧ r.failed = false := by
  have hall : ∀ f ∈ allFindings path outcomes, f.Textual := by
    intro f hf
    obtain ⟨o, ho, hf⟩ := List.mem_flatMap.1 hf
    obtain ⟨f', hf', rfl⟩ := List.mem_map.1 hf
    exact (h o ho f' hf').placed path
  obtain ⟨kept, hkept⟩ := distinct_ok fun f hf => (hall f hf).fingerprint_ok
  unfold collect
  dsimp only
  rw [hkept]
  exact ⟨_, rfl, rfl, rfl, rfl, rfl⟩

end Report

/-! ### Analyzers that can be asked -/

/-- An analyzer whose findings are made of texts. -/
def Analyzer.Textual (an : Analyzer) : Prop :=
  ∀ locked file o, (an.react locked file).answer = .outcome o → ∀ f ∈ o.findings, f.Textual

theorem Analyzer.Leaves.textual {an : Analyzer} {locked : Bool} {file : SourceFile} {o : Outcome}
    (h : an.Leaves locked file o) (han : an.Textual) : ∀ f ∈ o.findings, f.Textual := by
  cases h with
  | own h => exact han locked file o h
  | other h time => exact fun f hf => absurd hf (by simp [Outcome.failure])
  | crash h time => exact fun f hf => absurd hf (by simp [Outcome.failure])

theorem textual_of_leaves {locked : Bool} {file : SourceFile} {ans : List Analyzer}
    {outcomes : List Outcome} (hans : ∀ an ∈ ans, an.Textual)
    (h : List.Forall₂ (fun an o => an.Leaves locked file o) ans outcomes) :
    ∀ o ∈ outcomes, ∀ f ∈ o.findings, f.Textual := by
  induction h with
  | nil => exact List.forall_mem_nil _
  | cons hleaves _ ih =>
      intro o ho
      rcases List.mem_cons.1 ho with rfl | ho
      · exact hleaves.textual (hans _ List.mem_cons_self)
      · exact ih (fun an han => hans an (List.mem_cons_of_mem _ han)) o ho

/-- An analyzer that has a list of endings. -/
def Analyzer.ListsEndings (an : Analyzer) : Prop :=
  ∃ endings, an.extensions = .list endings

theorem Analyzer.ListsEndings.isReady_ok {an : Analyzer} (h : an.ListsEndings)
    (file : SourceFile) : ∃ ready, an.isReady file = .ok ready := by
  obtain ⟨endings, hendings⟩ := h
  unfold isReady supports
  rw [hendings]
  split
  · exact ⟨false, rfl⟩
  · exact ⟨_, rfl⟩

namespace Audit

theorem asks_ok {a : Audit} (ha : a.settings.Admitted) {an : Analyzer} (han : an.ListsEndings)
    (file : SourceFile) : ∃ wanted, a.asks an file = .ok wanted := by
  obtain ⟨switch, hswitch⟩ := ha.analyzerEnabled_ofKey an.name
  obtain ⟨ready, hready⟩ := han.isReady_ok file
  unfold asks
  rw [hswitch, hready]
  by_cases hon : switch.truthy = true
  · exact ⟨ready, if_pos hon⟩
  · exact ⟨false, if_neg hon⟩

/-! ### The report -/

/-- The counts of analyzers grow by those that are listed, whether they were asked or not. -/
theorem Counts.enter_runs_skipped (c : Counts) {listed : Nat} {r : Report}
    (h : r.outcomes.length ≤ listed) (time : Float) :
    (c.enter listed r time).runs + (c.enter listed r time).skipped =
      c.runs + c.skipped + listed := by
  simp only [Counts.enter]
  omega

/-- The report about a file that is partial exactly if it has faults. -/
theorem analyzeParsed_ok {a : Audit} {file : SourceFile}
    (hpartial : file.isPartial = !file.faults.isEmpty)
    (hasks : ∀ an ∈ a.roster.list, ∃ wanted, a.asks an file = .ok wanted)
    (htextual : ∀ an ∈ a.roster.list, an.Textual) (started : Float) :
    ∃ report later, a.analyzeParsed file started = (report, later) ∧ report.failed = false ∧
      List.Forall₂ (fun an o => an.Leaves a.roster.isLocked file o)
        (a.roster.list.filter (a.wants file)) report.outcomes ∧
      report.isPartial = .bool (!report.parseErrors.isEmpty) ∧
      later.counts.runs + later.counts.skipped =
        a.counts.runs + a.counts.skipped + a.roster.list.length := by
  -- the three places at which the analysis could break down: none of them does
  obtain ⟨lines, hlines⟩ := soundLines?_ok hpartial
  obtain ⟨outcomes, hanswers, hleaves⟩ := consultAll_leaves file a.roster.list a hasks
  have htexts : ∀ o ∈ outcomes, ∀ f ∈ o.findings, f.Textual :=
    textual_of_leaves (fun an han => htextual an (List.mem_filter.1 han).1) hleaves
  have hlater := consultAll_later file a.roster.list a
  unfold analyzeParsed
  simp only [hlines]
  cases hconsult : consultAll file a.roster.list a with
  | mk answers b =>
      rw [hconsult] at hanswers hlater
      obtain ⟨r, hcollect, houtcomes, herrors, hflag, hfailed⟩ :=
        Report.collect_ok file.path (file.faults.map fun f => Value.dict f.toDict)
          (.bool file.isPartial) (.float (b.now - started)) htexts
      simp only at hanswers
      subst hanswers
      simp only [hcollect, bind, Except.bind]
      refine ⟨_, _, rfl, hfailed, ?_, ?_, ?_⟩
      · rwa [houtcomes]
      · rw [hflag, herrors, hpartial]
        simp
      · have hlength : r.outcomes.length ≤ a.roster.list.length := by
          rw [houtcomes, ← hleaves.length_eq]
          exact List.length_filter_le _ _
        have hcounts : b.counts = a.counts := hlater.counts
        simp only [Counts.enter_runs_skipped _ hlength, hcounts]

/-- **Every text gets a report that holds one outcome for each analyzer that was asked.**  The cache
may have any history and the roster any analyzers that list their endings and make their findings
of texts; each of them may break down, answer with something else, cancel the run or bring in
others.  The outcomes are those of the analyzers that are asked, in the order of the roster, and
each is what its analyzer alone answers about the parsed file.  The report is partial exactly if it
lists parse errors, and every analyzer is counted as asked or skipped. -/
theorem analyzeText_isolates_analyzers (a : Audit) (contents : List String)
    (hcache : a.cache.Reachable contents) (hfault : a.cacheFault = none)
    (hgrammar : a.cache.grammar.Whole) (hsettings : a.settings.Admitted)
    (hendings : ∀ an ∈ a.roster.list, an.ListsEndings)
    (htextual : ∀ an ∈ a.roster.list, an.Textual) (path content encoding : String) :
    let file := (a.cache.parse a.now path content encoding).1
    ∃ report later, a.analyzeText path content encoding = (report, later) ∧
      report.failed = false ∧
      List.Forall₂ (fun an o => an.Leaves a.roster.isLocked file o)
        (a.roster.list.filter (a.wants file)) report.outcomes ∧
      report.isPartial = .bool (!report.parseErrors.isEmpty) ∧
      later.counts.runs + later.counts.skipped =
        a.counts.runs + a.counts.skipped + a.roster.list.length := by
  intro file
  -- a file from the cache is as genuine as a fresh parse, under whatever key it was stored
  have hfaithful : a.cache.Faithful a.cache.grammar (content :: contents) :=
    hcache.faithful.mono fun _ h => List.mem_cons_of_mem _ h
  obtain ⟨_, hgenuine, _⟩ := hfaithful.parse List.mem_cons_self a.now path encoding
  have hpartial : file.isPartial = !file.faults.isEmpty := hgenuine.isPartial_eq hgrammar
  rw [analyzeText_eq hfault]
  exact analyzeParsed_ok
    (a := { a with cache := (a.cache.parse a.now path content encoding).2 }) hpartial
    (fun an han => asks_ok hsettings (hendings an han) file) htextual a.now

/-- An analyzer for PHP files that gives one answer to everything. -/
def fixedAnalyzer (name : Key) (recovers : Bool) (answer : Analyzer.Answer) : Analyzer :=
  .foreign name (.list [.str "php"]) recovers fun _ _ => { answer }

/-- An outcome with one finding. -/
def remark : Outcome :=
  { analyzer := .str "plain", filePath := .str "a.php"
    findings :=
      [{ title := .str "remark", description := .str "", severity := .low, category := .quality }] }

/-- An analyzer that breaks down, one that answers with something else, one that stays away from
files with faults, and one that does its work. -/
def unrulyAnalyzers : List Analyzer :=
  [fixedAnalyzer "loud" true (.crash "ValueError" "no"), fixedAnalyzer "odd" true (.other "dict"),
   fixedAnalyzer "strict" false (.outcome remark), fixedAnalyzer "plain" true (.outcome remark)]

/-- An audit with these analyzers. -/
def unrulyAudit : Audit where
  settings := Settings.defaults
  cache := TreeCache.wordCache
  roster := { members := unrulyAnalyzers.map fun an => (an.name, an) }

/-- On a text that the parser breaks down on, three of the four are asked, and all is in order. -/
theorem unrulyAudit_isolates :
    let file := (unrulyAudit.cache.parse unrulyAudit.now "a.php" "two words" "utf-8").1
    unrulyAudit.cache.Reachable [] ∧ unrulyAudit.cache.grammar.Whole ∧
      unrulyAudit.settings.Admitted ∧
      (unrulyAudit.roster.list.filter (unrulyAudit.wants file)).map (fun an => an.name.plain) =
        ["loud", "odd", "plain"] ∧
      ∃ report later, unrulyAudit.analyzeText "a.php" "two words" "utf-8" = (report, later) ∧
        report.failed = false ∧
        List.Forall₂ (fun an o => an.Leaves unrulyAudit.roster.isLocked file o)
          (unrulyAudit.roster.list.filter (unrulyAudit.wants file)) report.outcomes ∧
        report.isPartial = .bool (!report.parseErrors.isEmpty) ∧
        later.counts.runs + later.counts.skipped = unrulyAudit.counts.runs +
          unrulyAudit.counts.skipped + unrulyAudit.roster.list.length := by
  intro file
  have hcache : unrulyAudit.cache.Reachable [] := ⟨TreeCache.wordCache, 0.0, [], rfl, by simp, rfl⟩
  have hwhole : unrulyAudit.cache.grammar.Whole := by
    intro text tree faults h
    change TreeCache.wordGrammar.parse text = _ at h
    simp only [TreeCache.wordGrammar] at h
    split at h
    · cases h
    · cases h
      rfl
  have hcrew : unrulyAudit.roster.list = unrulyAnalyzers := rfl
  have hendings : ∀ an ∈ unrulyAudit.roster.list, an.ListsEndings := by
    rw [hcrew]
    simp [unrulyAnalyzers, fixedAnalyzer, Analyzer.ListsEndings, Analyzer.extensions]
  have htextual : ∀ an ∈ unrulyAudit.roster.list, an.Textual := by
    rw [hcrew]
    have hremark : ∀ f ∈ remark.findings, f.Textual := by
      intro f hf
      rw [List.mem_singleton.1 hf]
      exact ⟨⟨_, rfl⟩, ⟨_, rfl⟩, ⟨_, rfl⟩⟩
    simpa [unrulyAnalyzers, fixedAnalyzer, Analyzer.Textual, Analyzer.react] using hremark
  exact ⟨hcache, hwhole, Settings.admitted_defaults, by decide +kernel,
    analyzeText_isolates_analyzers unrulyAudit [] hcache rfl hwhole Settings.admitted_defaults
      hendings htextual "a.php" "two words" "utf-8"⟩

end Audit

end PhpAudit
