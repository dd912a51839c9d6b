/-
**The order of the findings in a report.**

Every analyzer that is asked brings its findings as one group, the groups come in the order of the
roster, and the security analyzer has put its group in order of risk.  Then each finding goes whose
fingerprint has come before.  Nothing else happens to the findings, so the order of a report follows
from the file, the settings and the rules.

Main definitions:

* `Report.firsts` — the findings with no earlier finding of the same fingerprint;
* `Audit.Unanswerable` — why there may be no findings at all.

Main results:

* `Report.distinctFrom_eq` — what is kept are the first ones;
* `Audit.analyzeParsed_orders_findings` — **the findings of a report come group by group in the
  order of the roster, security findings by risk**.
-/

import PhpAudit.Proofs.Audit.Isolation
import PhpAudit.Proofs.Security.Order

set_option autoImplicit false

namespace PhpAudit

/-! ### The first of each fingerprint -/

namespace Report

/-- The findings with no earlier finding of the same fingerprint. -/
def firsts (keyed : List (String × Finding)) : List Finding :=
  (keyed.zipIdx.filter fun x => (keyed.take x.2).all fun y => y.1 != x.1.1).map fun x => x.1.2

/-- What is kept behind some findings of which the fingerprints were seen. -/
theorem distinctFrom_eq {seen : List String} {done : List (String × Finding)}
    (hseen : ∀ key, key ∈ seen ↔ key ∈ done.map Prod.fst) (rest : List (String × Finding)) :
    (distinctFrom seen rest).1 = ((rest.zipIdx done.length).filter fun x =>
      ((done ++ rest).take x.2).all fun y => y.1 != x.1.1).map fun x => x.1.2 := by
  induction rest generalizing seen done with
  | nil => rfl
  | cons e rest ih =>
      obtain ⟨key, f⟩ := e
      have hnew : (((done ++ (key, f) :: rest).take done.length).all fun y => y.1 != key) =
          !seen.contains key := by
        rw [List.take_left]
        grind
      have hrest : ∀ seen', (∀ k, k ∈ seen' ↔ k ∈ (done ++ [(key, f)]).map Prod.fst) →
          (distinctFrom seen' rest).1 = ((rest.zipIdx (done.length + 1)).filter fun x =>
            ((done ++ (key, f) :: rest).take x.2).all fun y => y.1 != x.1.1).map
              fun x => x.1.2 := by
        intro seen' hseen'
        have h := ih hseen'
        rwa [List.length_append, List.append_assoc] at h
      rw [distinctFrom, List.zipIdx_cons, List.filter_cons]
      simp only [hnew]
      by_cases hknown : key ∈ seen
      · rw [if_pos (by simpa using hknown), if_neg (by simpa using hknown)]
        exact hrest seen fun k => by grind
      · rw [if_neg (by simpa using hknown), if_pos (by simpa using hknown), List.map_cons]
        exact congrArg (f :: ·) (hrest (key :: seen) fun k => by grind)

theorem firsts_eq_distinctFrom (keyed : List (String × Finding)) :
    firsts keyed = (distinctFrom [] keyed).1 := by
  have hnone : ∀ key, key ∈ ([] : List String) ↔
      key ∈ ([] : List (String × Finding)).map Prod.fst := fun _ => Iff.rfl
  exact (distinctFrom_eq hnone keyed).symm

/-- What is kept of findings that all have a fingerprint. -/
theorem distinct_eq_firsts {all kept : List Finding} {dropped : Nat}
    (h : distinct all = .ok (kept, dropped)) :
    ∃ keyed : List (String × Finding), keyed.map Prod.snd = all ∧
      (∀ e ∈ keyed, e.2.fingerprint = .ok e.1) ∧ kept = firsts keyed ∧
      dropped = (distinctFrom [] keyed).2 := by
  unfold distinct at h
  obtain ⟨keyed, hkeyed, h⟩ := of_bind_eq_ok h
  have hsifted : distinctFrom [] keyed = (kept, dropped) := Except.ok.inj h
  obtain ⟨pairs, hfst, hsnd, hpairs⟩ := exists_pairs_of_map_eq (map_eq_of_mapM_ok hkeyed)
  have hentry : ∀ p ∈ pairs, p.2.2 = p.1 ∧ p.1.fingerprint = .ok p.2.1 := by
    intro p hp
    obtain ⟨key, hkey, hpair⟩ := of_bind_eq_ok (hpairs p hp)
    rw [← Except.ok.inj hpair]
    exact ⟨rfl, hkey⟩
  refine ⟨keyed, ?_, ?_, by rw [firsts_eq_distinctFrom, hsifted], by rw [hsifted]⟩
  · rw [← hsnd, ← hfst, List.map_map]
    exact List.map_congr_left fun p hp => (hentry p hp).1
  · intro e he
    rw [← hsnd] at he
    obtain ⟨p, hp, rfl⟩ := List.mem_map.1 he
    rw [(hentry p hp).1]
    exact (hentry p hp).2

/-- Only a finding without a fingerprint keeps findings from being told apart. -/
theorem exists_of_distinct_error {all : List Finding} {m : Misuse} (h : distinct all = .error m) :
    ∃ f ∈ all, ∃ m', f.fingerprint = .error m' := by
  refine Classical.byContradiction fun hnone => ?_
  obtain ⟨kept, hkept⟩ := distinct_ok fun f hf => by
    cases hkey : f.fingerprint with
    | ok key => exact ⟨key, rfl⟩
    | error m' => exact absurd ⟨f, hf, m', hkey⟩ hnone
  rw [h] at hkept
  cases hkept

end Report

/-! ### The groups -/

/-- A built-in analyzer leaves its group. -/
theorem RuledAnalyzer.group_of_leaves {an : RuledAnalyzer} {locked : Bool} {file : SourceFile}
    {o : Outcome} (h : (Analyzer.builtIn an).Leaves locked file o) :
    o.findings.map (Report.placed file.path) = an.group file := by
  have hok : ∀ {o' : Outcome}, an.analyze file = .ok o' →
      ((Analyzer.builtIn an).react locked file).answer = .outcome o' := by
    intro o' hanalyze
    unfold Analyzer.react
    simp only [hanalyze]
  have herror : ∀ {m : Misuse}, an.analyze file = .error m →
      ((Analyzer.builtIn an).react locked file).answer = .crash m.kind m.message := by
    intro m hanalyze
    unfold Analyzer.react
    simp only [hanalyze]
  unfold group
  cases hanalyze : an.analyze file with
  | ok o' =>
      have hreact := hok hanalyze
      cases h with
      | own h =>
          rw [hreact] at h
          cases h
          rfl
      | other h time =>
          rw [hreact] at h
          cases h
      | crash h time =>
          rw [hreact] at h
          cases h
  | error m =>
      have hreact := herror hanalyze
      cases h with
      | own h =>
          rw [hreact] at h
          cases h
      | other h time => rfl
      | crash h time => rfl

namespace Audit

/-- The groups stand one after the other. -/
theorem allFindings_of_leaves {locked : Bool} {file : SourceFile} {asked : List RuledAnalyzer}
    {outcomes : List Outcome}
    (h : List.Forall₂ (fun an o => Analyzer.Leaves an locked file o) (asked.map .builtIn)
      outcomes) :
    Report.allFindings file.path outcomes = asked.flatMap fun an => an.group file := by
  rw [List.forall₂_map_left_iff] at h
  induction h with
  | nil => rfl
  | cons hleaves _ ih =>
      rw [Report.allFindings] at ih
      rw [Report.allFindings, List.flatMap_cons, List.flatMap_cons, ih,
        RuledAnalyzer.group_of_leaves hleaves]

/-- There are outcomes unless it cannot be said of some analyzer whether it is asked. -/
theorem consultAll_error_iff {file : SourceFile} {ans : List Analyzer} {a : Audit} :
    (∃ m, (consultAll file ans a).1 = .error m) ↔ ∃ an ∈ ans, ∃ m, a.asks an file = .error m := by
  constructor
  · rintro ⟨m, hm⟩
    refine Classical.byContradiction fun hnone => ?_
    obtain ⟨outcomes, houtcomes, _⟩ := consultAll_leaves file ans a fun an han => by
      cases hasks : a.asks an file with
      | ok wanted => exact ⟨wanted, rfl⟩
      | error m' => exact absurd ⟨an, han, m', hasks⟩ hnone
    rw [hm] at houtcomes
    cases houtcomes
  · rintro ⟨an', han', m, hm⟩
    induction ans generalizing a with
    | nil => cases han'
    | cons an ans ih =>
        unfold consultAll
        cases hasks : a.asks an file with
        | error m' => exact ⟨m', rfl⟩
        | ok wanted =>
            have hrest : an' ∈ ans := by
              rcases List.mem_cons.1 han' with rfl | hrest
              · rw [hasks] at hm
                cases hm
              · exact hrest
            cases wanted with
            | false => exact ih hrest hm
            | true =>
                have hlater := (a.consult_later an file).settings
                obtain ⟨m', hm'⟩ := ih hrest ((asks_congr hlater an' file).trans hm)
                exact ⟨m', by simp only [hm']; rfl⟩

/-- A report about a parsed file is that of a failure, or it has what is kept of the findings of all
outcomes. -/
theorem analyzeParsed_cases (a : Audit) (file : SourceFile) (started : Float) :
    let report := (a.analyzeParsed file started).1
    let answers := (consultAll file a.roster.list a).1
    (report.failed = true ∧ report.findings = [] ∧
        ((∃ m, soundLines? file = .error m) ∨ (∃ m, answers = .error m) ∨
          ∃ outcomes m, answers = .ok outcomes ∧
            Report.distinct (Report.allFindings file.path outcomes) = .error m)) ∨
      (report.failed = false ∧ ∃ outcomes dropped, answers = .ok outcomes ∧
        Report.distinct (Report.allFindings file.path outcomes) =
          .ok (report.findings, dropped)) := by
  dsimp only
  unfold analyzeParsed
  dsimp only
  cases soundLines? file with
  | error m => exact .inl ⟨rfl, rfl, .inl ⟨m, rfl⟩⟩
  | ok lines =>
      generalize consultAll file a.roster.list a = consulted
      obtain ⟨answers, b⟩ := consulted
      cases answers with
      | error m => exact .inl ⟨rfl, rfl, .inr (.inl ⟨m, rfl⟩)⟩
      | ok outcomes =>
          simp only [Report.collect, bind, Except.bind]
          cases hdistinct : Report.distinct (Report.allFindings file.path outcomes) with
          | error m => exact .inl ⟨rfl, rfl, .inr (.inr ⟨outcomes, m, rfl, hdistinct⟩)⟩
          | ok sifted => exact .inr ⟨rfl, outcomes, sifted.2, rfl, hdistinct⟩

/-- Why there is a report without findings about a parsed file: only a part of it was parsed and no
fault is known, or it cannot be said whether an analyzer is asked, or a finding has no
fingerprint. -/
def Unanswerable (a : Audit) (file : SourceFile) (all : List Finding) : Prop :=
  (∃ m, soundLines? file = .error m) ∨
    (∃ an ∈ a.roster.list, ∃ m, a.asks an file = .error m) ∨
    ∃ f ∈ all, ∃ m, f.fingerprint = .error m

/-- The findings of all outcomes are the groups of the analyzers that were asked. -/
theorem allFindings_of_consultAll {a : Audit} {analyzers : List RuledAnalyzer}
    (hroster : a.roster.list = analyzers.map .builtIn) {file : SourceFile}
    {outcomes : List Outcome} (h : (consultAll file a.roster.list a).1 = .ok outcomes) :
    Report.allFindings file.path outcomes =
      (analyzers.filter fun an => a.wants file (.builtIn an)).flatMap fun an => an.group file := by
  obtain ⟨outcomes', houtcomes', hleaves⟩ := consultAll_leaves file a.roster.list a fun an han => by
    cases hasks : a.asks an file with
    | ok wanted => exact ⟨wanted, rfl⟩
    | error m =>
        obtain ⟨m', hm'⟩ := consultAll_error_iff.2 ⟨an, han, m, hasks⟩
        rw [h] at hm'
        cases hm'
  rw [h] at houtcomes'
  cases houtcomes'
  rw [hroster, List.filter_map] at hleaves
  exact allFindings_of_leaves hleaves

/-! ### The report -/

/-- **The findings of a report come group by group in the order of the roster, security findings by
risk.**  The analyzers may be any built-in ones with any rules and settings, and the file and its
tree any at all.  The findings are those of the groups, one after the other, without those of which
the fingerprint has come before; where the question cannot be answered there are none.  In the group
of the security analyzer they come by the priority of the risk, the highest first, then by the place
of the node in pre-order, then by the risk level of the rule, and then in the order in which the
rules were registered. -/
theorem analyzeParsed_orders_findings (a : Audit) (analyzers : List RuledAnalyzer)
    (hroster : a.roster.list = analyzers.map .builtIn)
    (hservice : ∀ an ∈ analyzers, an.InService) (file : SourceFile) (started : Float) :
    let report := (a.analyzeParsed file started).1
    let asked := analyzers.filter fun an => a.wants file (.builtIn an)
    let all := asked.flatMap fun an => an.group file
    ((report.failed = true ∧ report.findings = [] ∧ a.Unanswerable file all) ∨
      (report.failed = false ∧ ∃ keyed : List (String × Finding), keyed.map Prod.snd = all ∧
        (∀ e ∈ keyed, e.2.fingerprint = .ok e.1) ∧ report.findings = Report.firsts keyed)) ∧
    ∀ an ∈ analyzers, an.kind = .security →
      (∀ r ∈ Assoc.values an.book.entries, r.profile.security.isSome = true) ∧
      ∃ sightings : List Sighting, an.group file = sightings.map Sighting.shown ∧
        (∀ s ∈ sightings, s.MadeBy (Assoc.values an.book.entries) file) ∧
        sightings.Pairwise (Sighting.Before (Assoc.values an.book.entries)) := by
  intro report asked all
  refine ⟨?_, fun an han hkind => ?_⟩
  · rcases a.analyzeParsed_cases file started with ⟨hfailed, hnone, hwhy⟩ |
      ⟨hfailed, outcomes, dropped, hanswers, hdistinct⟩
    · refine .inl ⟨hfailed, hnone, ?_⟩
      rcases hwhy with hlines | hanswers | ⟨outcomes, m, hanswers, hdistinct⟩
      · exact .inl hlines
      · exact .inr (.inl (consultAll_error_iff.1 hanswers))
      · rw [allFindings_of_consultAll hroster hanswers] at hdistinct
        exact .inr (.inr (Report.exists_of_distinct_error hdistinct))
    · rw [allFindings_of_consultAll hroster hanswers] at hdistinct
      obtain ⟨keyed, hall, hkeys, hfirsts, _⟩ := Report.distinct_eq_firsts hdistinct
      exact .inr ⟨hfailed, keyed, hall, hkeys, hfirsts⟩
  · obtain ⟨hkeeps, hsecurity⟩ := (hservice an han).keeps
    exact ⟨hsecurity hkind, RuledAnalyzer.group_byRisk hkind hkeeps file⟩

/-- The built-in analyzers with the default settings. -/
def standardAnalyzers : List RuledAnalyzer :=
  (RuledAnalyzer.defaults Settings.defaults).toOption.getD []

theorem defaults_eq_standardAnalyzers :
    RuledAnalyzer.defaults Settings.defaults = .ok standardAnalyzers := by
  have hmade : (RuledAnalyzer.defaults Settings.defaults).toOption.isSome := by decide +kernel
  unfold standardAnalyzers
  cases h : RuledAnalyzer.defaults Settings.defaults with
  | error m =>
      rw [h] at hmade
      cases hmade
  | ok made => rfl

theorem kinds_standardAnalyzers :
    standardAnalyzers.map RuledAnalyzer.kind = RuledAnalyzer.Kind.all := by
  decide +kernel

/-- A fresh audit takes in one analyzer of each kind. -/
theorem roster_welcome (settings : Settings) (cache : TreeCache Float) {made : List RuledAnalyzer}
    (h : made.map RuledAnalyzer.kind = RuledAnalyzer.Kind.all) :
    (Audit.welcome { settings, cache } (made.map .builtIn)).roster.list = made.map .builtIn := by
  -- The names of the four kinds differ, so none of the analyzers takes the place of another.
  obtain ⟨⟨_, _, _⟩, _, rfl, rfl, h1⟩ := List.map_eq_cons_iff.1 h
  obtain ⟨⟨_, _, _⟩, _, rfl, rfl, h2⟩ := List.map_eq_cons_iff.1 h1
  obtain ⟨⟨_, _, _⟩, _, rfl, rfl, h3⟩ := List.map_eq_cons_iff.1 h2
  obtain ⟨⟨_, _, _⟩, _, rfl, rfl, h4⟩ := List.map_eq_cons_iff.1 h3
  cases List.map_eq_nil_iff.1 h4
  rfl

theorem standard_eq {settings : Settings} {grammar : Grammar} {a : Audit}
    {made : List RuledAnalyzer} (ha : make settings grammar = .ok a)
    (hmade : RuledAnalyzer.defaults a.settings = .ok made) :
    standard settings grammar = .ok (a.welcome (made.map .builtIn)) := by
  rw [standard, ha]
  show a.withBuiltIn = _
  rw [withBuiltIn, hmade]
  rfl

/-- A call of a function with a variable for its argument, alone on a line. -/
def plainCall (function argument : String) (line : Int) : Node :=
  { kind := "function_call_expression"
    span := { startLine := line }
    children :=
      [{ kind := "name"
         span := { startLine := line }
         field := some "function"
         text := function },
       { kind := "arguments"
         span := { startLine := line }
         field := some "arguments"
         children :=
           [{ kind := "argument"
              span := { startLine := line }
              children :=
                [{ kind := "variable_name"
                   span := { startLine := line }
                   text := argument }] }] }] }

/-- A file with two calls, of which the second is the graver one. -/
def twoCalls : SourceFile :=
  { path := "src/app.php"
    content := "<?php md5($x);\nsystem($y);\n"
    digest := ""
    tree :=
      { root :=
          { kind := "program"
            span := { startLine := 1, endLine := 3 }
            children := [plainCall "md5" "$x" 1, plainCall "system" "$y" 2] }
        nodeCount := 11 } }

/-- The audit with all built-in analyzers reports on the two calls in order. -/
theorem standard_orders_findings :
    ∃ a, standard Settings.defaults TreeCache.wordGrammar = .ok a ∧
      a.roster.list = standardAnalyzers.map .builtIn ∧
      standardAnalyzers.map RuledAnalyzer.kind = RuledAnalyzer.Kind.all ∧
      (∀ an ∈ standardAnalyzers, an.InService) ∧
      let report := (a.analyzeParsed twoCalls 0.0).1
      let asked := standardAnalyzers.filter fun an => a.wants twoCalls (.builtIn an)
      let all := asked.flatMap fun an => an.group twoCalls
      ((report.failed = true ∧ report.findings = [] ∧ a.Unanswerable twoCalls all) ∨
        (report.failed = false ∧ ∃ keyed : List (String × Finding), keyed.map Prod.snd = all ∧
          (∀ e ∈ keyed, e.2.fingerprint = .ok e.1) ∧ report.findings = Report.firsts keyed)) ∧
      ∀ an ∈ standardAnalyzers, an.kind = .security →
        (∀ r ∈ Assoc.values an.book.entries, r.profile.security.isSome = true) ∧
        ∃ sightings : List Sighting, an.group twoCalls = sightings.map Sighting.shown ∧
          (∀ s ∈ sightings, s.MadeBy (Assoc.values an.book.entries) twoCalls) ∧
          sightings.Pairwise (Sighting.Before (Assoc.values an.book.entries)) := by
  have hservice : ∀ an ∈ standardAnalyzers, an.InService := by
    intro an han
    obtain ⟨kind, _, hmake⟩ := (mem_of_mapM_ok defaults_eq_standardAnalyzers).2 an han
    exact .made hmake
  obtain ⟨cache, hfresh⟩ : ∃ cache, make Settings.defaults TreeCache.wordGrammar =
      .ok { settings := Settings.defaults, cache } := ⟨_, rfl⟩
  have hroster := roster_welcome Settings.defaults cache kinds_standardAnalyzers
  exact ⟨_, standard_eq hfresh defaults_eq_standardAnalyzers, hroster, kinds_standardAnalyzers,
    hservice, analyzeParsed_orders_findings _ standardAnalyzers hroster hservice twoCalls 0.0⟩

end Audit

end PhpAudit
