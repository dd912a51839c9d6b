/-
**The security analyzer with the default settings.**

Under the default settings the security analyzer registers all security rules as they are, so its
line-up is the list of these rules.  All of them sign their findings.  So for every file the
analyzer comes to an outcome, and its findings are those of the security rules at the places of the
tree within the depth limit.

Main definitions:

* `RuledAnalyzer.given`, `RuledAnalyzer.bookOf` — the settings that a run gives the security rules,
  and the book of the rules with them;
* `RuledAnalyzer.standardSecurity` — the security analyzer with the default settings.

Main results:

* `RuledAnalyzer.keeps_securityBook` — the line-up of the security rules with any settings;
* `RuledAnalyzer.make_given` — the analyzer that a run makes;
* `RuledAnalyzer.standardSecurity_keeps` — the line-up of the analyzer are the security rules;
* `RuledAnalyzer.standardSecurity_analyze` — **what the analyzer finds in a file**.
-/

import PhpAudit.Proofs.Rule.Sweep
import PhpAudit.Proofs.Security.Inspections

set_option autoImplicit false

namespace PhpAudit

open Walk (Place Trail)

/-! ### The analyzer -/

/-- Rules that come in, each under an identifier of its own, line up behind those that are there as
far as they are admitted. -/
theorem Lineup.foldl_step_add (securityOnly : Bool) (settings : Rule → Dict) {l rs : List Rule}
    (hdistinct : Lineup.Distinct (l ++ rs)) :
    (rs.map fun r => RuleBook.Op.add r (settings r)).foldl (step securityOnly) l =
      l ++ rs.filterMap fun r => admitted securityOnly r (settings r) := by
  induction rs generalizing l with
  | nil => exact (List.append_nil l).symm
  | cons r rs ih =>
      rw [Distinct, List.map_append, List.map_cons] at hdistinct
      rw [List.map_cons, List.foldl_cons, step]
      cases hadmitted : admitted securityOnly r (settings r) with
      | none =>
          rw [List.filterMap_cons, hadmitted]
          refine ih ?_
          rw [Distinct, List.map_append]
          exact hdistinct.sublist ((List.sublist_cons_self _ _).append_left _)
      | some r' =>
          have hprofile : r'.profile = r.profile := (of_admitted hadmitted).1
          have hnew : (l.any fun s => s.profile.id == r'.profile.id) = false := by
            refine Bool.eq_false_iff.2 fun hknown => ?_
            obtain ⟨s, hs, hid⟩ := List.any_eq_true.1 hknown
            refine (List.nodup_append.1 hdistinct).2.2 _ (List.mem_map_of_mem hs) _
              List.mem_cons_self ?_
            rw [← hprofile]
            exact eq_of_beq hid
          have hlast : enlist l r' = l ++ [r'] := by
            rw [enlist, hnew]
            rfl
          have hdistinct' : Distinct (l ++ [r'] ++ rs) := by
            rw [Distinct, List.map_append, List.map_append, List.append_assoc, List.map_singleton,
              hprofile]
            exact hdistinct
          have hrest := ih hdistinct'
          rw [List.append_assoc, List.singleton_append] at hrest
          rw [List.filterMap_cons, hadmitted, Option.elim, hlast]
          exact hrest

namespace RuledAnalyzer

/-- A book that takes in the security rules with any settings keeps those that are admitted. -/
theorem keeps_securityBook (settings : Rule → Dict) :
    (RuleBook.run { securityOnly := true }
      (Security.rules.map fun r => .add r (settings r))).Keeps
      (Security.rules.filterMap fun r => Lineup.admitted true r (settings r)) := by
  have hdistinct : Lineup.Distinct ([] ++ Security.rules) := by
    unfold Lineup.Distinct
    decide
  have hkeeps := (RuleBook.keeps_empty true).run
    (Security.rules.map fun r => .add r (settings r))
  rw [Lineup.foldl_step_add true settings hdistinct, List.nil_append] at hkeeps
  exact hkeeps

/-- The settings that a run gives a security rule. -/
def given (run : Settings) (id : String) : Except Misuse Dict := do
  let own ← run.analyzerSettings Kind.security.name
  let defaults ← ruleDefaults .security run own id
  let more ← (← run.ruleSettings id).pairs
  return Assoc.update defaults more

/-- The same, and none if the run has no settings to give. -/
def givenTo (run : Settings) (r : Rule) : Dict :=
  (given run r.profile.id).toOption.getD []

theorem givenTo_eq {run : Settings} {r : Rule} {d : Dict} (h : given run r.profile.id = .ok d) :
    givenTo run r = d := by
  rw [givenTo, h]
  rfl

theorem fill_given {run : Settings} {own : Value}
    (hown : run.analyzerSettings Kind.security.name = .ok own) {rs : List Rule}
    (hrs : rs ⊆ Security.rules) (h : ∀ r ∈ rs, ∃ d, given run r.profile.id = .ok d)
    (b : RuleBook) :
    fill .security run own rs b = .ok (b.run (rs.map fun r => .add r (givenTo run r))) := by
  induction rs generalizing b with
  | nil => rfl
  | cons r rs ih =>
      obtain ⟨d, hd⟩ := h r List.mem_cons_self
      obtain ⟨hr, hrs⟩ := List.cons_subset.1 hrs
      have hadd := Security.add_failure_eq_none hr b d
      have hrest := ih hrs (fun r' hr' => h r' (List.mem_cons_of_mem _ hr')) (b.add r d).book
      have hgiven : givenTo run r = d := givenTo_eq hd
      obtain ⟨own', hown', hd⟩ := of_bind_eq_ok hd
      cases hown.symm.trans hown'
      obtain ⟨defaults, hdefaults, hd⟩ := of_bind_eq_ok hd
      obtain ⟨section', hsection, hd⟩ := of_bind_eq_ok hd
      obtain ⟨more, hmore, hd⟩ := of_bind_eq_ok hd
      cases hd
      unfold fill
      rw [hdefaults, hsection]
      simp only [bind, Except.bind, hmore, hadd]
      rw [hrest, List.map_cons, hgiven]
      rfl

/-- The book of the security rules with the settings that a run gives them. -/
def bookOf (run : Settings) : RuleBook :=
  RuleBook.run { securityOnly := true } (Security.rules.map fun r => .add r (givenTo run r))

theorem make_given {run : Settings} {own : Value}
    (hown : run.analyzerSettings Kind.security.name = .ok own)
    (h : ∀ r ∈ Security.rules, ∃ d, given run r.profile.id = .ok d) :
    make .security run = .ok { kind := .security, settings := own, book := bookOf run } := by
  have hfill : fill .security run own Kind.security.rules
      { securityOnly := Kind.security == .security } = .ok (bookOf run) :=
    fill_given hown (List.Subset.refl _) h _
  unfold make
  simp only [hown, bind, Except.bind]
  rw [hfill]
  rfl

/-- What the default settings give each security rule. -/
def standardSettings : Dict :=
  [("confidence_threshold", .float 0.5)]

/-- The security analyzer with the default settings. -/
def standardSecurity : RuledAnalyzer :=
  { kind := .security
    settings := .dict []
    book := RuleBook.run { securityOnly := true } (Security.rules.map (.add · standardSettings)) }

theorem make_security : make .security Settings.defaults = .ok standardSecurity := by
  have hgiven (r : Rule) : given Settings.defaults r.profile.id = .ok standardSettings := rfl
  have hadd : (fun r => RuleBook.Op.add r (givenTo Settings.defaults r)) =
      (RuleBook.Op.add · standardSettings) := by
    funext r
    rw [givenTo_eq (hgiven r)]
  rw [make_given rfl fun r _ => ⟨_, hgiven r⟩, bookOf, hadd]
  rfl

/-- The default settings change nothing in the security rules. -/
theorem filterMap_admitted_standard :
    (Security.rules.filterMap fun r => Lineup.admitted true r standardSettings) =
      Security.rules := by
  rfl

theorem standardSecurity_keeps : standardSecurity.book.Keeps Security.rules := by
  have hkeeps := keeps_securityBook fun _ => standardSettings
  rw [filterMap_admitted_standard] at hkeeps
  exact hkeeps

/-- What the rules of the analyzer find at a node is signed. -/
theorem signed_of_mem_foundAt {file : SourceFile} {n : Node} {trail : Trail} {f : Finding}
    (h : f ∈ Lineup.foundAt Security.rules file n trail) :
    ∃ r ∈ Security.rules, r.profile.appliesTo n.kind = true ∧
      f ∈ RuleBook.findingsOf n ⟨file, trail⟩ r ∧
      f.ruleId = .str r.profile.id ∧ f.At n file ∧ f.Rated := by
  obtain ⟨r, hr, hf⟩ := List.mem_flatMap.1 h
  obtain ⟨hmem, happlies⟩ := Lineup.mem_dispatch.1 (List.mem_filter.1 hr).1
  exact ⟨r, hmem, happlies, hf, (Security.signs_of_mem_rules hmem).of_mem_findingsOf hf⟩

/-- **What the security analyzer finds in a file.**  It comes to an outcome.  What the rules find
at a place within the depth limit is in it, but for added facts and references, and there is
nothing else in it. -/
theorem standardSecurity_analyze (file : SourceFile) :
    ∃ outcome, standardSecurity.analyze file = .ok outcome ∧
      (∀ p ∈ Walk.placesIn [] [file.tree.root], ({} : Walk.Options).reaches p = true →
        ∃ trail : Trail, trail.Shows p ∧
          ∀ f ∈ Lineup.foundAt Security.rules file p.node trail,
            ∃ g ∈ outcome.findings, f.Annotated g) ∧
      ∀ g ∈ outcome.findings, ∃ p ∈ Walk.placesIn [] [file.tree.root], ∃ trail : Trail,
        trail.Shows p ∧ ∃ f ∈ Lineup.foundAt Security.rules file p.node trail, f.Annotated g := by
  obtain ⟨visits, hplaces, hshown, hfindings⟩ := standardSecurity_keeps.sweep_findings file
  have hrated : ∀ f ∈ (standardSecurity.book.sweep file).1.findings, f.Rated := by
    intro f hf
    rw [hfindings] at hf
    obtain ⟨visit, _, hf⟩ := List.mem_flatMap.1 hf
    obtain ⟨_, _, _, _, _, _, hrated⟩ := signed_of_mem_foundAt hf
    exact hrated
  obtain ⟨outcome, houtcome, hforth, hback⟩ := analyze_ok rfl file hrated
  refine ⟨outcome, houtcome, ?_, ?_⟩
  · intro p hp hreached
    have hvisited : p ∈ visits.map Prod.fst := by
      rw [hplaces]
      exact List.mem_filter.2 ⟨hp, hreached⟩
    obtain ⟨visit, hvisit, rfl⟩ := List.mem_map.1 hvisited
    refine ⟨visit.2, hshown visit hvisit, fun f hf => hforth f ?_⟩
    rw [hfindings]
    exact List.mem_flatMap.2 ⟨visit, hvisit, hf⟩
  · intro g hg
    obtain ⟨f, hf, hfg⟩ := hback g hg
    rw [hfindings] at hf
    obtain ⟨visit, hvisit, hf⟩ := List.mem_flatMap.1 hf
    have hplace : visit.1 ∈ visits.map Prod.fst := List.mem_map_of_mem hvisit
    rw [hplaces] at hplace
    exact ⟨visit.1, (List.mem_filter.1 hplace).1, visit.2, hshown visit hvisit, f, hf, hfg⟩

end RuledAnalyzer

end PhpAudit
