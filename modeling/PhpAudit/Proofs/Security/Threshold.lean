/-
**Raising the threshold takes findings away and does nothing else.**

The settings of a run reach the security rules through the settings of the analyzer and those of
each rule.  Two runs that give all security rules the same settings but for the gate take up the
same rules, ask them at the same places in the same order, and rate and sort what they find by the
same numbers.  So if the gates of the second run ask for no less, its findings are those of the
first run with enough confidence, in the order in which they were.

Main definitions:

* `RuledAnalyzer.Tightens` — a run and one whose gates ask for no less;
* `RuledAnalyzer.meets` — whether a finding has the confidence that a run asks for;
* `RuledAnalyzer.ReportedOn` — the evidence on which a finding was reported.

Main results:

* `RuledAnalyzer.Tightens.exists_pairs` — the two runs take up the same rules;
* `RuledAnalyzer.Tightens.sweep_eq` — what the walk of the second run finds;
* `RuledAnalyzer.arrange_filter` — rating and sorting does not matter to what is picked;
* `RuledAnalyzer.tighter_run_keeps_confident_findings` — **the outcomes of the two runs**.
-/

import PhpAudit.Proofs.Security.Standard
import PhpAudit.Proofs.Stable

set_option autoImplicit false

namespace PhpAudit

open Walk (Place Trail)

namespace RuledAnalyzer

/-! ### Sorting what was picked -/

/-- Findings that are picked before they are rated and sorted come out as if they were picked
afterwards. -/
theorem arrange_filter {found arranged : List Finding} (hrated : ∀ f ∈ found, f.Rated)
    (h : arrange .security found = .ok arranged) {keep : Finding → Bool}
    (hkeep : ∀ f g, f.Annotated g → keep g = keep f) :
    arrange .security (found.filter keep) = .ok (arranged.filter keep) := by
  unfold arrange at h ⊢
  obtain ⟨rated, hmap, h⟩ := of_bind_eq_ok h
  cases h
  have hpick : (found.filter keep).mapM assessed = .ok (rated.filter fun y => keep y.2) := by
    refine mapM_filter hmap fun f hf y hy => ?_
    obtain ⟨_, g, hg, hfg⟩ := assessed_ok (hrated f hf)
    rw [hg] at hy
    cases hy
    exact hkeep f g hfg
  -- The sort reads priorities only, and equal ones keep their order.
  have hsort : (rated.mergeSort fun a b => decide (b.1 ≤ a.1)).filter (fun y => keep y.2) =
      (rated.filter fun y => keep y.2).mergeSort fun a b => decide (b.1 ≤ a.1) := by
    refine filter_mergeSort (fun a b c hab hbc => ?_) (fun a b => ?_) _ _
    · simp only [decide_eq_true_eq] at hab hbc ⊢
      omega
    · simp only [Bool.or_eq_true, decide_eq_true_eq]
      omega
  have hmapped : ∀ ys : List (Int × Finding),
      (ys.filter fun y => keep y.2).map Prod.snd = (ys.map Prod.snd).filter keep := by
    intro ys
    rw [List.filter_map]
    rfl
  rw [← hmapped, hsort]
  simp only [beq_self_eq_true, if_true, hpick]
  rfl

/-! ### Two runs -/

/-- The least confidence that a run asks of the findings of a security rule. -/
def thresholdOf (run : Settings) (id : String) : Option Number :=
  (given run id).toOption.bind Rule.threshold?

/-- Whether the confidence of a finding is at least the threshold of its rule. -/
def meets (run : Settings) (f : Finding) : Bool :=
  f.ruleId.str?.any fun id => (thresholdOf run id).any fun t => t.le (.float f.confidence)

/-- The second run differs from the first one in the gates of the security rules only, and none of
its gates asks for less: the first run is strict, or its thresholds are not higher. -/
def Tightens (before after : Settings) : Prop :=
  ∀ r ∈ Security.rules, ∃ d d', given before r.profile.id = .ok d ∧
    given after r.profile.id = .ok d' ∧ Rule.Narrows d d'

variable {run : Settings}

theorem of_given {id : String} {d : Dict} (h : given run id = .ok d) : Dict.Once d ∧ d ≠ [] := by
  obtain ⟨own, _, h⟩ := of_bind_eq_ok h
  obtain ⟨defaults, hdefaults, h⟩ := of_bind_eq_ok h
  obtain ⟨section', _, h⟩ := of_bind_eq_ok h
  obtain ⟨more, _, h⟩ := of_bind_eq_ok h
  cases h
  obtain ⟨threshold, _, hdefaults⟩ := of_bind_eq_ok hdefaults
  obtain ⟨entries, _, hdefaults⟩ := of_bind_eq_ok hdefaults
  obtain ⟨own', _, hdefaults⟩ := of_bind_eq_ok hdefaults
  cases hdefaults
  -- The threshold of the run is the first entry; everything else is laid over it.
  have honce : Dict.Once [(.str "confidence_threshold", .float threshold)] :=
    List.pairwise_singleton _ _
  exact ⟨(honce.update _).update _,
    Dict.update_ne_nil (Dict.update_ne_nil (List.cons_ne_nil _ _) _) _⟩

theorem exists_make (h : ∀ r ∈ Security.rules, ∃ d, given run r.profile.id = .ok d) :
    ∃ own, make .security run = .ok { kind := .security, settings := own, book := bookOf run } := by
  obtain ⟨d, hd⟩ := h Security.Sql.rule List.mem_cons_self
  obtain ⟨own, hown, _⟩ := of_bind_eq_ok hd
  exact ⟨own, make_given hown h⟩

/-- The line-up of the analyzer of a run. -/
def lineupOf (run : Settings) : Lineup :=
  Security.rules.filterMap fun r => Lineup.admitted true r (givenTo run r)

theorem bookOf_keeps (run : Settings) : (bookOf run).Keeps (lineupOf run) :=
  keeps_securityBook (givenTo run)

/-- A security rule as two runs have taken it up, where the second run is the tighter one. -/
structure Versions (before after : Settings) (q q' : Rule) : Prop where
  narrowed : Rule.Narrowed q q'
  threshold : ∃ t, thresholdOf after q.profile.id = some t ∧ Rule.threshold? q'.settings = some t
  origin : ∃ r inspect s d, (r, inspect) ∈ Security.inspections ∧
    given before r.profile.id = .ok d ∧ q = r.withSettings d ∧ q.Gated s inspect

variable {before after : Settings}

/-- Each security rule is taken up by both runs or by none. -/
theorem Tightens.admitted_versions (h : Tightens before after) {r : Rule}
    (hr : r ∈ Security.rules) :
    Lineup.admitted true r (givenTo before r) = none ∧
        Lineup.admitted true r (givenTo after r) = none ∨
      ∃ q q', Lineup.admitted true r (givenTo before r) = some q ∧
        Lineup.admitted true r (givenTo after r) = some q' ∧ Versions before after q q' := by
  obtain ⟨d, d', hd, hd', hnarrows⟩ := h r hr
  obtain ⟨inspect, s, hmem, hgated⟩ := Security.exists_gated hr
  obtain ⟨honce, hne⟩ := of_given hd
  obtain ⟨honce', hne'⟩ := of_given hd'
  rw [givenTo_eq hd, givenTo_eq hd']
  refine (hgated.admitted_narrowed honce honce' hne hne' hnarrows).imp_right ?_
  rintro ⟨htaken, htaken', hnarrowed, hthreshold⟩
  obtain ⟨t, ht⟩ := Option.isSome_iff_exists.1 hthreshold
  have hsettings : Rule.threshold? (r.withSettings d').settings = some t :=
    (hgated.threshold?_inForce honce').trans ht
  have hrun : thresholdOf after (r.withSettings d).profile.id = some t := by
    have hid : given after (r.withSettings d).profile.id = .ok d' := hd'
    rw [thresholdOf, hid]
    exact ht
  exact ⟨_, _, htaken, htaken', hnarrowed, ⟨t, hrun, hsettings⟩,
    r, inspect, s, d, hmem, hd, rfl, hgated.withSettings d⟩

/-- The two runs take up the same rules. -/
theorem Tightens.exists_pairs (h : Tightens before after) :
    ∃ pairs : List (Rule × Rule), pairs.map Prod.fst = lineupOf before ∧
      pairs.map Prod.snd = lineupOf after ∧ ∀ p ∈ pairs, Versions before after p.1 p.2 := by
  -- The induction is on the rules that are added, so they have to be some of the security rules.
  suffices hpairs : ∀ rs : List Rule, (∀ r ∈ rs, r ∈ Security.rules) →
      ∃ pairs : List (Rule × Rule),
        pairs.map Prod.fst = rs.filterMap (fun r => Lineup.admitted true r (givenTo before r)) ∧
        pairs.map Prod.snd = rs.filterMap (fun r => Lineup.admitted true r (givenTo after r)) ∧
        ∀ p ∈ pairs, Versions before after p.1 p.2 from
    hpairs Security.rules fun _ hr => hr
  intro rs hrs
  induction rs with
  | nil => exact ⟨[], rfl, rfl, List.forall_mem_nil _⟩
  | cons r rs ih =>
      obtain ⟨pairs, hfst, hsnd, hversions⟩ := ih fun r' hr' => hrs r' (List.mem_cons_of_mem _ hr')
      rw [List.filterMap_cons, List.filterMap_cons]
      rcases h.admitted_versions (hrs r List.mem_cons_self) with
        ⟨hnone, hnone'⟩ | ⟨q, q', hsome, hsome', hversion⟩
      · rw [hnone, hnone']
        exact ⟨pairs, hfst, hsnd, hversions⟩
      · rw [hsome, hsome']
        refine ⟨(q, q') :: pairs, ?_, ?_, ?_⟩
        · rw [List.map_cons, hfst]
        · rw [List.map_cons, hsnd]
        · intro p hp
          rcases List.mem_cons.1 hp with rfl | hp
          · exact hversion
          · exact hversions p hp

theorem meets_annotated {f g : Finding} (h : f.Annotated g) : meets after g = meets after f := by
  obtain ⟨_, _, rfl⟩ := h
  rfl

/-- What a rule finds under the tighter run. -/
theorem Versions.findingsOf_eq {q q' : Rule} (h : Versions before after q q') (n : Node)
    (file : SourceFile) {trail trail' : Trail} (hanc : trail.ancestors = trail'.ancestors) :
    RuleBook.findingsOf n ⟨file, trail'⟩ q' =
      (RuleBook.findingsOf n ⟨file, trail⟩ q).filter (meets after) := by
  obtain ⟨t, ht, ht'⟩ := h.threshold
  obtain ⟨r, inspect, s, d, _, _, _, hgated⟩ := h.origin
  rw [hgated.findingsOf_narrowed h.narrowed ht' n file hanc]
  refine List.filter_congr fun f hf => ?_
  obtain ⟨hid, _, _⟩ := hgated.signs.of_mem_findingsOf hf
  have hmeets : meets after f = (thresholdOf after q.profile.id).any
      fun t => t.le (.float f.confidence) := by
    rw [meets, hid]
    rfl
  rw [hmeets, ht]
  rfl

/-- The finding was reported on the evidence that the inspection of a security rule gave at a place
of the tree. -/
def ReportedOn (run : Settings) (file : SourceFile) (f : Finding) (e : Evidence) : Prop :=
  ∃ r inspect d, (r, inspect) ∈ Security.inspections ∧ given run r.profile.id = .ok d ∧
    ∃ p ∈ Walk.placesIn [] [file.tree.root], ∃ trail : Trail, trail.Shows p ∧
      (∃ x, inspect (r.inForce d) p.node ⟨file, trail⟩ = .ok (some (x, e))) ∧
      f.ruleId = .str r.profile.id ∧ f.At p.node file

theorem ReportedOn.annotated {file : SourceFile} {f g : Finding} {e : Evidence}
    (h : ReportedOn run file f e) (hfg : f.Annotated g) : ReportedOn run file g e := by
  obtain ⟨r, inspect, d, hmem, hd, p, hp, trail, hshown, hinspect, hid, hat⟩ := h
  exact ⟨r, inspect, d, hmem, hd, p, hp, trail, hshown, hinspect, hfg.ruleId.trans hid,
    hfg.at hat⟩

/-- What the walk of the tighter run finds. -/
theorem Tightens.sweep_eq (h : Tightens before after) (file : SourceFile) :
    ((bookOf after).sweep file).1.findings =
      ((bookOf before).sweep file).1.findings.filter (meets after) := by
  obtain ⟨pairs, hfst, hsnd, hversions⟩ := h.exists_pairs
  -- The trails of the two walks may differ; only the ancestors in them are read.
  refine (bookOf_keeps before).sweep_filter (bookOf_keeps after) file ?_
  intro n trail trail' hanc
  rw [← hfst, ← hsnd]
  refine Lineup.foundAt_pairs (fun p hp => ?_) fun p hp => ?_
  · rw [(hversions p hp).narrowed.same]
    exact ⟨rfl, rfl⟩
  · exact (hversions p hp).findingsOf_eq n file hanc

/-- What the walk of a run finds is rated, and was reported on evidence with its confidence. -/
theorem Tightens.reported (h : Tightens before after) {file : SourceFile} {f : Finding}
    (hf : f ∈ ((bookOf before).sweep file).1.findings) :
    f.Rated ∧ ∃ e, ReportedOn before file f e ∧ f.confidence = e.confidence := by
  obtain ⟨pairs, hfst, _, hversions⟩ := h.exists_pairs
  obtain ⟨visits, hplaces, hshown, hfindings⟩ := (bookOf_keeps before).sweep_findings file
  rw [hfindings] at hf
  obtain ⟨visit, hvisit, hf⟩ := List.mem_flatMap.1 hf
  obtain ⟨q, hq, hf⟩ := List.mem_flatMap.1 hf
  have hmem : q ∈ lineupOf before := (Lineup.mem_dispatch.1 (List.mem_filter.1 hq).1).1
  rw [← hfst] at hmem
  obtain ⟨p, hp, rfl⟩ := List.mem_map.1 hmem
  obtain ⟨r, inspect, s, d, hinspections, hd, hsettings, hgated⟩ := (hversions p hp).origin
  obtain ⟨hid, hat, hrated⟩ := hgated.signs.of_mem_findingsOf hf
  obtain ⟨x, e, hinspect, hconfidence⟩ := hgated.of_mem_findingsOf hf
  rw [hsettings] at hid hinspect
  have hplace : visit.1 ∈ visits.map Prod.fst := List.mem_map_of_mem hvisit
  rw [hplaces] at hplace
  exact ⟨hrated, e, ⟨r, inspect, d, hinspections, hd, visit.1, (List.mem_filter.1 hplace).1,
    visit.2, hshown visit hvisit, ⟨x, hinspect⟩, hid, hat⟩, hconfidence⟩

/-- **What is found in a file under a tighter run**: both runs make an analyzer, both analyzers come
to an outcome, and the second outcome has the findings of the first one whose confidence is at least
the threshold of their rule, as they are and in their order.  The confidence of a finding is that of
the evidence on which it was reported. -/
theorem tighter_run_keeps_confident_findings (h : Tightens before after) :
    ∃ a b, make .security before = .ok a ∧ make .security after = .ok b ∧
      ∀ file, ∃ outcome outcome', a.analyze file = .ok outcome ∧ b.analyze file = .ok outcome' ∧
        outcome'.findings = outcome.findings.filter (meets after) ∧
        ∀ f ∈ outcome.findings, ∃ e, ReportedOn before file f e ∧ f.confidence = e.confidence := by
  obtain ⟨own, hmake⟩ := exists_make fun r hr => by
    obtain ⟨d, _, hd, _, _⟩ := h r hr
    exact ⟨d, hd⟩
  obtain ⟨own', hmake'⟩ := exists_make fun r hr => by
    obtain ⟨_, d', _, hd', _⟩ := h r hr
    exact ⟨d', hd'⟩
  refine ⟨_, _, hmake, hmake', fun file => ?_⟩
  have hrated : ∀ f ∈ ((bookOf before).sweep file).1.findings, f.Rated :=
    fun f hf => (h.reported hf).1
  have hrated' : ∀ f ∈ ((bookOf after).sweep file).1.findings, f.Rated := by
    intro f hf
    rw [h.sweep_eq] at hf
    exact hrated f (List.mem_filter.1 hf).1
  obtain ⟨outcome, houtcome, harranged⟩ := analyze_arranged
    (a := { kind := .security, settings := own, book := bookOf before }) rfl file hrated
  obtain ⟨outcome', houtcome', harranged'⟩ := analyze_arranged
    (a := { kind := .security, settings := own', book := bookOf after }) rfl file hrated'
  have hpicked : arrange .security ((bookOf after).sweep file).1.findings =
      .ok (outcome.findings.filter (meets after)) := by
    rw [h.sweep_eq]
    exact arrange_filter hrated harranged fun f g => meets_annotated
  refine ⟨outcome, outcome', houtcome, houtcome', Except.ok.inj (harranged'.symm.trans hpicked), ?_⟩
  -- A finding of the outcome is one of the walk with notes, which leave its evidence alone.
  intro g hg
  obtain ⟨arranged, harrange, _, hback⟩ := arrange_ok hrated
  cases harranged.symm.trans harrange
  obtain ⟨f, hf, hfg⟩ := hback g hg
  obtain ⟨_, e, hreported, hconfidence⟩ := h.reported hf
  exact ⟨e, hreported.annotated hfg, hfg.confidence.trans hconfidence⟩

/-- The default settings with every security rule strict. -/
def alarmed : Settings :=
  Security.rules.foldl
    (fun run r => run.write "rules" r.profile.id (.dict [("strict_mode", .bool true)]))
    Settings.defaults

/-- The default settings with a higher threshold. -/
def composed : Settings :=
  Settings.defaults.write "analysis" "confidence_threshold" (.float 0.8)

theorem composed_tightens_alarmed : Tightens alarmed composed := by
  have hnarrows : Rule.Narrows
      [(.str "confidence_threshold", .float 0.5), (.str "strict_mode", .bool true)]
      [(.str "confidence_threshold", .float 0.8)] := by
    refine ⟨?_, by decide +kernel, Or.inl rfl, Or.inl rfl⟩
    intro key hstrict hthreshold
    have hthreshold' : ¬ ((.str "confidence_threshold" : Key) == .str key) = true := by
      rw [Key.beq_str_iff, Key.str.injEq]
      exact hthreshold.symm
    have hstrict' : ¬ ((.str "strict_mode" : Key) == .str key) = true := by
      rw [Key.beq_str_iff, Key.str.injEq]
      exact hstrict.symm
    simp [Assoc.get?, hthreshold', hstrict']
  have hbefore : ∀ r ∈ Security.rules, given alarmed r.profile.id =
      .ok [(.str "confidence_threshold", .float 0.5), (.str "strict_mode", .bool true)] := by
    intro r hr
    simp only [Security.rules, List.mem_cons, List.not_mem_nil, or_false] at hr
    rcases hr with rfl | rfl | rfl | rfl | rfl | rfl | rfl | rfl | rfl <;> rfl
  have hafter : ∀ r ∈ Security.rules, given composed r.profile.id =
      .ok [(.str "confidence_threshold", .float 0.8)] := by
    intro r hr
    rfl
  exact fun r hr => ⟨_, _, hbefore r hr, hafter r hr, hnarrows⟩

theorem composed_run_keeps_confident_findings :
    Tightens alarmed composed ∧
    ∃ a b, make .security alarmed = .ok a ∧ make .security composed = .ok b ∧
      ∀ file, ∃ outcome outcome', a.analyze file = .ok outcome ∧ b.analyze file = .ok outcome' ∧
        outcome'.findings = outcome.findings.filter (meets composed) ∧
        ∀ f ∈ outcome.findings, ∃ e, ReportedOn alarmed file f e ∧ f.confidence = e.confidence :=
  ⟨composed_tightens_alarmed, tighter_run_keeps_confident_findings composed_tightens_alarmed⟩

end RuledAnalyzer

end PhpAudit
