/-
**The security analyzer reports by risk, and among equals as it was found.**

A walk finds things place by place in pre-order, and at each place rule by rule in the order in
which the rules are asked.  The security analyzer rates what was found and sorts it by priority.
The sort is stable, so what the walk has put in order stays so among findings of one priority.

Main definitions:

* `RuledAnalyzer.InService` — an analyzer made from settings, whose rules may have changed since;
* `Spot`, `Spot.Before` — something found, with its place and its rule, and the order of the walk;
* `Sighting`, `Sighting.Before` — the same with its rating, and the order of the report;
* `RuledAnalyzer.group` — what an analyzer brings into the report about a file.

Main results:

* `RuledAnalyzer.InService.keeps` — the book of an analyzer in service keeps a line-up;
* `RuleBook.Keeps.sweep_spots` — what a walk finds, in the order of the walk;
* `RuledAnalyzer.group_byRisk` — **what the security analyzer brings in, in the order of the
  report**.
-/

import PhpAudit.Proofs.Rule.Sweep
import PhpAudit.Proofs.Security.Analysis
import PhpAudit.Proofs.Stable
import PhpAudit.Report.Collect

set_option autoImplicit false

namespace PhpAudit

open Walk (Place Trail)

/-! ### Lists side by side -/

/-- Two lists that agree under some view can be gone through side by side. -/
theorem exists_pairs_of_map_eq {α β γ : Type} {f : α → γ} {g : β → γ} {xs : List α} {ys : List β}
    (h : xs.map f = ys.map g) :
    ∃ pairs : List (α × β), pairs.map Prod.fst = xs ∧ pairs.map Prod.snd = ys ∧
      ∀ p ∈ pairs, f p.1 = g p.2 := by
  have hlength : xs.length = ys.length := by simpa using congrArg List.length h
  refine ⟨xs.zip ys, List.map_fst_zip (Nat.le_of_eq hlength),
    List.map_snd_zip (Nat.le_of_eq hlength.symm), fun p hp => ?_⟩
  obtain ⟨i, hi, rfl⟩ := List.getElem_of_mem hp
  have hnth := List.getElem_of_eq h (i := i)
    (by simpa using List.lt_length_left_of_zip hi)
  rw [List.getElem_map, List.getElem_map] at hnth
  rwa [List.getElem_zip]

/-! ### Analyzers in service -/

/-- Rules that line up in a security book are security rules. -/
theorem Lineup.isSome_security_of_mem_run {ops : List RuleBook.Op} {r : Rule}
    (h : r ∈ Lineup.run true ops) : r.profile.security.isSome = true := by
  suffices hall : ∀ l : Lineup, (∀ s ∈ l, s.profile.security.isSome = true) →
      ∀ s ∈ ops.foldl (Lineup.step true) l, s.profile.security.isSome = true from
    hall [] (List.forall_mem_nil _) r h
  clear h
  induction ops with
  | nil => exact fun l hl => hl
  | cons op ops ih =>
      intro l hl
      refine ih (l.step true op) fun s hs => ?_
      cases op with
      | add r' settings =>
          simp only [Lineup.step] at hs
          cases hadmitted : Lineup.admitted true r' settings with
          | none =>
              rw [hadmitted] at hs
              exact hl s hs
          | some q =>
              obtain ⟨hprofile, _, hsecurity⟩ := Lineup.of_admitted hadmitted
              rw [hadmitted, Option.elim, Lineup.enlist] at hs
              have hq : q.profile.security.isSome = true := by
                rw [hprofile]
                exact hsecurity rfl
              split at hs
              · obtain ⟨t, ht, rfl⟩ := List.mem_map.1 hs
                split
                · exact hq
                · exact hl t ht
              · rcases List.mem_append.1 hs with hs | hs
                · exact hl s hs
                · rw [List.mem_singleton.1 hs]
                  exact hq
      | remove id => exact hl s (List.mem_filter.1 hs).1
      | setEnabled id on =>
          obtain ⟨t, ht, rfl⟩ := List.mem_map.1 hs
          rw [Lineup.profile_switch]
          exact hl t ht
      | rulesFor kind => exact hl s hs
      | inspect n site t => exact hl s hs

namespace RuledAnalyzer

/-- An analyzer that was made from settings, whose rules may have been added to, taken out and
switched since. -/
inductive InService : RuledAnalyzer → Prop
  | made {kind : Kind} {run : Settings} {an : RuledAnalyzer} (h : make kind run = .ok an) :
      InService an
  | changed {an : RuledAnalyzer} (h : InService an) (op : RuleBook.Op) :
      InService { an with book := an.book.step op }

/-- Filling a book is adding rules to it. -/
theorem fill_eq_run {kind : Kind} {run : Settings} {own : Value} {rs : List Rule}
    {b b' : RuleBook} (h : fill kind run own rs b = .ok b') : ∃ ops, b' = b.run ops := by
  induction rs generalizing b with
  | nil =>
      cases h
      exact ⟨[], rfl⟩
  | cons r rs ih =>
      unfold fill at h
      obtain ⟨defaults, _, h⟩ := of_bind_eq_ok h
      obtain ⟨more, _, h⟩ := of_bind_eq_ok h
      obtain ⟨given, _, h⟩ := of_bind_eq_ok h
      dsimp only at h
      split at h
      · cases h
      · obtain ⟨ops, rfl⟩ := ih h
        exact ⟨.add r (Assoc.update defaults given) :: ops, rfl⟩

/-- The book of an analyzer in service has a history that begins with an empty book. -/
theorem InService.history {an : RuledAnalyzer} (h : an.InService) :
    ∃ ops, an.book = RuleBook.run { securityOnly := an.kind == .security } ops := by
  induction h with
  | made hmake =>
      unfold make at hmake
      obtain ⟨own, _, hmake⟩ := of_bind_eq_ok hmake
      obtain ⟨book, hfill, hmake⟩ := of_bind_eq_ok hmake
      cases hmake
      exact fill_eq_run hfill
  | @changed an _ op ih =>
      obtain ⟨ops, hbook⟩ := ih
      refine ⟨ops ++ [op], ?_⟩
      rw [RuleBook.run, List.foldl_append]
      show an.book.step op = _
      rw [hbook]
      rfl

/-- **The book of an analyzer in service keeps a line-up**, in the security analyzer one of security
rules. -/
theorem InService.keeps {an : RuledAnalyzer} (h : an.InService) :
    an.book.Keeps (Assoc.values an.book.entries) ∧
      (an.kind = .security →
        ∀ r ∈ Assoc.values an.book.entries, r.profile.security.isSome = true) := by
  obtain ⟨ops, hbook⟩ := h.history
  have hkeeps : an.book.Keeps (Lineup.run (an.kind == .security) ops) := by
    rw [hbook]
    exact (RuleBook.keeps_empty _).run ops
  rw [hkeeps.values]
  refine ⟨hkeeps, fun hkind r hr => ?_⟩
  rw [hkind] at hr
  exact Lineup.isSome_security_of_mem_run hr

end RuledAnalyzer

/-! ### The order of the walk -/

/-- Something that a rule found: the number of the place in pre-order, the rule, and the finding. -/
structure Spot where
  position : Nat
  rule : Rule
  found : Finding

/-- A rule of a line-up that is switched on found it at that place of a file. -/
def Spot.FoundIn (l : Lineup) (file : SourceFile) (s : Spot) : Prop :=
  s.rule ∈ l ∧ s.rule.enabled = true ∧ ∃ place trail,
    (Walk.placesIn [] [file.tree.root])[s.position]? = some place ∧ Trail.Shows trail place ∧
      s.found ∈ RuleBook.findingsOf place.node ⟨file, trail⟩ s.rule

/-- The order of the walk: by place, and at one place by rule. -/
def Spot.Before (l : Lineup) (s t : Spot) : Prop :=
  s.position < t.position ∨
    s.position = t.position ∧ (s.rule = t.rule ∨ l.Precedes s.rule t.rule)

namespace RuleBook

variable {b : RuleBook} {l : Lineup}

/-- What the rules of a line-up find at one place. -/
def spotsAt (l : Lineup) (file : SourceFile) (n : Node) (trail : Trail) (position : Nat) :
    List Spot :=
  ((l.dispatch n.kind).filter Rule.enabled).flatMap fun r =>
    (findingsOf n ⟨file, trail⟩ r).map fun f => ⟨position, r, f⟩

theorem map_found_spotsAt (l : Lineup) (file : SourceFile) (n : Node) (trail : Trail)
    (position : Nat) : (spotsAt l file n trail position).map Spot.found =
      l.foundAt file n trail := by
  rw [spotsAt, List.map_flatMap, Lineup.foundAt]
  simp only [List.map_map]
  congr 1
  funext r
  exact List.map_id _

theorem of_mem_spotsAt {file : SourceFile} {n : Node} {trail : Trail} {position : Nat} {s : Spot}
    (h : s ∈ spotsAt l file n trail position) :
    s.position = position ∧ s.rule ∈ l ∧ s.rule.enabled = true ∧
      s.found ∈ findingsOf n ⟨file, trail⟩ s.rule := by
  obtain ⟨r, hr, h⟩ := List.mem_flatMap.1 h
  obtain ⟨f, hf, rfl⟩ := List.mem_map.1 h
  obtain ⟨hmem, hon⟩ := List.mem_filter.1 hr
  exact ⟨rfl, (Lineup.mem_dispatch.1 hmem).1, hon, hf⟩

/-- At one place the rules come in the order in which they are asked. -/
theorem spotsAt_pairwise (hl : l.Distinct) (file : SourceFile) (n : Node) (trail : Trail)
    (position : Nat) : (spotsAt l file n trail position).Pairwise (Spot.Before l) := by
  refine List.pairwise_flatMap.2 ⟨fun r _ => ?_, ?_⟩
  · exact List.pairwise_map.2 (List.pairwise_of_forall fun _ _ => .inr ⟨rfl, .inl rfl⟩)
  · refine ((Lineup.dispatch_pairwise hl n.kind).sublist List.filter_sublist).imp ?_
    intro r r' hrr' s hs t ht
    obtain ⟨f, _, rfl⟩ := List.mem_map.1 hs
    obtain ⟨f', _, rfl⟩ := List.mem_map.1 ht
    exact .inr ⟨rfl, .inr hrr'⟩

/-- **What a walk finds, in the order of the walk.** -/
theorem Keeps.sweep_spots (h : b.Keeps l) (file : SourceFile) :
    ∃ spots : List Spot, (b.sweep file).1.findings = spots.map Spot.found ∧
      (∀ s ∈ spots, s.FoundIn l file) ∧ spots.Pairwise (Spot.Before l) := by
  obtain ⟨visits, hplaces, hshown, hfindings⟩ := h.sweep_findings file
  -- number all places first, so that a place below the depth limit counts as well
  let numbered := (Walk.placesIn [] [file.tree.root]).zipIdx.filter fun x =>
    ({} : Walk.Options).reaches x.1
  have hnumbered : visits.map Prod.fst = numbered.map Prod.fst := by
    have hfilter := List.filter_map (f := Prod.fst) (p := ({} : Walk.Options).reaches)
      (l := (Walk.placesIn [] [file.tree.root]).zipIdx)
    rw [List.zipIdx_map_fst] at hfilter
    exact hplaces.trans hfilter
  obtain ⟨stops, hvisits, hnumbers, hsame⟩ := exists_pairs_of_map_eq hnumbered
  refine ⟨stops.flatMap fun stop =>
    spotsAt l file stop.1.1.node stop.1.2 stop.2.2, ?_, ?_, ?_⟩
  · rw [hfindings, ← hvisits, List.flatMap_map, List.map_flatMap]
    simp only [map_found_spotsAt]
  · intro s hs
    obtain ⟨stop, hstop, hs⟩ := List.mem_flatMap.1 hs
    obtain ⟨hposition, hrule, hon, hfound⟩ := of_mem_spotsAt hs
    have hvisit : stop.1 ∈ visits := hvisits ▸ List.mem_map_of_mem hstop
    have hnumber : stop.2 ∈ numbered := hnumbers ▸ List.mem_map_of_mem hstop
    refine ⟨hrule, hon, stop.1.1, stop.1.2, ?_, hshown _ hvisit, hfound⟩
    rw [hposition, hsame stop hstop]
    exact List.mem_zipIdx_iff_getElem?.1 (List.mem_filter.1 hnumber).1
  · have hascending : numbered.Pairwise fun x y => x.2 < y.2 :=
      (pairwise_zipIdx _).sublist List.filter_sublist
    rw [← hnumbers, List.pairwise_map] at hascending
    refine List.pairwise_flatMap.2 ⟨fun stop _ => spotsAt_pairwise h.distinct _ _ _ _, ?_⟩
    refine hascending.imp ?_
    intro x y hxy s hs t ht
    rw [Spot.Before, (of_mem_spotsAt hs).1, (of_mem_spotsAt ht).1]
    exact .inl hxy

end RuleBook

/-! ### The order of the report -/

/-- Something that was found, with the priority of its risk and the finding that is shown for it. -/
structure Sighting extends Spot where
  priority : Int
  shown : Finding

/-- It was found in a file and rated, and is shown with its priority. -/
structure Sighting.MadeBy (l : Lineup) (file : SourceFile) (s : Sighting) : Prop where
  foundIn : s.toSpot.FoundIn l file
  rated : ∃ g, RuledAnalyzer.assessed s.found = .ok (s.priority, g) ∧
    s.shown = Report.placed file.path g
  priority : Assoc.get? s.shown.metadata (.str "risk_priority") = some (.int s.priority)

/-- The order of the report: by the priority of the risk, and then in the order of the walk. -/
def Sighting.Before (l : Lineup) (s t : Sighting) : Prop :=
  t.priority < s.priority ∨ t.priority = s.priority ∧ s.toSpot.Before l t.toSpot

namespace RuledAnalyzer

/-- What an analyzer brings into the report about a file: nothing if it breaks down. -/
def group (an : RuledAnalyzer) (file : SourceFile) : List Finding :=
  match an.analyze file with
  | .ok o => o.findings.map (Report.placed file.path)
  | .error _ => []

/-- A rated finding says its priority. -/
theorem priority_of_assessed {f g : Finding} {priority : Int}
    (h : assessed f = .ok (priority, g)) :
    Assoc.get? g.metadata (.str "risk_priority") = some (.int priority) := by
  unfold assessed at h
  obtain ⟨enriched, _, h⟩ := of_bind_eq_ok h
  obtain ⟨kind, _, h⟩ := of_bind_eq_ok h
  obtain ⟨a, _, h⟩ := of_bind_eq_ok h
  cases h
  exact Dict.get?_put_self _ "risk_priority" _

theorem metadata_placed (path : Value) (f : Finding) :
    (Report.placed path f).metadata = f.metadata := by
  unfold Report.placed
  split <;> rfl

/-- The findings of an outcome of the security analyzer are those of the walk, rated and sorted. -/
theorem findings_of_analyze {an : RuledAnalyzer} (hkind : an.kind = .security) {file : SourceFile}
    {o : Outcome} (h : an.analyze file = .ok o) :
    ∃ rated, (an.book.sweep file).1.findings.mapM assessed = .ok rated ∧
      o.findings = (rated.mergeSort fun a b => decide (b.1 ≤ a.1)).map Prod.snd := by
  obtain ⟨kind, settings, book⟩ := an
  cases hkind
  unfold analyze at h
  obtain ⟨arranged, harrange, h⟩ := of_bind_eq_ok h
  obtain ⟨facts, _, h⟩ := of_bind_eq_ok h
  cases h
  unfold arrange at harrange
  obtain ⟨rated, hrated, harrange⟩ := of_bind_eq_ok harrange
  cases harrange
  exact ⟨rated, hrated, rfl⟩

/-- **What the security analyzer brings in, in the order of the report.** -/
theorem group_byRisk {an : RuledAnalyzer} (hkind : an.kind = .security) {l : Lineup}
    (hkeeps : an.book.Keeps l) (file : SourceFile) :
    ∃ sightings : List Sighting, an.group file = sightings.map Sighting.shown ∧
      (∀ s ∈ sightings, s.MadeBy l file) ∧ sightings.Pairwise (Sighting.Before l) := by
  unfold group
  cases hanalyze : an.analyze file with
  | error m => exact ⟨[], rfl, List.forall_mem_nil _, List.Pairwise.nil⟩
  | ok o =>
      obtain ⟨rated, hrated, hfindings⟩ := findings_of_analyze hkind hanalyze
      obtain ⟨spots, hspots, hfound, horder⟩ := hkeeps.sweep_spots file
      have hside : spots.map (assessed ∘ Spot.found) = rated.map .ok := by
        rw [← List.map_map, ← hspots]
        exact map_eq_of_mapM_ok hrated
      obtain ⟨pairs, hfst, hsnd, hpairs⟩ := exists_pairs_of_map_eq hside
      let sighting (p : Spot × (Int × Finding)) : Sighting :=
        { p.1 with priority := p.2.1, shown := Report.placed file.path p.2.2 }
      let graver (p q : Spot × (Int × Finding)) : Bool := decide (q.2.1 ≤ p.2.1)
      refine ⟨(pairs.mergeSort graver).map sighting, ?_, ?_, ?_⟩
      · have hsort : (pairs.mergeSort graver).map Prod.snd =
            rated.mergeSort fun a b => decide (b.1 ≤ a.1) := by
          rw [← hsnd]
          exact List.map_mergeSort fun p _ q _ => rfl
        simp only [hfindings, ← hsort, List.map_map]
        rfl
      · intro s hs
        obtain ⟨p, hp, rfl⟩ := List.mem_map.1 hs
        have hp : p ∈ pairs := List.mem_mergeSort.1 hp
        have hassessed : assessed p.1.found = .ok p.2 := hpairs p hp
        refine ⟨hfound p.1 (hfst ▸ List.mem_map_of_mem hp), ⟨p.2.2, hassessed, rfl⟩, ?_⟩
        show Assoc.get? (Report.placed file.path p.2.2).metadata _ = _
        rw [metadata_placed]
        exact priority_of_assessed hassessed
      · rw [← hfst, List.pairwise_map] at horder
        have htrans : ∀ p q r, graver p q → graver q r → graver p r := by
          intro p q r hpq hqr
          simp only [graver, decide_eq_true_eq] at hpq hqr ⊢
          omega
        have htotal : ∀ p q, graver p q || graver q p := by
          intro p q
          simp only [graver, Bool.or_eq_true, decide_eq_true_eq]
          omega
        refine List.pairwise_map.2 ((pairwise_mergeSort_lex htrans htotal horder).imp ?_)
        intro p q hpq
        simp only [graver, decide_eq_true_eq, decide_eq_false_iff_not] at hpq
        rcases hpq with hless | ⟨hle, hwalk⟩
        · exact .inl (Int.not_le.1 hless)
        · rcases Int.lt_or_eq_of_le hle with hlt | heq
          · exact .inl hlt
          · exact .inr ⟨heq, hwalk⟩

end RuledAnalyzer

end PhpAudit
