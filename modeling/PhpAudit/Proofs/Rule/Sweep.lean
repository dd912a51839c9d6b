/-
**What a walk with a rule book finds.**

A rule book is asked about every node that a walk enters.  The book changes on the way, since it
remembers the rules for the kinds of nodes that it has met, but the line-up of its rules does not.
So the findings of a walk are those of the rules in the line-up, at every place of the tree within
the depth limit, in pre-order; and each rule sees a trail that shows the way down to the node.

Main definitions:

* `Lineup.foundAt` — what the rules of a line-up find at a node.

Main results:

* `RuleBook.replay_visitor` — what some calls of the visitor add to the findings;
* `RuleBook.Keeps.sweep_findings` — **the findings of a walk, place by place**;
* `RuleBook.Keeps.sweep_filter` — two walks compared: what holds at every place holds on the whole.
-/

import PhpAudit.Proofs.Rule.Dispatch
import PhpAudit.Proofs.Walk.Coverage
import PhpAudit.Rule.Sweep

set_option autoImplicit false

namespace PhpAudit

open Walk (Call Phase Place Trail)

/-- What the rules of a line-up that are switched on find at a node, one after the other. -/
def Lineup.foundAt (l : Lineup) (file : SourceFile) (n : Node) (trail : Trail) : List Finding :=
  ((l.dispatch n.kind).filter Rule.enabled).flatMap (RuleBook.findingsOf n ⟨file, trail⟩)

/-- If each rule of a line-up finds what its partner finds and a test lets pass, so does the whole
line-up. -/
theorem Lineup.foundAt_pairs {pairs : List (Rule × Rule)}
    (h : ∀ p ∈ pairs, p.2.profile = p.1.profile ∧ p.2.enabled = p.1.enabled)
    {file : SourceFile} {n : Node} {trail trail' : Trail} {keep : Finding → Bool}
    (hfound : ∀ p ∈ pairs, RuleBook.findingsOf n ⟨file, trail'⟩ p.2 =
      (RuleBook.findingsOf n ⟨file, trail⟩ p.1).filter keep) :
    foundAt (pairs.map Prod.snd) file n trail' =
      (foundAt (pairs.map Prod.fst) file n trail).filter keep := by
  obtain ⟨asked, hasked, hfst, hsnd⟩ := dispatch_pairs (fun p hp => (h p hp).1) n.kind
  rw [foundAt, foundAt, hfst, hsnd]
  clear hfst hsnd
  induction asked with
  | nil => rfl
  | cons p asked ih =>
      have hp : p ∈ pairs := hasked p List.mem_cons_self
      have hrest := ih fun q hq => hasked q (List.mem_cons_of_mem _ hq)
      simp only [List.map_cons, List.filter_cons, (h p hp).2]
      split
      · rw [List.flatMap_cons, List.flatMap_cons, List.filter_append, hfound p hp, hrest]
      · exact hrest

namespace RuleBook

variable {b : RuleBook} {l : Lineup}

theorem visitor_patient (file : SourceFile) : (visitor file).Patient where
  before _ _ := rfl
  respond phase _ _ _ := by cases phase <;> rfl

/-- Each call that enters a node adds what the line-up finds there; the line-up stays. -/
theorem replay_visitor (file : SourceFile) (calls : List Call) {s : Sweep} (h : s.book.Keeps l) :
    (Walk.replay (visitor file) s calls).book.Keeps l ∧
      (Walk.replay (visitor file) s calls).findings =
        s.findings ++ (Walk.entries calls).flatMap fun c => l.foundAt file c.node c.trail := by
  induction calls generalizing s with
  | nil => exact ⟨h, by simp [Walk.replay, Walk.entries]⟩
  | cons c calls ih =>
      cases hphase : c.phase with
      | entry =>
          have hbook := h.inspect c.node ⟨file, c.trail⟩ s.tally
          have hfound := h.inspect_eq c.node ⟨file, c.trail⟩ s.tally
          obtain ⟨hkeeps, hfindings⟩ := ih (s := (visitor file).enter s c.node c.trail |>.2) hbook
          have hfirst : Walk.replay (visitor file) s (c :: calls) =
              Walk.replay (visitor file) ((visitor file).enter s c.node c.trail).2 calls := by
            rw [Walk.replay, List.foldl_cons, hphase]
            rfl
          have hentries : Walk.entries (c :: calls) = c :: Walk.entries calls := by
            simp [Walk.entries, hphase]
          have hadded : ((visitor file).enter s c.node c.trail).2.findings =
              s.findings ++ l.foundAt file c.node c.trail := congrArg (s.findings ++ ·) hfound
          rw [hfirst, hentries, List.flatMap_cons]
          refine ⟨hkeeps, ?_⟩
          rw [hfindings, hadded, List.append_assoc]
      | exit =>
          have hfirst : Walk.replay (visitor file) s (c :: calls) =
              Walk.replay (visitor file) s calls := by
            rw [Walk.replay, List.foldl_cons, hphase]
            rfl
          have hentries : Walk.entries (c :: calls) = Walk.entries calls := by
            simp [Walk.entries, hphase]
          rw [hfirst, hentries]
          exact ih h

/-- **The findings of a walk, place by place.** -/
theorem Keeps.sweep_findings (h : b.Keeps l) (file : SourceFile) :
    ∃ visits : List (Place × Trail),
      visits.map Prod.fst =
        (Walk.placesIn [] [file.tree.root]).filter ({} : Walk.Options).reaches ∧
      (∀ visit ∈ visits, visit.2.Shows visit.1) ∧
      (b.sweep file).1.findings =
        visits.flatMap fun visit => l.foundAt file visit.1.node visit.2 := by
  have hwalk : b.sweep file =
      (Walk.depthFirst (visitor file) {} { book := b } [file.tree.root]).seen fun _ s => s :=
    (Walk.echoes_self (visitor file)).traverse {} { book := b } [file.tree.root]
  obtain ⟨hentered, hstate⟩ := Walk.depthFirst_covers (visitor_patient file)
    (o := {}) ⟨rfl, rfl⟩ (by decide) { book := b } [file.tree.root]
  obtain ⟨visits, hplaces, hshown, hcalls⟩ := Walk.exists_visits rfl hentered
  refine ⟨visits, hplaces, hshown, ?_⟩
  have hfindings := (replay_visitor file
    (Walk.depthFirst (visitor file) {} { book := b } [file.tree.root]).calls
    (s := { book := b }) h).2
  have hstate' : (b.sweep file).1 = Walk.replay (visitor file) { book := b }
      (Walk.depthFirst (visitor file) {} { book := b } [file.tree.root]).calls := by
    rw [hwalk]
    exact hstate
  rw [hstate', hfindings, List.nil_append]
  have hpairs : ∀ cs : List Call, (cs.flatMap fun c => l.foundAt file c.node c.trail) =
      (cs.map fun c => (c.node, c.trail)).flatMap fun x => l.foundAt file x.1 x.2 := by
    intro cs
    rw [List.flatMap_map]
  rw [hpairs, hcalls, List.flatMap_map]

/-- If a line-up finds at every place what another finds and a test lets pass, so it does on the
whole walk. -/
theorem Keeps.sweep_filter {b' : RuleBook} {l' : Lineup} (hb : b.Keeps l) (hb' : b'.Keeps l')
    (file : SourceFile) {keep : Finding → Bool}
    (hfound : ∀ (n : Node) (trail trail' : Trail), trail.ancestors = trail'.ancestors →
      l'.foundAt file n trail' = (l.foundAt file n trail).filter keep) :
    (b'.sweep file).1.findings = (b.sweep file).1.findings.filter keep := by
  obtain ⟨visits, hplaces, hshown, hfindings⟩ := hb.sweep_findings file
  obtain ⟨visits', hplaces', hshown', hfindings'⟩ := hb'.sweep_findings file
  rw [hfindings, hfindings']
  -- the two walks visit the same places, each with a trail that shows it
  have hsame : visits.map Prod.fst = visits'.map Prod.fst := hplaces.trans hplaces'.symm
  clear hplaces hplaces' hfindings hfindings'
  induction visits generalizing visits' with
  | nil =>
      cases visits' with
      | nil => rfl
      | cons visit' visits' => cases hsame
  | cons visit visits ih =>
      cases visits' with
      | nil => cases hsame
      | cons visit' visits' =>
          rw [List.map_cons, List.map_cons, List.cons.injEq] at hsame
          have hancestors : visit.2.ancestors = visit'.2.ancestors := by
            rw [(hshown visit List.mem_cons_self).ancestors,
              (hshown' visit' List.mem_cons_self).ancestors, hsame.1]
          have hrest := ih (fun v hv => hshown v (List.mem_cons_of_mem _ hv)) visits'
            (fun v hv => hshown' v (List.mem_cons_of_mem _ hv)) hsame.2
          rw [List.flatMap_cons, List.flatMap_cons, List.filter_append, hrest,
            ← hfound _ _ _ hancestors, hsame.1]

end RuleBook

end PhpAudit
