/-
**A rule book asks the rules in force, in their order, whatever was done with it before.**

The lists by kind in a rule book are made on demand.  Taking a rule up or out throws them away;
switching a rule on or off and refusing a rule do not.  This module describes histories of a book
and follows the line-up of rules beside them.  After any history the rules for a kind are those of
the line-up that apply to it, by priority and then by their places, whether or not the list was made
before; and what is found at a node is what these rules find, one after the other.

Main definitions:

* `RuleBook.Op`, `RuleBook.step`, `RuleBook.run` — what can be done with a book;
* `Lineup.step`, `Lineup.run` — what this does to the line-up;
* `RuleBook.Keeps` — a book whose maps belong to a line-up;
* `RuleBook.Serves` — what a caller sees of such a book.

Main results:

* `RuleBook.Keeps.rules_eq` — numbering the rules sorts them as the line-up is sorted;
* `RuleBook.Keeps.step`, `RuleBook.Keeps.run` — **a book goes on keeping the line-up**, through one
  step and through a whole history;
* `RuleBook.run_serves_lineup` — so after any history it serves the line-up.
-/

import PhpAudit.Proofs.Assoc
import PhpAudit.Proofs.Rule.Lineup
import PhpAudit.Rule.Book
import PhpAudit.Rule.Guard

set_option autoImplicit false

namespace PhpAudit

open Rule (Tally Run Site)

/-! ### Histories -/

/-- What can be done with a rule book. -/
inductive RuleBook.Op where
  | add (r : Rule) (settings : Dict)
  | remove (id : String)
  | setEnabled (id : String) (on : Bool)
  | rulesFor (kind : String)
  | inspect (n : Node) (site : Site) (t : Tally)

namespace RuleBook

/-- The book after one operation. -/
def step (b : RuleBook) : Op → RuleBook
  | .add r settings => (b.add r settings).book
  | .remove id => (b.remove id).2
  | .setEnabled id on => (b.setEnabled id on).2
  | .rulesFor kind => (b.rulesFor kind).2
  | .inspect n site t => (b.inspect n site t).2.2

/-- The book after a history. -/
def run (b : RuleBook) (ops : List Op) : RuleBook :=
  ops.foldl step b

end RuleBook

namespace Lineup

/-- The line-up after one operation: a rule that is not admitted and a question change nothing. -/
def step (securityOnly : Bool) (l : Lineup) : RuleBook.Op → Lineup
  | .add r settings => (admitted securityOnly r settings).elim l l.enlist
  | .remove id => l.strike id
  | .setEnabled id on => l.switch id on
  | .rulesFor _ | .inspect _ _ _ => l

/-- The line-up after a history. -/
def run (securityOnly : Bool) (ops : List RuleBook.Op) : Lineup :=
  ops.foldl (step securityOnly) []

end Lineup

/-! ### What is done with a rule that comes in -/

theorem Rule.exists_of_configured {r r' : Rule} {settings : Dict}
    (h : r.configured settings = .ok r') :
    ∃ enabled, r' = { r with
      settings := if settings.isEmpty then r.settings
        else Assoc.update r.defaults (Assoc.erase settings "enabled")
      enabled } := by
  unfold Rule.configured Rule.configure at h
  split at h
  · rename_i hempty
    cases h
    exact ⟨r.enabled, by rw [if_pos hempty]⟩
  · rename_i hgiven
    split at h
    · cases h
      exact ⟨_, by rw [if_neg hgiven]⟩
    · cases h

theorem Rule.eq_problems_of_configured {r : Rule} {settings : Dict} {found : List Rule.Problem}
    (h : r.configured settings = .error found) : found = r.problems settings := by
  unfold Rule.configured Rule.configure at h
  split at h
  · cases h
  · split at h
    · cases h
    · cases h
      rfl

theorem Rule.failure_notMem_problemIf (settings : Dict) (key : String) (bad : Value → Bool)
    (message : String) (cause : Misuse) :
    .failure cause ∉ Rule.problemIf settings key bad message := by
  unfold Rule.problemIf
  split
  · split <;> simp
  · exact List.not_mem_nil

/-- Of the checks of settings only the rule's own ones can fail. -/
theorem Rule.failure_mem_problems {r : Rule} {settings : Dict} {cause : Misuse} :
    .failure cause ∈ r.problems settings ↔ .failure cause ∈ r.ownProblems settings := by
  unfold Rule.problems Rule.securityProblems
  split <;> simp [Rule.failure_notMem_problemIf]

theorem Rule.failure_mem_validity {r : Rule} {cause : Misuse} :
    .failure cause ∈ r.validity.errors ↔ .failure cause ∈ r.ownProblems r.settings := by
  have hid : .failure cause ∉ (Rule.idValidity r.profile.id).errors := by
    unfold Rule.idValidity
    grind
  have hsecurity : ∀ s : Rule.Security, .failure cause ∉ Rule.securityErrors s := by
    intro s
    unfold Rule.securityErrors
    grind
  rw [← Rule.failure_mem_problems]
  unfold Rule.validity
  simp only [List.mem_append]
  cases r.profile.security with
  | none => grind
  | some s => grind

/-- A rule with nothing wrong is registered under its own identifier. -/
theorem Rule.key_of_valid {r : Rule} (h : r.validity.errors = []) :
    r.profile.key = r.profile.id := by
  rw [Rule.Profile.key]
  split
  · rename_i hid
    have hblank : Rule.idValidity "" = ⟨[.remark "Rule ID must be a non-empty string"], []⟩ := rfl
    simp [Rule.validity, eq_of_beq hid, hblank] at h
  · rfl

namespace Lineup

/-- What is admitted is the rule itself with other settings, nothing is wrong with it, and for a
security book it is a security rule. -/
theorem of_admitted {securityOnly : Bool} {r r' : Rule} {settings : Dict}
    (h : admitted securityOnly r settings = some r') :
    r'.profile = r.profile ∧ r'.validity.errors = [] ∧
      (securityOnly = true → r.profile.security.isSome) := by
  unfold admitted at h
  split at h
  · cases h
  · rename_i hsort
    split at h
    · rename_i hconfigured
      split at h
      · rename_i hvalid
        cases h
        obtain ⟨on, rfl⟩ := Rule.exists_of_configured hconfigured
        refine ⟨rfl, List.isEmpty_iff.1 hvalid, ?_⟩
        intro hsec
        simpa [hsec, Option.isSome_iff_ne_none] using hsort
      · cases h
    · cases h

end Lineup

namespace RuleBook

variable {b : RuleBook} {l : Lineup}

theorem refuse_eq (b : RuleBook) (r : Rule) (found : List Rule.Problem) :
    ∃ rejected r' failure, b.refuse r found = ⟨false, r', { b with rejected }, failure⟩ ∧
      (failure = none → r'.enabled = false) := by
  unfold refuse
  split
  · exact ⟨b.rejected, r, _, rfl, nofun⟩
  · exact ⟨_, _, none, rfl, fun _ => rfl⟩

/-- A rule that comes in is entered as it was admitted, or the book changes in nothing but in what
it tells about refused rules, and a rule of the right sort is switched off if no check failed. -/
theorem add_cases (b : RuleBook) (r : Rule) (settings : Dict) :
    (∃ r', Lineup.admitted b.securityOnly r settings = some r' ∧
      b.add r settings = ⟨true, r', b.enter r'.profile.id r', none⟩) ∨
    (Lineup.admitted b.securityOnly r settings = none ∧
      ∃ rejected r' failure, b.add r settings = ⟨false, r', { b with rejected }, failure⟩ ∧
        ((b.securityOnly = true → r.profile.security.isSome = true) → failure = none →
          r'.enabled = false)) := by
  unfold Lineup.admitted add
  split
  · rename_i hsort
    refine Or.inr ⟨rfl, b.rejected, r, none, rfl, fun hsecurity => ?_⟩
    obtain ⟨hsec, hnone⟩ := Bool.and_eq_true_iff.1 hsort
    rw [Option.isNone_iff_eq_none.1 hnone] at hsecurity
    exact absurd (hsecurity hsec) Bool.false_ne_true
  · cases hconfigured : r.configured settings with
    | error found =>
        obtain ⟨rejected, r', failure, hrefuse, hoff⟩ := b.refuse_eq r found
        exact Or.inr ⟨rfl, rejected, r', failure, hrefuse, fun _ => hoff⟩
    | ok r' =>
        cases hvalid : r'.validity.errors with
        | nil => exact Or.inl ⟨r', by simp [hvalid], by simp [hvalid, Rule.key_of_valid hvalid]⟩
        | cons problem more =>
            obtain ⟨rejected, r'', failure, hrefuse, hoff⟩ := b.refuse_eq r' (problem :: more)
            exact Or.inr ⟨by simp [hvalid], rejected, r'', failure, by simp [hvalid, hrefuse],
              fun _ => hoff⟩

theorem of_refuse_failure {r : Rule} {found : List Rule.Problem} {cause : Misuse}
    (h : (b.refuse r found).failure = some cause) : .failure cause ∈ found := by
  unfold refuse at h
  split at h
  · rename_i c hc
    cases h
    obtain ⟨p, hp, hcause⟩ := List.exists_of_findSome?_eq_some hc
    cases p with
    | remark text => cases hcause
    | failure c =>
        cases hcause
        exact hp
  · cases h

/-- Where the registration of a rule fails, a check of its own has failed. -/
theorem of_add_failure {r : Rule} {settings : Dict} {cause : Misuse}
    (h : (b.add r settings).failure = some cause) :
    ∃ given, .failure cause ∈ r.ownProblems given := by
  unfold add at h
  split at h
  · cases h
  · split at h
    · rename_i found hfound
      have hmem := of_refuse_failure h
      rw [Rule.eq_problems_of_configured hfound, Rule.failure_mem_problems] at hmem
      exact ⟨settings, hmem⟩
    · rename_i r' hconfigured
      split at h
      · cases h
      · have hmem := of_refuse_failure h
        rw [Rule.failure_mem_validity] at hmem
        obtain ⟨on, rfl⟩ := Rule.exists_of_configured hconfigured
        exact ⟨_, hmem⟩

/-- In any book the priority of a rule is that of its profile. -/
theorem priority_eq (b : RuleBook) {r : Rule}
    (hsort : b.securityOnly = true → r.profile.security.isSome) :
    b.priority r = r.profile.priority := by
  unfold priority
  split
  · rename_i hsec
    obtain ⟨s, hs⟩ := Option.isSome_iff_exists.1 (hsort hsec)
    rw [Rule.Profile.severity, Rule.Profile.priority, hs, Option.map_some, Option.getD_some,
      Severity.ofName?_name]
    rfl
  · rfl

/-! ### Books that keep a line-up -/

/-- The number of a rule in the order of registration. -/
def number (b : RuleBook) (r : Rule) : Nat :=
  Assoc.getD b.order r.profile.id 0

/-- The maps of a book belong to a line-up: the rules stand under their identifiers, their numbers
grow along the line-up, and every list that was made is the list that would be made now. -/
structure Keeps (b : RuleBook) (l : Lineup) : Prop where
  entries : b.entries = l.map fun r => (r.profile.id, r)
  distinct : l.Distinct
  priority : ∀ r ∈ l, b.priority r = r.profile.priority
  numbered : l.Pairwise fun r s => b.number r < b.number s
  below : ∀ r ∈ l, b.number r < b.next
  table : ∀ kind ids, Assoc.get? b.table kind = some ids →
    ids = (l.dispatch kind).map fun r => r.profile.id

/-- Where no list has been made, none is wrong. -/
theorem table_of_nil (l : Lineup) (kind : String) (ids : List String)
    (h : Assoc.get? ([] : Assoc String (List String)) kind = some ids) :
    ids = (l.dispatch kind).map fun r => r.profile.id :=
  absurd h.symm (Option.some_ne_none ids)

theorem keeps_empty (securityOnly : Bool) : Keeps { securityOnly } [] :=
  ⟨rfl, List.nodup_nil, List.forall_mem_nil _, List.Pairwise.nil,
    List.forall_mem_nil _, table_of_nil _⟩

theorem Keeps.values (h : b.Keeps l) : Assoc.values b.entries = l := by
  rw [h.entries, Assoc.values, List.map_map]
  exact List.map_id l

theorem Keeps.get?_of_mem (h : b.Keeps l) {r : Rule} (hr : r ∈ l) :
    Assoc.get? b.entries r.profile.id = some r := by
  rw [h.entries]
  exact Assoc.get?_map_of_mem h.distinct (fun r => r) hr

/-! ### The order of the rules -/

theorem before_iff {r s : Rule} : b.before r s = true ↔
    b.priority s < b.priority r ∨ b.priority s = b.priority r ∧ b.number r ≤ b.number s := by
  simp [before, number]

theorem before_trans (b : RuleBook) (r s t : Rule) (hrs : b.before r s) (hst : b.before s t) :
    b.before r t := by
  rw [before_iff] at *
  omega

theorem before_total (b : RuleBook) (r s : Rule) : (b.before r s || b.before s r) = true := by
  rw [Bool.or_eq_true, before_iff, before_iff]
  omega

/-- Two rules of the line-up that may each be asked before the other are one. -/
theorem Keeps.before_antisymm (h : b.Keeps l) {r s : Rule} (hr : r ∈ l) (hs : s ∈ l)
    (hrs : b.before r s) (hsr : b.before s r) : r = s := by
  rw [before_iff] at hrs hsr
  refine Classical.byContradiction fun hne => ?_
  rcases Lineup.sublist_or_sublist hr hs hne with hsub | hsub
  · have := List.pairwise_iff_forall_sublist.1 h.numbered hsub
    omega
  · have := List.pairwise_iff_forall_sublist.1 h.numbered hsub
    omega

theorem Keeps.before_of_precedes (h : b.Keeps l) {r s : Rule} (hr : r ∈ l) (hs : s ∈ l)
    (hrs : l.Precedes r s) : b.before r s := by
  rw [before_iff, h.priority r hr, h.priority s hs]
  rcases hrs with hlt | ⟨heq, hsub⟩
  · exact Or.inl hlt
  · exact Or.inr ⟨heq, Nat.le_of_lt (List.pairwise_iff_forall_sublist.1 h.numbered hsub)⟩

/-- **Sorting by priority and number is sorting the line-up by priority.** -/
theorem Keeps.rules_eq (h : b.Keeps l) : b.rules = l.inOrder := by
  have hmem : ∀ r, r ∈ l.mergeSort b.before ↔ r ∈ l :=
    fun r => (List.mergeSort_perm l b.before).mem_iff
  have hsorted : l.inOrder.Pairwise fun r s => b.before r s = true := by
    refine (Lineup.inOrder_pairwise h.distinct).imp_of_mem ?_
    intro r s hr hs hrs
    exact h.before_of_precedes (Lineup.mem_inOrder.1 hr) (Lineup.mem_inOrder.1 hs) hrs
  have hperm : (l.mergeSort b.before).Perm l.inOrder :=
    (List.mergeSort_perm l b.before).trans (List.mergeSort_perm l Lineup.atLeast).symm
  rw [RuleBook.rules, h.values]
  refine List.Perm.eq_of_pairwise ?_
    (List.pairwise_mergeSort b.before_trans b.before_total l) hsorted hperm
  intro r s hr hs
  exact h.before_antisymm ((hmem r).1 hr) (Lineup.mem_inOrder.1 hs)

theorem Keeps.freshIds_eq (h : b.Keeps l) (kind : String) :
    b.freshIds kind = (l.dispatch kind).map fun r => r.profile.id := by
  rw [freshIds, h.rules_eq, Lineup.dispatch]

/-! ### Questions -/

/-- The identifiers for a kind are those of the line-up, remembered or not. -/
theorem Keeps.idsFor (h : b.Keeps l) (kind : String) :
    (b.idsFor kind).1 = (l.dispatch kind).map (fun r => r.profile.id) ∧
      (b.idsFor kind).2.Keeps l := by
  unfold RuleBook.idsFor
  split
  · rename_i ids hids
    exact ⟨h.table kind ids hids, h⟩
  · refine ⟨h.freshIds_eq kind, h.entries, h.distinct, h.priority, h.numbered, h.below, ?_⟩
    intro kind' ids hids
    rw [Assoc.get?_put] at hids
    split at hids
    · rename_i hkind
      rw [← eq_of_beq hkind, ← Option.some.inj hids]
      exact h.freshIds_eq kind
    · exact h.table kind' ids hids

/-- Looking up the identifiers of rules of the line-up gives these rules. -/
theorem Keeps.filterMap_ids (h : b.Keeps l) {rs : List Rule} (hrs : ∀ r ∈ rs, r ∈ l) :
    (rs.map fun r => r.profile.id).filterMap (Assoc.get? b.entries) = rs := by
  induction rs with
  | nil => rfl
  | cons r rs ih =>
      rw [List.map_cons, List.filterMap_cons_some (h.get?_of_mem (hrs r List.mem_cons_self)),
        ih fun s hs => hrs s (List.mem_cons_of_mem _ hs)]

theorem Keeps.rulesFor_eq (h : b.Keeps l) (kind : String) :
    (b.rulesFor kind).1 = l.dispatch kind := by
  have hids : (b.rulesFor kind).1 = (b.idsFor kind).1.filterMap (Assoc.get? b.entries) := rfl
  rw [hids, (h.idsFor kind).1]
  exact h.filterMap_ids fun r hr => (Lineup.mem_dispatch.1 hr).1

theorem Keeps.rulesFor (h : b.Keeps l) (kind : String) : (b.rulesFor kind).2.Keeps l :=
  (h.idsFor kind).2

theorem Keeps.inspect (h : b.Keeps l) (n : Node) (site : Site) (t : Tally) :
    (b.inspect n site t).2.2.Keeps l :=
  h.rulesFor n.kind

/-- What a rule finds at a node; a rule that fails finds nothing. -/
def findingsOf (n : Node) (site : Site) (r : Rule) : List Finding :=
  match r.check r.settings n site with
  | .ok found => found
  | .error _ => []

theorem findings_ask (n : Node) (site : Site) (r : Rule) :
    (ask r n site).findings = findingsOf n site r := by
  unfold ask findingsOf
  cases r.check r.settings n site <;> rfl

theorem Keeps.inspect_eq (h : b.Keeps l) (n : Node) (site : Site) (t : Tally) :
    (b.inspect n site t).1 =
      ((l.dispatch n.kind).filter Rule.enabled).flatMap (findingsOf n site) := by
  have hruns : (b.inspect n site t).1 =
      (((b.rulesFor n.kind).1.filter Rule.enabled).map fun r => ask r n site).flatMap
        Run.findings := rfl
  rw [hruns, h.rulesFor_eq, List.flatMap_map]
  simp only [findings_ask]

/-! ### Changes -/

theorem number_of_id_eq (b : RuleBook) {r s : Rule} (h : r.profile.id = s.profile.id) :
    b.number r = b.number s := by
  rw [number, number, h]

theorem priority_of_profile_eq (b : RuleBook) {r s : Rule} (h : r.profile = s.profile) :
    b.priority r = b.priority s := by
  rw [RuleBook.priority, RuleBook.priority, h]

theorem pairwise_number_map {f : Rule → Rule} (hf : ∀ r, (f r).profile.id = r.profile.id)
    (h : l.Pairwise fun r s => b.number r < b.number s) :
    (l.map f).Pairwise fun r s => b.number r < b.number s := by
  rw [List.pairwise_map]
  refine h.imp ?_
  intro r s hrs
  rwa [b.number_of_id_eq (hf r), b.number_of_id_eq (hf s)]

theorem number_map_lt {f : Rule → Rule} (hf : ∀ r, (f r).profile.id = r.profile.id)
    (h : ∀ r ∈ l, b.number r < b.next) : ∀ r ∈ l.map f, b.number r < b.next := by
  intro r hr
  obtain ⟨s, hs, rfl⟩ := List.mem_map.1 hr
  rw [b.number_of_id_eq (hf s)]
  exact h s hs

/-- A rule of a known identifier takes the place of the old one. -/
theorem Keeps.replace (h : b.Keeps l) {r : Rule} (hprior : b.priority r = r.profile.priority)
    (hknown : l.any fun s => s.profile.id == r.profile.id) :
    (b.enter r.profile.id r).Keeps
      (l.map fun s => if s.profile.id == r.profile.id then r else s) := by
  have hhas : Assoc.has b.entries r.profile.id = true := by
    rw [h.entries, Assoc.has_map]
    exact hknown
  have henter : b.enter r.profile.id r =
      { b with entries := Assoc.put b.entries r.profile.id r
               rejected := Assoc.erase b.rejected r.profile.id
               table := [] } := by
    rw [enter, if_pos hhas]
  rw [henter]
  refine ⟨?_, h.distinct.map (Lineup.id_replace r), ?_,
    pairwise_number_map (Lineup.id_replace r) h.numbered,
    number_map_lt (Lineup.id_replace r) h.below, table_of_nil _⟩
  · show Assoc.put b.entries r.profile.id r = _
    rw [h.entries, Assoc.put_map_of_has h.distinct (fun r => r) r hknown, List.map_map]
    apply List.map_congr_left
    intro s _
    rw [Function.comp_apply, Lineup.id_replace]
    split
    · rename_i hid
      rw [eq_of_beq hid]
    · rfl
  · intro x hx
    obtain ⟨s, hs, rfl⟩ := List.mem_map.1 hx
    split
    · exact hprior
    · exact h.priority s hs

/-- A rule of a new identifier gets the next number and goes last. -/
theorem Keeps.append (h : b.Keeps l) {r : Rule} (hprior : b.priority r = r.profile.priority)
    (hnew : (l.any fun s => s.profile.id == r.profile.id) = false) :
    (b.enter r.profile.id r).Keeps (l ++ [r]) := by
  have hhas : Assoc.has b.entries r.profile.id = false := by
    rw [h.entries, Assoc.has_map]
    exact hnew
  have henter : b.enter r.profile.id r =
      { b with entries := Assoc.put b.entries r.profile.id r
               rejected := Assoc.erase b.rejected r.profile.id
               order := Assoc.put b.order r.profile.id b.next
               next := b.next + 1
               table := [] } := by
    rw [enter, hhas]
    rfl
  have hdistinct : Lineup.Distinct (l ++ [r]) := by
    have hl := h.distinct.enlist r
    rwa [Lineup.enlist, hnew] at hl
  have hold : ∀ s ∈ l, r.profile.id ≠ s.profile.id := by
    intro s hs hid
    have hfound : (l.any fun s => s.profile.id == r.profile.id) = true :=
      List.any_eq_true.2 ⟨s, hs, by rw [hid]; exact beq_self_eq_true _⟩
    rw [hnew] at hfound
    cases hfound
  rw [henter]
  -- the old rules keep their numbers, the new one gets the number that was next
  have hkept : ∀ s ∈ l, Assoc.getD (Assoc.put b.order r.profile.id b.next) s.profile.id 0 =
      b.number s := fun s hs => Assoc.getD_put_of_ne _ (hold s hs) _ _
  have hlast : Assoc.getD (Assoc.put b.order r.profile.id b.next) r.profile.id 0 = b.next :=
    Assoc.getD_put_self _ _ _ _
  refine ⟨?_, hdistinct, ?_, ?_, ?_, table_of_nil _⟩
  · show Assoc.put b.entries r.profile.id r = _
    rw [Assoc.put_of_not_has hhas, h.entries, List.map_append]
    rfl
  · intro s hs
    rcases List.mem_append.1 hs with hs | hs
    · exact h.priority s hs
    · rw [List.mem_singleton.1 hs]
      exact hprior
  · refine List.pairwise_append.2 ⟨?_, List.pairwise_singleton _ _, ?_⟩
    · refine h.numbered.imp_of_mem ?_
      intro s t hs ht hst
      show Assoc.getD _ _ 0 < Assoc.getD _ _ 0
      rwa [hkept s hs, hkept t ht]
    · intro s hs t ht
      show Assoc.getD _ _ 0 < Assoc.getD _ _ 0
      rw [List.mem_singleton.1 ht, hkept s hs, hlast]
      exact h.below s hs
  · intro s hs
    show Assoc.getD _ _ 0 < b.next + 1
    rcases List.mem_append.1 hs with hs | hs
    · rw [hkept s hs]
      exact Nat.lt_succ_of_lt (h.below s hs)
    · rw [List.mem_singleton.1 hs, hlast]
      exact Nat.lt_succ_self _

theorem Keeps.enter (h : b.Keeps l) {r : Rule} (hprior : b.priority r = r.profile.priority) :
    (b.enter r.profile.id r).Keeps (l.enlist r) := by
  unfold Lineup.enlist
  split
  · rename_i hknown
    exact h.replace hprior hknown
  · rename_i hnew
    exact h.append hprior (Bool.eq_false_iff.2 hnew)

theorem Keeps.add (h : b.Keeps l) (r : Rule) (settings : Dict) :
    (b.add r settings).book.Keeps
      ((Lineup.admitted b.securityOnly r settings).elim l l.enlist) := by
  obtain ⟨r', hadmitted, hadd⟩ | ⟨hrefused, rejected, r', failure, hadd, _⟩ :=
    b.add_cases r settings
  · obtain ⟨hprofile, _, hsort⟩ := Lineup.of_admitted hadmitted
    rw [hadmitted, hadd]
    exact h.enter (b.priority_eq (hprofile ▸ hsort))
  · rw [hrefused, hadd]
    exact ⟨h.entries, h.distinct, h.priority, h.numbered, h.below, h.table⟩

theorem Keeps.remove (h : b.Keeps l) (id : String) : (b.remove id).2.Keeps (l.strike id) := by
  have hsub : List.Sublist (l.strike id) l := List.filter_sublist
  unfold RuleBook.remove
  split
  · have hkept : ∀ r ∈ l.strike id, Assoc.getD (Assoc.erase b.order id) r.profile.id 0 =
        b.number r := by
      intro r hr
      have hne : r.profile.id ≠ id := by simpa using (List.mem_filter.1 hr).2
      exact Assoc.getD_erase_of_ne _ hne _
    refine ⟨?_, h.distinct.strike id, fun r hr => h.priority r (hsub.subset hr), ?_, ?_,
      table_of_nil _⟩
    · show Assoc.erase b.entries id = _
      rw [h.entries, Assoc.erase_map]
      rfl
    · refine (h.numbered.sublist hsub).imp_of_mem ?_
      intro r s hr hs hrs
      show Assoc.getD _ _ 0 < Assoc.getD _ _ 0
      rwa [hkept r hr, hkept s hs]
    · intro r hr
      show Assoc.getD _ _ 0 < b.next
      rw [hkept r hr]
      exact h.below r (hsub.subset hr)
  · rename_i habsent
    have hall : l.strike id = l := by
      refine List.filter_eq_self.2 fun r hr => ?_
      rw [h.entries, Assoc.has_map] at habsent
      simpa using fun hid => habsent (List.any_eq_true.2 ⟨r, hr, by simpa using hid⟩)
    rw [hall]
    exact h

/-- A rule that is switched on or off stays in every list in which it stood. -/
theorem Keeps.setEnabled (h : b.Keeps l) (id : String) (on : Bool) :
    (b.setEnabled id on).2.Keeps (l.switch id on) := by
  have hprofile := Lineup.profile_switch id on
  have hid : ∀ r : Rule, (if r.profile.id == id then { r with enabled := on } else r).profile.id =
      r.profile.id := fun r => congrArg Rule.Profile.id (hprofile r)
  have hmap : b.entries = l.map (fun r => (r.profile.id, r)) := h.entries
  unfold RuleBook.setEnabled
  split
  · rename_i r hfound
    have hmem : (id, r) ∈ l.map fun r => (r.profile.id, r) := by
      rw [← hmap]
      exact Assoc.mem_of_get? hfound
    obtain ⟨r', hr, hpair⟩ := List.mem_map.1 hmem
    obtain ⟨rfl, rfl⟩ := Prod.mk.inj hpair
    have hknown : l.any fun s => s.profile.id == r'.profile.id :=
      List.any_eq_true.2 ⟨r', hr, beq_self_eq_true _⟩
    refine ⟨?_, h.distinct.map hid, ?_, pairwise_number_map hid h.numbered,
      number_map_lt hid h.below, ?_⟩
    · show Assoc.put b.entries _ _ = _
      rw [hmap, Assoc.put_map_of_has h.distinct (fun r => r) _ hknown, Lineup.switch, List.map_map]
      apply List.map_congr_left
      intro s hs
      rw [Function.comp_apply, hid]
      split
      · rename_i hsame
        rw [h.distinct.eq_of_id_eq hs hr (eq_of_beq hsame)]
      · rfl
    · intro x hx
      obtain ⟨s, hs, rfl⟩ := List.mem_map.1 hx
      rw [hprofile s]
      exact (b.priority_of_profile_eq (hprofile s)).trans (h.priority s hs)
    · intro kind ids hids
      rw [Lineup.switch, Lineup.dispatch_map hprofile, List.map_map, h.table kind ids hids]
      exact List.map_congr_left fun s _ => (hid s).symm
  · rename_i habsent
    have hall : l.switch id on = l := by
      refine (List.map_congr_left fun r hr => ?_).trans (List.map_id l)
      refine if_neg fun hr' => ?_
      have hfound := h.get?_of_mem hr
      rw [eq_of_beq hr'] at hfound
      rw [RuleBook.get?, hfound] at habsent
      cases habsent
    rw [hall]
    exact h

/-! ### Whole histories -/

theorem step_securityOnly (b : RuleBook) (op : Op) : (b.step op).securityOnly = b.securityOnly := by
  cases op with
  | add r settings =>
      obtain ⟨r', _, hadd⟩ | ⟨_, rejected, r', failure, hadd, _⟩ := b.add_cases r settings
      · show (b.add r settings).book.securityOnly = _
        rw [hadd, RuleBook.enter]
        split <;> rfl
      · show (b.add r settings).book.securityOnly = _
        rw [hadd]
  | remove id =>
      show (b.remove id).2.securityOnly = _
      unfold RuleBook.remove
      split <;> rfl
  | setEnabled id on =>
      show (b.setEnabled id on).2.securityOnly = _
      unfold RuleBook.setEnabled
      split <;> rfl
  | rulesFor kind =>
      show (b.idsFor kind).2.securityOnly = _
      unfold RuleBook.idsFor
      split <;> rfl
  | inspect n site t =>
      show (b.idsFor n.kind).2.securityOnly = _
      unfold RuleBook.idsFor
      split <;> rfl

/-- One operation on the book is one operation on the line-up. -/
theorem Keeps.step (h : b.Keeps l) (op : Op) : (b.step op).Keeps (l.step b.securityOnly op) := by
  cases op with
  | add r settings => exact h.add r settings
  | remove id => exact h.remove id
  | setEnabled id on => exact h.setEnabled id on
  | rulesFor kind => exact h.rulesFor kind
  | inspect n site t => exact h.inspect n site t

/-- **A book goes on keeping the line-up.** -/
theorem Keeps.run (h : b.Keeps l) (ops : List Op) :
    (b.run ops).Keeps (ops.foldl (Lineup.step b.securityOnly) l) := by
  induction ops generalizing b l with
  | nil => exact h
  | cons op ops ih =>
      have hrest := ih (h.step op)
      rw [b.step_securityOnly op] at hrest
      exact hrest

/-! ### What a caller sees -/

/-- A book answers for a line-up. -/
structure Serves (b : RuleBook) (l : Lineup) : Prop where
  /-- The rules of the line-up are registered, under identifiers of their own. -/
  registered : Assoc.values b.entries = l ∧ l.Distinct
  /-- The rules for a kind are those that would be listed now. -/
  afresh : ∀ kind, (b.rulesFor kind).1 = b.rules.filter fun r => r.profile.appliesTo kind
  /-- They are the rules of the line-up that apply to the kind. -/
  applicable : ∀ kind r, r ∈ (b.rulesFor kind).1 ↔ r ∈ l ∧ r.profile.appliesTo kind = true
  /-- They come by priority, and then by their places. -/
  ordered : ∀ kind, (b.rulesFor kind).1.Pairwise l.Precedes
  /-- A rule is refused exactly if it is not admitted.  Then nothing changes, and a rule that is not
  of the wrong sort is switched off unless a check failed. -/
  refused : ∀ r settings,
    ((b.add r settings).taken = false ↔ Lineup.admitted b.securityOnly r settings = none) ∧
    ((b.add r settings).taken = false →
      (b.add r settings).book.entries = b.entries ∧ (b.add r settings).book.rules = b.rules ∧
      (∀ kind, ((b.add r settings).book.rulesFor kind).1 = (b.rulesFor kind).1) ∧
      ((b.securityOnly = true → r.profile.security.isSome = true) →
        (b.add r settings).failure = none → (b.add r settings).rule.enabled = false))
  /-- The findings at a node are those of the rules that are switched on, one after the other; a
  rule that fails adds nothing. -/
  findings : ∀ n site t, (b.inspect n site t).1 =
    ((b.rulesFor n.kind).1.filter Rule.enabled).flatMap (findingsOf n site)

theorem Keeps.serves (h : b.Keeps l) : b.Serves l where
  registered := ⟨h.values, h.distinct⟩
  afresh kind := by
    rw [h.rulesFor_eq, h.rules_eq, Lineup.dispatch]
  applicable kind r := by
    rw [h.rulesFor_eq]
    exact Lineup.mem_dispatch
  ordered kind := by
    rw [h.rulesFor_eq]
    exact Lineup.dispatch_pairwise h.distinct kind
  refused r settings := by
    obtain ⟨r', hadmitted, hadd⟩ | ⟨hrefused, rejected, r', failure, hadd, hoff⟩ :=
      b.add_cases r settings
    · rw [hadd, hadmitted]
      refine ⟨⟨fun h => ?_, fun h => ?_⟩, fun h => ?_⟩ <;> cases h
    · have hkeeps : ({ b with rejected } : RuleBook).Keeps l :=
        ⟨h.entries, h.distinct, h.priority, h.numbered, h.below, h.table⟩
      rw [hadd, hrefused]
      exact ⟨⟨fun _ => rfl, fun _ => rfl⟩,
        fun _ => ⟨rfl, rfl, fun kind => by rw [hkeeps.rulesFor_eq, h.rulesFor_eq], hoff⟩⟩
  findings n site t := by
    rw [h.inspect_eq, h.rulesFor_eq]

/-- **After any history a book, for all rules or for security rules only, serves the line-up that
the history leads to.** -/
theorem run_serves_lineup (securityOnly : Bool) (ops : List Op) :
    (run { securityOnly } ops).Serves (Lineup.run securityOnly ops) :=
  ((keeps_empty securityOnly).run ops).serves

/-- A security rule of a risk level that is asked everywhere. -/
def watch (id : String) (risk : Severity) : Rule :=
  Rule.guarded { id, name := id, nodeKinds := ["*"] }
    { vulnerability := id, owasp := .injection, risk } [] (fun _ => []) (fun _ _ _ => .ok none)

/-- Three rules come, one of them twice; one is refused, and one is taken out and comes back. -/
def rulesReAdded : List Op :=
  [.add (watch "a" .low) [], .add (watch "b" .high) [], .rulesFor "echo", .setEnabled "b" false,
   .add (watch "c" .high) [], .rulesFor "echo", .add (watch "a" .critical) [],
   .add (watch " " .critical) [], .remove "b", .add (watch "b" .high) []]

theorem rulesReAdded_serves_lineup :
    (Lineup.run true rulesReAdded).map (fun r => r.profile.id) = ["a", "c", "b"] ∧
    (run { securityOnly := true } rulesReAdded).Serves (Lineup.run true rulesReAdded) :=
  ⟨by decide +kernel, run_serves_lineup true rulesReAdded⟩

end RuleBook

end PhpAudit
