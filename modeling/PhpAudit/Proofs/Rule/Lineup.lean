/-
**The line-up: the rules in force in the order in which they came.**

A rule book keeps its rules, their numbers and the lists by kind in three maps.  What these maps are
for can be said with one list.  The line-up has the rules that were taken up, in the order in which
their identifiers came; a new version of a rule takes the place of the old one, and a rule that was
taken out and comes back goes last.  The order in which rules are asked is the line-up sorted by
priority, where rules of equal priority stay as they stand.

Main definitions:

* `Lineup.enlist`, `Lineup.strike`, `Lineup.switch` — changing a line-up;
* `Lineup.admitted` — the rule as it is taken up, if it is;
* `Lineup.inOrder`, `Lineup.dispatch` — the rules in the order in which they are asked, all of them
  and for one kind;
* `Lineup.Precedes` — which of two rules is asked first.

Main results:

* `Lineup.inOrder_pairwise` — **sorting keeps the order of equals**, so the rules are asked in the
  order of `Lineup.Precedes`;
* `Lineup.dispatch_map` — a change that leaves the profiles alone does not change who is asked;
* `Lineup.dispatch_pairs` — two line-ups with the same profiles are asked side by side.
-/

import PhpAudit.Rule.Validity

set_option autoImplicit false

namespace PhpAudit

/-- The rules in force, in the order in which their identifiers came. -/
abbrev Lineup := List Rule

namespace Lineup

/-! ### Changing a line-up -/

/-- The rule with its settings, if a book takes rules of its sort and nothing is wrong with it. -/
def admitted (securityOnly : Bool) (r : Rule) (settings : Dict) : Option Rule :=
  if securityOnly && r.profile.security.isNone then none
  else
    match r.configured settings with
    | .ok r => if r.validity.errors.isEmpty then some r else none
    | .error _ => none

/-- Takes a rule up: in the place of the rule with its identifier, or else last. -/
def enlist (l : Lineup) (r : Rule) : Lineup :=
  if l.any fun s => s.profile.id == r.profile.id then
    l.map fun s => if s.profile.id == r.profile.id then r else s
  else l ++ [r]

/-- Takes the rule of an identifier out. -/
def strike (l : Lineup) (id : String) : Lineup :=
  l.filter fun r => !(r.profile.id == id)

/-- Switches the rule of an identifier on or off. -/
def switch (l : Lineup) (id : String) (on : Bool) : Lineup :=
  l.map fun r => if r.profile.id == id then { r with enabled := on } else r

/-- No two rules have one identifier. -/
def Distinct (l : Lineup) : Prop :=
  (l.map fun r => r.profile.id).Nodup

variable {l : Lineup}

theorem Distinct.nodup (h : l.Distinct) : l.Nodup :=
  List.Pairwise.imp (fun hne heq => hne (congrArg (fun r : Rule => r.profile.id) heq))
    (List.pairwise_map.1 h)

/-- In a line-up of distinct rules an identifier is that of one rule. -/
theorem Distinct.eq_of_id_eq (h : l.Distinct) {r s : Rule} (hr : r ∈ l) (hs : s ∈ l)
    (hid : r.profile.id = s.profile.id) : r = s := by
  induction l with
  | nil => cases hr
  | cons x l ih =>
      obtain ⟨hnew, hrest⟩ := List.nodup_cons.1 h
      rcases List.mem_cons.1 hr with rfl | hr' <;> rcases List.mem_cons.1 hs with rfl | hs'
      · rfl
      · exact absurd (List.mem_map.2 ⟨s, hs', hid.symm⟩) hnew
      · exact absurd (List.mem_map.2 ⟨r, hr', hid⟩) hnew
      · exact ih hrest hr' hs'

theorem Distinct.strike (h : l.Distinct) (id : String) : (l.strike id).Distinct :=
  List.Sublist.nodup (List.filter_sublist.map _) h

theorem Distinct.map (h : l.Distinct) {f : Rule → Rule}
    (hf : ∀ r, (f r).profile.id = r.profile.id) : Distinct (l.map f) := by
  have hids : ((l.map f).map fun r => r.profile.id) = l.map fun r => r.profile.id := by
    rw [List.map_map]
    exact List.map_congr_left fun r _ => hf r
  rw [Distinct, hids]
  exact h

/-- What takes the place of each rule when a rule comes that may be known already. -/
theorem id_replace (r s : Rule) :
    (if s.profile.id == r.profile.id then r else s).profile.id = s.profile.id := by
  split
  · rename_i h
    exact (eq_of_beq h).symm
  · rfl

theorem profile_switch (id : String) (on : Bool) (r : Rule) :
    (if r.profile.id == id then { r with enabled := on } else r).profile = r.profile := by
  split <;> rfl

theorem Distinct.enlist (h : l.Distinct) (r : Rule) : (l.enlist r).Distinct := by
  rw [Lineup.enlist]
  split
  · exact h.map (id_replace r)
  · rename_i hnew
    rw [Distinct, List.map_append]
    refine List.nodup_append.2 ⟨h, List.pairwise_singleton _ _, ?_⟩
    intro id hid id' hid' heq
    obtain ⟨s, hs, rfl⟩ := List.mem_map.1 hid
    rw [List.map_singleton, List.mem_singleton] at hid'
    exact hnew (List.any_eq_true.2 ⟨s, hs, by rw [heq, hid']; exact beq_self_eq_true _⟩)

/-! ### Who is asked, and in which order -/

/-- Whether the priority of a rule is at least that of another. -/
def atLeast (r s : Rule) : Bool :=
  decide (s.profile.priority ≤ r.profile.priority)

/-- The rules in the order in which they are asked. -/
def inOrder (l : Lineup) : List Rule :=
  l.mergeSort atLeast

/-- The rules for a kind of node, in the order in which they are asked. -/
def dispatch (l : Lineup) (kind : String) : List Rule :=
  l.inOrder.filter fun r => r.profile.appliesTo kind

/-- A rule is asked before another if its priority is greater, or if it is the same and the rule
stands first in the line-up. -/
def Precedes (l : Lineup) (r s : Rule) : Prop :=
  s.profile.priority < r.profile.priority ∨
    s.profile.priority = r.profile.priority ∧ List.Sublist [r, s] l

theorem atLeast_trans (r s t : Rule) (hrs : atLeast r s) (hst : atLeast s t) : atLeast r t := by
  simp only [atLeast, decide_eq_true_eq] at *
  exact Nat.le_trans hst hrs

theorem atLeast_total (r s : Rule) : (atLeast r s || atLeast s r) = true := by
  simp only [atLeast, Bool.or_eq_true, decide_eq_true_eq]
  exact Nat.le_total _ _

theorem mem_inOrder {r : Rule} : r ∈ l.inOrder ↔ r ∈ l :=
  (List.mergeSort_perm l atLeast).mem_iff

theorem mem_dispatch {kind : String} {r : Rule} :
    r ∈ l.dispatch kind ↔ r ∈ l ∧ r.profile.appliesTo kind = true := by
  rw [dispatch, List.mem_filter, mem_inOrder]

/-- Of two different rules one stands first. -/
theorem sublist_or_sublist {r s : Rule} (hr : r ∈ l) (hs : s ∈ l) (hne : r ≠ s) :
    List.Sublist [r, s] l ∨ List.Sublist [s, r] l := by
  induction l with
  | nil => cases hr
  | cons x l ih =>
      rcases List.mem_cons.1 hr with rfl | hr' <;> rcases List.mem_cons.1 hs with rfl | hs'
      · exact absurd rfl hne
      · exact Or.inl ((List.singleton_sublist.2 hs').cons_cons _)
      · exact Or.inr ((List.singleton_sublist.2 hr').cons_cons _)
      · exact (ih hr' hs').imp (List.Sublist.cons _) (List.Sublist.cons _)

/-- Two rules do not stand both ways round in a list without repetitions. -/
theorem not_sublist_swap {l : List Rule} (hl : l.Nodup) {r s : Rule} (h : List.Sublist [r, s] l) :
    ¬ List.Sublist [s, r] l := by
  induction l with
  | nil => cases h
  | cons x l ih =>
      obtain ⟨hx, hrest⟩ := List.nodup_cons.1 hl
      intro hswap
      cases h with
      | cons _ h =>
          cases hswap with
          | cons _ hswap => exact ih hrest h hswap
          | cons_cons _ _ => exact hx (h.subset (List.mem_cons_of_mem _ List.mem_cons_self))
      | cons_cons _ h =>
          cases hswap with
          | cons _ hswap => exact hx (hswap.subset (List.mem_cons_of_mem _ List.mem_cons_self))
          | cons_cons _ _ => exact hx (h.subset List.mem_cons_self)

/-- **Sorting by priority keeps the order of equals.** -/
theorem inOrder_pairwise (hl : l.Distinct) : l.inOrder.Pairwise (Precedes l) := by
  have hnodup : l.inOrder.Nodup := (List.mergeSort_perm l atLeast).nodup_iff.2 hl.nodup
  have hsorted : l.inOrder.Pairwise fun r s => atLeast r s = true :=
    List.pairwise_mergeSort atLeast_trans atLeast_total l
  rw [List.pairwise_iff_forall_sublist]
  intro r s hrs
  have hle : s.profile.priority ≤ r.profile.priority :=
    of_decide_eq_true (List.pairwise_iff_forall_sublist.1 hsorted hrs)
  rcases Nat.lt_or_eq_of_le hle with hlt | heq
  · exact Or.inl hlt
  · refine Or.inr ⟨heq, ?_⟩
    have hr : r ∈ l := mem_inOrder.1 (hrs.subset List.mem_cons_self)
    have hs : s ∈ l := mem_inOrder.1 (hrs.subset (List.mem_cons_of_mem _ List.mem_cons_self))
    have hne : r ≠ s := by
      rintro rfl
      exact not_sublist_swap hnodup hrs hrs
    -- were `s` first in the line-up, the stable sort would have left it first
    refine (sublist_or_sublist hr hs hne).resolve_right fun hswap => ?_
    have hback : atLeast s r = true := decide_eq_true (Nat.le_of_eq heq.symm)
    exact not_sublist_swap hnodup hrs
      (List.pair_sublist_mergeSort atLeast_trans atLeast_total hback hswap)

theorem dispatch_pairwise (hl : l.Distinct) (kind : String) :
    (l.dispatch kind).Pairwise (Precedes l) :=
  (inOrder_pairwise hl).sublist List.filter_sublist

/-- A change that leaves the profiles alone does not change who is asked. -/
theorem dispatch_map {f : Rule → Rule} (hf : ∀ r, (f r).profile = r.profile) (kind : String) :
    dispatch (l.map f) kind = (l.dispatch kind).map f := by
  have hsort : l.inOrder.map f = inOrder (l.map f) :=
    List.map_mergeSort fun r _ s _ => by rw [atLeast, atLeast, hf, hf]
  rw [dispatch, ← hsort, List.filter_map, dispatch]
  congr 2
  funext r
  rw [Function.comp_apply, hf]

/-- Rules with the same profiles are asked in the same order. -/
theorem dispatch_pairs {pairs : List (Rule × Rule)} (h : ∀ p ∈ pairs, p.2.profile = p.1.profile)
    (kind : String) :
    ∃ asked : List (Rule × Rule), (∀ p ∈ asked, p ∈ pairs) ∧
      dispatch (pairs.map Prod.fst) kind = asked.map Prod.fst ∧
      dispatch (pairs.map Prod.snd) kind = asked.map Prod.snd := by
  let sorted := pairs.mergeSort fun p q => atLeast p.1 q.1
  have hsorted : ∀ p ∈ sorted, p ∈ pairs := fun p hp => List.mem_mergeSort.1 hp
  have hfst : inOrder (pairs.map Prod.fst) = sorted.map Prod.fst := by
    refine (List.map_mergeSort fun p _ q _ => ?_).symm
    rfl
  have hsnd : inOrder (pairs.map Prod.snd) = sorted.map Prod.snd := by
    refine (List.map_mergeSort fun p hp q hq => ?_).symm
    rw [atLeast, atLeast, h p hp, h q hq]
  refine ⟨sorted.filter fun p => p.1.profile.appliesTo kind, ?_, ?_, ?_⟩
  · exact fun p hp => hsorted p (List.mem_filter.1 hp).1
  · rw [dispatch, hfst, List.filter_map]
    rfl
  · rw [dispatch, hsnd, List.filter_map]
    refine congrArg (List.map Prod.snd) (List.filter_congr fun p hp => ?_)
    rw [Function.comp_apply, h p (hsorted p hp)]

end Lineup

end PhpAudit
