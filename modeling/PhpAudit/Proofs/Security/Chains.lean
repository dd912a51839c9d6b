/-
**Which strings of a chain of concatenations the security analyzer reports.**

A string with SQL in it that takes part in a concatenation is to be reported once per chain, at the
first literal with a keyword in it.  Whether a string is reported is decided at the string: the
chain is looked up from there, and one test picks the literal that stands for the chain while
another says whether a literal looks like a query.  So a chain is reported once at its first literal
with a keyword if this literal stands in the chain itself, is of a kind that the rule is asked about
and looks like a query; if it is not, the chain is not reported there at all, whatever else is in
it.  Strings in parentheses do not see the chain and are reported for themselves if they have
variables in them.

Main definitions:

* `Security.Sql.isAboutString` — the findings of the rule about strings;
* `Security.Sql.looksSuspect` — a string that the rule is asked about and that looks like a query;
* `Security.Sql.isDirect`, `Security.Sql.isReported` — how a literal stands in its chain, and which
  ones are reported.

Main results:

* `Security.Sql.inspectString_operand` — when a literal of a chain is suspected;
* `Security.Sql.length_foundAt` — what the analyzer finds at a literal of a chain;
* `Security.Sql.countP_isReported` — how many literals of a chain are reported;
* `Security.Sql.chain_reports` — **how often a chain is reported**;
* `Security.Sql.sweep_of_unreported` — a file with one chain that is not reported;
* `Security.Sql.prose_hides_query` — **a chain with a query in it that is not**.
-/

import PhpAudit.Proofs.Php.Concatenation
import PhpAudit.Proofs.Security.QueryCalls

set_option autoImplicit false

namespace PhpAudit

open Walk (Place Trail Way)

/-! ### Titles and places -/

theorem Rule.title_of_report {p : Rule.Profile} {s : Rule.Security} {settings : Dict} {n : Node}
    {site : Rule.Site} {x : Rule.Suspicion} {e : Evidence} {found : List Finding}
    (h : Rule.report p s settings n site x e = .ok found) {f : Finding} (hf : f ∈ found) :
    f.title = x.title := by
  obtain ⟨description, hfinding⟩ := Rule.of_report h hf
  obtain ⟨g, hg, h⟩ := of_bind_eq_ok hfinding
  cases h
  obtain ⟨severity, _, hg⟩ := of_bind_eq_ok hg
  obtain ⟨category, _, hg⟩ := of_bind_eq_ok hg
  cases hg
  rfl

/-- Nothing between a literal and the top of its chain is a class. -/
theorem Security.OutsideTests.operand {path : String} {top : Node} {above : List Node} {q : Place}
    (h : Security.OutsideTests path above) (hq : q ∈ Php.operandPlaces above top) :
    Security.OutsideTests path q.above where
  path := h.path
  classes n hn hclass := by
    obtain ⟨_, between, hclimbs⟩ := Php.exists_climbs hq
    rw [hclimbs.above_eq] at hn
    rcases List.mem_append.1 hn with hn | hn
    · rcases hclimbs.kinds n hn with h | h <;>
        exact absurd (h.symm.trans hclass) (by decide)
    · exact h.classes n hn hclass

namespace Security.Sql

open Php (isConcatenation operandPlaces)

/-- Whether a finding is one of the rule about a string. -/
def isAboutString (f : Finding) : Bool :=
  f.ruleId.str? == some "sql_injection" && f.title.str? == some "Potential SQL Injection"

/-- The strings that the rule is asked about. -/
def askedStringKinds : List String :=
  ["encapsed_string", "string"]

/-- A string that the rule is asked about, with a keyword in it, that looks like a query. -/
def looksSuspect (n : Node) : Bool :=
  askedStringKinds.contains n.kind && hasKeyword (Php.stringContent n) &&
    looksLikeQuery (Php.stringContent n)

/-- Whether a literal stands in a concatenation itself, not in parentheses. -/
def isDirect (q : Place) : Bool :=
  q.above.head?.any isConcatenation

/-- Whether a literal begins where the first literal with a keyword of its chain does. -/
def isAtFirst (top : Node) (q : Place) : Bool :=
  (firstLiteral? top).any fun first => first.span.startByte == q.node.span.startByte

/-- Whether a literal of a chain is reported. -/
def isReported (top : Node) (q : Place) : Bool :=
  looksSuspect q.node && if isDirect q then isAtFirst top q else Php.hasInterpolation q.node

/-! ### Suspicions -/

/-- What a string can be suspected of. -/
theorem of_inspectString {n : Node} {trail : Trail} {x : Rule.Suspicion} {e : Evidence}
    (h : inspectString n trail = some (x, e)) :
    x.title = .str "Potential SQL Injection" ∧ x.severity = none ∧
      Rule.meetsConfidence rule.settings e = true := by
  unfold inspectString at h
  split at h
  · cases h
  · dsimp only at h
    split at h
    · cases h
    · split at h
      · cases h
      split at h
      · cases h
      split at h
      · cases h
      split at h
      · cases h
      cases h
      refine ⟨rfl, rfl, ?_⟩
      -- two kinds of evidence, each with or without request data
      split <;> split <;> decide +kernel

theorem inspectString_isSome {n parent : Node} {others : List Node} {trail : Trail}
    (hancestors : trail.ancestors = parent :: others)
    (hcalls : trail.findAncestor? isQueryCall = none) :
    (inspectString n trail).isSome =
      (hasKeyword (Php.stringContent n) && looksLikeQuery (Php.stringContent n) &&
        (isConcatenation parent || Php.hasInterpolation n) && !coveredByChain n parent others) := by
  have hkeyword : hasKeyword (Php.stringContent n) = (firstKeyword? (Php.stringContent n)).isSome :=
    rfl
  simp only [inspectString, hancestors, hcalls, hkeyword]
  cases firstKeyword? (Php.stringContent n) with
  | none => rfl
  | some word =>
      simp only [← Bool.not_or]
      cases isConcatenation parent || Php.hasInterpolation n <;>
        cases looksLikeQuery (Php.stringContent n) <;>
          cases coveredByChain n parent others <;> rfl

/-! ### Literals of a chain -/

/-- From a literal in a chain the top of the chain is found. -/
theorem chainTop_eq {top parent : Node} {rest above : List Node}
    (hlast : (parent :: rest).getLast? = some top) (hrest : ∀ n ∈ rest, isConcatenation n = true)
    (hmaximal : above.head?.any isConcatenation = false) :
    chainTop parent (rest ++ above) = top := by
  have hstop : above.takeWhile isConcatenation = [] := by
    cases above with
    | nil => rfl
    | cons n above => rw [List.takeWhile_cons, if_neg (by simpa using hmaximal)]
  unfold chainTop
  rw [List.takeWhile_append_of_pos hrest, hstop, List.append_nil]
  rw [List.getLast?_cons] at hlast
  exact Option.some.inj hlast

theorem not_isQueryCall_of_kind {n : Node}
    (h : n.kind = "binary_expression" ∨ n.kind = "parenthesized_expression") :
    isQueryCall n = false := by
  have hcall : Php.isCall n = false := by
    unfold Php.isCall
    rcases h with h | h <;> rw [h] <;> decide
  rw [isQueryCall, hcall, Bool.false_and]

/-- Above a literal stands no query call if there is none above its chain. -/
theorem not_isQueryCall_above {top : Node} {above between : List Node} {q : Place}
    (hclimbs : Php.Climbs q top above between) (hcalls : ∀ n ∈ above, isQueryCall n = false) :
    ∀ n ∈ q.above, isQueryCall n = false := by
  intro n hn
  rw [hclimbs.above_eq] at hn
  rcases List.mem_append.1 hn with hn | hn
  · exact not_isQueryCall_of_kind (hclimbs.kinds n hn)
  · exact hcalls n hn

/-- A string with a keyword in it is covered by its chain if it stands in the chain itself and is
not the first one. -/
theorem coveredByChain_operand {top parent : Node} {rest above : List Node} {q : Place}
    (hclimbs : Php.Climbs q top above (parent :: rest))
    (hlast : (parent :: rest).getLast? = some top)
    (hmaximal : above.head?.any isConcatenation = false) (hq : q ∈ operandPlaces above top)
    (hliteral : (Php.isString q.node && hasKeyword (Php.stringContent q.node)) = true) :
    coveredByChain q.node parent (rest ++ above) =
      (isConcatenation parent && !isAtFirst top q) := by
  unfold coveredByChain
  cases hparent : isConcatenation parent with
  | false => rw [Bool.false_and, Bool.false_and]
  | true =>
      have hall : ∀ n ∈ parent :: rest, isConcatenation n = true :=
        hclimbs.joined (by simpa using hparent)
      have htop : chainTop parent (rest ++ above) = top :=
        chainTop_eq hlast (fun n hn => hall n (List.mem_cons_of_mem _ hn)) hmaximal
      have hmem : q.node ∈ Php.concatenationParts top := by
        rw [← Php.map_node_operandPlaces above]
        exact List.mem_map_of_mem hq
      obtain ⟨first, hfirst⟩ : ∃ first, firstLiteral? top = some first :=
        Option.isSome_iff_exists.1 (List.find?_isSome.2 ⟨q.node, hmem, hliteral⟩)
      rw [htop, isAtFirst, hfirst]
      rfl

/-- When a string in a chain is suspected. -/
theorem inspectString_operand {top : Node} {above : List Node} {q : Place} {trail : Trail}
    (hchain : isConcatenation top = true) (hmaximal : above.head?.any isConcatenation = false)
    (hcalls : ∀ n ∈ above, isQueryCall n = false) (hq : q ∈ operandPlaces above top)
    (hshown : trail.Shows q) (hstring : Php.isString q.node = true) :
    (inspectString q.node trail).isSome =
      (hasKeyword (Php.stringContent q.node) && looksLikeQuery (Php.stringContent q.node) &&
        if isDirect q then isAtFirst top q else Php.hasInterpolation q.node) := by
  obtain ⟨parent, rest, hclimbs, hlast⟩ := Php.exists_climbs_cons hchain hq
  have hancestors : trail.ancestors = parent :: (rest ++ above) := by
    rw [hshown.ancestors, hclimbs.above_eq, List.cons_append]
  have hnone : trail.findAncestor? isQueryCall = none := by
    rw [hshown.found, List.find?_eq_none]
    intro n hn
    rw [not_isQueryCall_above hclimbs hcalls n hn]
    exact Bool.false_ne_true
  have hdirect : isDirect q = isConcatenation parent := by
    rw [isDirect, hclimbs.above_eq]
    rfl
  rw [inspectString_isSome hancestors hnone, hdirect]
  cases hkeyword : hasKeyword (Php.stringContent q.node) with
  | false => simp only [Bool.false_and]
  | true =>
      have hliteral : (Php.isString q.node && hasKeyword (Php.stringContent q.node)) = true := by
        rw [hstring, hkeyword]
        rfl
      rw [coveredByChain_operand hclimbs hlast hmaximal hq hliteral]
      cases isConcatenation parent <;> simp

/-! ### Findings about strings -/

theorem title_of_inspectCall {n : Node} {x : Rule.Suspicion} {e : Evidence}
    (h : inspectCall n = some (x, e)) :
    x.title = .str "SQL Injection" ∨ x.title = .str "Incorrect usage of safe function" := by
  unfold inspectCall at h
  dsimp only at h
  split at h
  · cases h
    exact Or.inl rfl
  · split at h
    · split at h
      · cases h
        exact Or.inr rfl
      · cases h
    · cases h

/-- What the rule reports about a call has another title. -/
theorem filter_findingsOf_call {n : Node} {site : Rule.Site} (hcall : Php.isCall n = true)
    (houtside : Rule.inTestCode rule.settings site = .ok false) :
    (RuleBook.findingsOf n site rule).filter isAboutString = [] := by
  obtain ⟨s, hcheck⟩ := check_eq_elim houtside
  rw [if_pos hcall] at hcheck
  refine List.filter_eq_nil_iff.2 fun f hf => ?_
  unfold RuleBook.findingsOf at hf
  rw [hcheck] at hf
  cases hsuspected : inspectCall n with
  | none =>
      rw [hsuspected] at hf
      cases hf
  | some xe =>
      rw [hsuspected, Option.elim] at hf
      split at hf
      · rename_i found hfound
        have htitle := Rule.title_of_report hfound hf
        unfold isAboutString
        rcases title_of_inspectCall hsuspected with h | h <;> rw [htitle, h] <;> simp [Value.str?]
      · cases hf

/-- A string that is suspected is reported, once. -/
theorem length_findingsOf_string {n : Node} {site : Rule.Site} (hcall : Php.isCall n = false)
    (houtside : Rule.inTestCode rule.settings site = .ok false) :
    ((RuleBook.findingsOf n site rule).filter isAboutString).length =
      (inspectString n site.trail).isSome.toNat := by
  obtain ⟨s, hcheck⟩ := check_eq_elim houtside
  rw [hcall, if_neg Bool.false_ne_true] at hcheck
  unfold RuleBook.findingsOf
  rw [hcheck]
  cases hsuspected : inspectString n site.trail with
  | none => rfl
  | some xe =>
      obtain ⟨x, e⟩ := xe
      obtain ⟨htitle, hseverity, hconfident⟩ := of_inspectString hsuspected
      obtain ⟨f, hfound⟩ := report_rule s n site hseverity hconfident
      have hreport : rule.check rule.settings n site = .ok [f] := by
        rw [hcheck, hsuspected]
        exact hfound
      obtain ⟨hid, _, _⟩ := Security.signs_of_mem_rules List.mem_cons_self _ _ _ _ hreport f
        List.mem_cons_self
      have htitled := Rule.title_of_report hfound List.mem_cons_self
      have habout : isAboutString f = true := by
        rw [isAboutString, hid, htitled, htitle]
        rfl
      rw [Option.elim, hfound]
      simp only [List.filter_cons, habout, if_true, List.filter_nil]
      rfl

/-! ### Findings at the literals of a chain -/

theorem flatMap_eq_of_nodup {α β : Type} {l : List α} {a : α} {g : α → List β} (hl : l.Nodup)
    (ha : a ∈ l) (hother : ∀ b ∈ l, b ≠ a → g b = []) : l.flatMap g = g a := by
  induction l with
  | nil => cases ha
  | cons b l ih =>
      obtain ⟨hnew, hl⟩ := List.nodup_cons.1 hl
      rw [List.flatMap_cons]
      rcases List.mem_cons.1 ha with rfl | ha
      · have hrest : l.flatMap g = [] := by
          refine List.flatMap_eq_nil_iff.2 fun c hc => hother c (List.mem_cons_of_mem _ hc) ?_
          rintro rfl
          exact hnew hc
        rw [hrest, List.append_nil]
      · rw [hother b List.mem_cons_self (by rintro rfl; exact hnew ha), List.nil_append]
        exact ih hl ha fun c hc => hother c (List.mem_cons_of_mem _ hc)

/-- The findings about a string are those of the rule, if it is asked. -/
theorem filter_foundAt (file : SourceFile) (n : Node) (trail : Trail) :
    (Lineup.foundAt rules file n trail).filter isAboutString =
      if rule.profile.appliesTo n.kind then
        (RuleBook.findingsOf n ⟨file, trail⟩ rule).filter isAboutString
      else [] := by
  have hothers : ∀ r ∈ (Lineup.dispatch rules n.kind).filter Rule.enabled, r ≠ rule →
      (RuleBook.findingsOf n ⟨file, trail⟩ r).filter isAboutString = [] := by
    intro r hr hne
    have hmem : r ∈ rules := (Lineup.mem_dispatch.1 (List.mem_filter.1 hr).1).1
    refine List.filter_eq_nil_iff.2 fun f hf habout => hne (eq_rule_of_id hmem ?_)
    obtain ⟨hid, _, _⟩ := (Security.signs_of_mem_rules hmem).of_mem_findingsOf hf
    rw [isAboutString, hid, Bool.and_eq_true] at habout
    exact Option.some.inj (eq_of_beq habout.1)
  rw [Lineup.foundAt, List.filter_flatMap]
  split
  · rename_i happlies
    refine flatMap_eq_of_nodup ?_ ?_ hothers
    · have hnodup : (Lineup.inOrder rules).Nodup :=
        (List.mergeSort_perm _ _).nodup_iff.2 RuledAnalyzer.standardSecurity_keeps.distinct.nodup
      exact hnodup.sublist (List.filter_sublist.trans List.filter_sublist)
    · exact List.mem_filter.2 ⟨Lineup.mem_dispatch.2 ⟨List.mem_cons_self, happlies⟩, rfl⟩
  · rename_i hunasked
    refine List.flatMap_eq_nil_iff.2 fun r hr => hothers r hr ?_
    rintro rfl
    exact hunasked (Lineup.mem_dispatch.1 (List.mem_filter.1 hr).1).2

/-- The rule is asked about calls and strings. -/
theorem call_or_string {n : Node} (h : rule.profile.appliesTo n.kind = true) :
    Php.isCall n = true ∧ askedStringKinds.contains n.kind = false ∨
      Php.isCall n = false ∧ Php.isString n = true ∧ askedStringKinds.contains n.kind = true := by
  have hkind : n.kind ∈ rule.profile.nodeKinds := mem_nodeKinds_of_appliesTo h
  simp only [rule, Rule.guarded, List.mem_cons, List.not_mem_nil, or_false] at hkind
  unfold Php.isCall Php.isString
  rcases hkind with h | h | h | h | h <;> rw [h] <;> decide

theorem appliesTo_of_string {n : Node} (h : askedStringKinds.contains n.kind = true) :
    rule.profile.appliesTo n.kind = true := by
  have hkind : n.kind ∈ askedStringKinds := List.contains_iff_mem.1 h
  simp only [askedStringKinds, List.mem_cons, List.not_mem_nil, or_false] at hkind
  rcases hkind with h | h <;> rw [h] <;> decide

/-- **What the analyzer finds at a literal of a chain.** -/
theorem length_foundAt {file : SourceFile} {top : Node} {above : List Node} {q : Place}
    {trail : Trail} (hchain : isConcatenation top = true)
    (hmaximal : above.head?.any isConcatenation = false) (houtside : OutsideTests file.path above)
    (hcalls : ∀ n ∈ above, isQueryCall n = false) (hq : q ∈ operandPlaces above top)
    (hshown : trail.Shows q) :
    ((Lineup.foundAt rules file q.node trail).filter isAboutString).length =
      (isReported top q).toNat := by
  have houtside' : Rule.inTestCode rule.settings ⟨file, trail⟩ = .ok false :=
    inTestCode_eq_false hshown (houtside.operand hq)
  rw [filter_foundAt, isReported, looksSuspect]
  split
  · rename_i happlies
    rcases call_or_string happlies with ⟨hcall, hkind⟩ | ⟨hcall, hstring, hkind⟩
    · rw [filter_findingsOf_call hcall houtside', hkind]
      rfl
    · rw [length_findingsOf_string hcall houtside', hkind, Bool.true_and,
        inspectString_operand hchain hmaximal hcalls hq hshown hstring]
  · rename_i hunasked
    have hkind : askedStringKinds.contains q.node.kind = false :=
      Bool.eq_false_iff.2 fun h => hunasked (appliesTo_of_string h)
    rw [hkind]
    rfl

/-! ### Reports of a chain -/

/-- The findings about strings at some places. -/
def reportsIn (file : SourceFile) (visits : List (Place × Trail)) : List Finding :=
  (visits.flatMap fun visit => Lineup.foundAt rules file visit.1.node visit.2).filter isAboutString

theorem length_reportsIn {file : SourceFile} {top : Node} {above : List Node}
    (hchain : isConcatenation top = true) (hmaximal : above.head?.any isConcatenation = false)
    (houtside : OutsideTests file.path above) (hcalls : ∀ n ∈ above, isQueryCall n = false)
    {visits : List (Place × Trail)} (hplaces : ∀ visit ∈ visits, visit.1 ∈ operandPlaces above top)
    (hshown : ∀ visit ∈ visits, visit.2.Shows visit.1) :
    (reportsIn file visits).length = (visits.map Prod.fst).countP (isReported top) := by
  induction visits with
  | nil => rfl
  | cons visit visits ih =>
      have hfirst := length_foundAt hchain hmaximal houtside hcalls
        (hplaces visit List.mem_cons_self) (hshown visit List.mem_cons_self)
      have hrest := ih (fun v hv => hplaces v (List.mem_cons_of_mem _ hv))
        fun v hv => hshown v (List.mem_cons_of_mem _ hv)
      rw [reportsIn] at hrest ⊢
      rw [List.flatMap_cons, List.filter_append, List.length_append, hfirst, hrest, List.map_cons,
        List.countP_cons, Nat.add_comm]
      cases isReported top visit.1 <;> rfl

/-- The first literal of a chain with a keyword in it, with its place. -/
def leader? (above : List Node) (top : Node) : Option Place :=
  (operandPlaces above top).find? fun q =>
    Php.isString q.node && hasKeyword (Php.stringContent q.node)

theorem firstLiteral?_eq (above : List Node) (top : Node) :
    firstLiteral? top = (leader? above top).map Place.node := by
  rw [firstLiteral?, ← Php.map_node_operandPlaces above, List.find?_map]
  rfl

/-- If a key picks one element of a list, at most this one is counted. -/
theorem countP_of_key {α : Type} {l : List α} {key : α → Int} {p : α → Bool} {a : α}
    (hkeys : (l.map key).Nodup) (ha : a ∈ l) :
    l.countP (fun b => p b && key a == key b) = (p a).toNat := by
  induction l with
  | nil => cases ha
  | cons b l ih =>
      rw [List.map_cons, List.nodup_cons] at hkeys
      rw [List.countP_cons]
      rcases List.mem_cons.1 ha with rfl | ha
      · have hrest : l.countP (fun b => p b && key a == key b) = 0 := by
          refine List.countP_eq_zero.2 fun b hb h => hkeys.1 ?_
          rw [Bool.and_eq_true] at h
          exact eq_of_beq h.2 ▸ List.mem_map_of_mem hb
        rw [hrest, beq_self_eq_true, Bool.and_true]
        cases p a <;> rfl
      · have hne : (key a == key b) = false := by
          refine beq_eq_false_iff_ne.2 fun heq => hkeys.1 ?_
          rw [← heq]
          exact List.mem_map_of_mem ha
        rw [hne, Bool.and_false, ih hkeys.2 ha]
        rfl

/-- **How many literals of a chain are reported**: the first one with a keyword, if it stands in the
chain itself and looks like a query, and each one in parentheses that looks like a query with
variables in it. -/
theorem countP_isReported {above : List Node} {top : Node}
    (hstarts : ((operandPlaces above top).map fun q => q.node.span.startByte).Nodup) :
    (operandPlaces above top).countP (isReported top) =
      ((leader? above top).any fun q => isDirect q && looksSuspect q.node).toNat +
        (operandPlaces above top).countP fun q =>
          !isDirect q && (looksSuspect q.node && Php.hasInterpolation q.node) := by
  have hleader : (operandPlaces above top).countP
      (fun q => isDirect q && looksSuspect q.node && isAtFirst top q) =
        ((leader? above top).any fun q => isDirect q && looksSuspect q.node).toNat := by
    simp only [isAtFirst, firstLiteral?_eq above]
    cases hfirst : leader? above top with
    | none => simp
    | some first =>
        have hmem : first ∈ operandPlaces above top := List.mem_of_find?_eq_some hfirst
        exact countP_of_key hstarts hmem
  rw [← hleader, List.countP_eq_countP_filter_add _ _ isDirect, List.countP_filter,
    List.countP_filter]
  -- direct literals are counted in the first sum, those in parentheses in the second
  congr 1 <;> congr 1 <;> funext q <;> rw [isReported] <;> cases isDirect q <;> simp

/-- **How often a chain is reported.**  With the default settings the findings of a walk come from
the places within the depth limit, each of which is visited once.  Take a chain that is not part of
a larger one, outside test code and below no call that sends or prepares a query.  At its literals
there are as many findings about strings as there are literals that are reported.  If the literals
begin at different places and none is too deep, this is one for the first literal with a keyword,
provided that it stands in the chain itself and looks like a query, and one for each literal in
parentheses that looks like a query and has variables in it. -/
theorem chain_reports (file : SourceFile) {top : Node} {above : List Node}
    (hway : Way [file.tree.root] top above) (hchain : isConcatenation top = true)
    (hmaximal : above.head?.any isConcatenation = false)
    (houtside : OutsideTests file.path above) (hcalls : ∀ n ∈ above, isQueryCall n = false) :
    ∃ a, RuledAnalyzer.make .security Settings.defaults = .ok a ∧
    ∃ visits picked : List (Place × Trail),
      (a.book.sweep file).1.findings =
        visits.flatMap (fun visit => Lineup.foundAt rules file visit.1.node visit.2) ∧
      visits.map Prod.fst =
        (Walk.placesIn [] [file.tree.root]).filter ({} : Walk.Options).reaches ∧
      picked.Sublist visits ∧
      picked.map Prod.fst = (operandPlaces above top).filter ({} : Walk.Options).reaches ∧
      (operandPlaces above top).map Place.node = Php.concatenationParts top ∧
      (reportsIn file picked).length =
        ((operandPlaces above top).filter ({} : Walk.Options).reaches).countP (isReported top) ∧
      (((operandPlaces above top).map fun q => q.node.span.startByte).Nodup →
        (∀ q ∈ operandPlaces above top, q.above.length ≤ 500) →
          (reportsIn file picked).length =
            ((leader? above top).any fun q => isDirect q && looksSuspect q.node).toNat +
              (operandPlaces above top).countP fun q =>
                !isDirect q && (looksSuspect q.node && Php.hasInterpolation q.node)) := by
  obtain ⟨visits, hplaces, hshown, hfindings⟩ :=
    RuledAnalyzer.standardSecurity_keeps.sweep_findings file
  have hbelow : ((operandPlaces above top).filter ({} : Walk.Options).reaches).Sublist
      (visits.map Prod.fst) := by
    rw [hplaces]
    exact ((Php.operandPlaces_sublist above top).trans hway.placesOf_sublist).filter _
  obtain ⟨picked, hpicked, hparts⟩ := List.sublist_map_iff.1 hbelow
  have hcount : (reportsIn file picked).length =
      ((operandPlaces above top).filter ({} : Walk.Options).reaches).countP (isReported top) := by
    rw [hparts]
    refine length_reportsIn hchain hmaximal houtside hcalls ?_ fun v hv =>
      hshown v (hpicked.subset hv)
    intro v hv
    have hmem : v.1 ∈ picked.map Prod.fst := List.mem_map_of_mem hv
    rw [← hparts] at hmem
    exact (List.mem_filter.1 hmem).1
  refine ⟨_, RuledAnalyzer.make_security, visits, picked, hfindings, hplaces, hpicked, hparts.symm,
    Php.map_node_operandPlaces above top, hcount, ?_⟩
  intro hstarts hdepth
  have hall : (operandPlaces above top).filter ({} : Walk.Options).reaches =
      operandPlaces above top := by
    refine List.filter_eq_self.2 fun q hq => ?_
    have hle := hdepth q hq
    simp only [Walk.Options.reaches, decide_eq_true_eq]
    omega
  rw [hcount, hall, countP_isReported hstarts]

/-- Nothing is found about strings in a file where the rule is asked about parts of one chain only,
none of which is reported. -/
theorem sweep_of_unreported {file : SourceFile} {top : Node} {above : List Node}
    (hchain : isConcatenation top = true) (hmaximal : above.head?.any isConcatenation = false)
    (houtside : OutsideTests file.path above) (hcalls : ∀ n ∈ above, isQueryCall n = false)
    (hasked : ∀ p ∈ (Walk.placesIn [] [file.tree.root]).filter
      (fun p => rule.profile.appliesTo p.node.kind), p ∈ operandPlaces above top)
    (hunreported : ∀ q ∈ operandPlaces above top, isReported top q = false) :
    ∀ f ∈ (RuledAnalyzer.standardSecurity.book.sweep file).1.findings, isAboutString f = false := by
  obtain ⟨visits, hplaces, hshown, hfindings⟩ :=
    RuledAnalyzer.standardSecurity_keeps.sweep_findings file
  intro f hf
  rw [hfindings] at hf
  obtain ⟨visit, hvisit, hf⟩ := List.mem_flatMap.1 hf
  have hplace : visit.1 ∈ visits.map Prod.fst := List.mem_map_of_mem hvisit
  rw [hplaces] at hplace
  have hempty : (Lineup.foundAt rules file visit.1.node visit.2).filter isAboutString = [] := by
    by_cases happlies : rule.profile.appliesTo visit.1.node.kind = true
    · have hq : visit.1 ∈ operandPlaces above top :=
        hasked _ (List.mem_filter.2 ⟨(List.mem_filter.1 hplace).1, happlies⟩)
      have hlength := length_foundAt hchain hmaximal houtside hcalls hq (hshown visit hvisit)
      rw [hunreported _ hq] at hlength
      exact List.length_eq_zero_iff.1 hlength
    · rw [filter_foundAt, if_neg happlies]
  exact Bool.eq_false_iff.2 (List.filter_eq_nil_iff.1 hempty f hf)

/-! ### A chain that is reported and one that is not -/

/-- A node without children on the second line of a file. -/
def leafAt (kind : String) (startColumn endColumn : Int) (field text : String) : Node :=
  { kind
    span :=
      { startLine := 2, startColumn, endColumn, startByte := startColumn + 6
        endByte := endColumn + 6 }
    field := some field
    text }

/-- A concatenation behind the first five columns of the second line. -/
def joinTo (endColumn : Int) (field : String) (left right : Node) : Node :=
  { kind := "binary_expression"
    span :=
      { startLine := 2, startColumn := 5, endColumn, startByte := 11, endByte := endColumn + 6 }
    field := some field
    marks := [("operator", ".")]
    children := [left, right] }

/-- The text of a query. -/
def queryText : Node :=
  leafAt "encapsed_string" 24 58 "right" "\"SELECT name FROM users WHERE id=\""

/-- A second text of a query. -/
def unionText : Node :=
  leafAt "encapsed_string" 67 99 "right" "\" UNION SELECT name FROM admins\""

/-- The first two parts of a chain that begins with a given text. -/
def splicedStart (opening : String) : Node :=
  joinTo 58 "left" (leafAt "encapsed_string" 5 21 "left" opening) queryText

/-- The first three parts of the chain. -/
def splicedHead (opening : String) : Node :=
  joinTo 64 "left" (splicedStart opening) (leafAt "variable_name" 61 64 "right" "$id")

/-- A chain of a text, a query, a variable and another query. -/
def spliced (opening : String) : Node :=
  joinTo 99 "right" (splicedHead opening) unionText

/-- The nodes above the chain: an assignment, a statement and the root of the file. -/
def splicedAbove (opening : String) : List Node :=
  let assignment : Node :=
    { kind := "assignment_expression"
      span := { startLine := 2, endColumn := 99, startByte := 6, endByte := 105 }
      children := [leafAt "variable_name" 0 2 "left" "$q", spliced opening] }
  let statement : Node :=
    { kind := "expression_statement"
      span := { startLine := 2, endColumn := 100, startByte := 6, endByte := 106 }
      children := [assignment] }
  let root : Node :=
    { kind := "program"
      span := { startLine := 1, endLine := 3, endByte := 107 }
      children := [statement] }
  [assignment, statement, root]

/-- A file with the chain in it. -/
def splicedFile (opening : String) : SourceFile :=
  { path := "src/app.php"
    content := "<?php\n$q = " ++ opening ++
      " . \"SELECT name FROM users WHERE id=\" . $id . \" UNION SELECT name FROM admins\";\n"
    digest := ""
    tree := { root := (splicedAbove opening).getLast?.getD default, nodeCount := 11 } }

theorem way_spliced (opening : String) :
    Way [(splicedFile opening).tree.root] (spliced opening) (splicedAbove opening) :=
  .child (.child (.child (.root List.mem_cons_self) List.mem_cons_self) List.mem_cons_self)
    (List.mem_cons_of_mem _ List.mem_cons_self)

theorem outsideTests_spliced (opening : String) :
    OutsideTests (splicedFile opening).path (splicedAbove opening) where
  path := show ∀ pattern ∈ testPatterns,
    Glob.accepts pattern (Text.replace "src/app.php" "\\" "/") = false by decide +kernel
  classes n hn hclass := by
    simp only [splicedAbove, List.mem_cons, List.not_mem_nil, or_false] at hn
    rcases hn with rfl | rfl | rfl <;> exact absurd hclass (by simp)

theorem not_isQueryCall_spliced (opening : String) :
    ∀ n ∈ splicedAbove opening, isQueryCall n = false := by
  intro n hn
  simp only [splicedAbove, List.mem_cons, List.not_mem_nil, or_false] at hn
  rcases hn with rfl | rfl | rfl <;> rfl

/-- The chain has two texts of queries in it and is reported once. -/
theorem revised_query_is_reported_once :
    let opening := "\"please revise \""
    let parts := operandPlaces (splicedAbove opening) (spliced opening)
    (parts.countP fun q => isDirect q && looksSuspect q.node) = 2 ∧
    ∃ a, RuledAnalyzer.make .security Settings.defaults = .ok a ∧
    ∃ visits picked : List (Place × Trail),
      (a.book.sweep (splicedFile opening)).1.findings =
        visits.flatMap
          (fun visit => Lineup.foundAt rules (splicedFile opening) visit.1.node visit.2) ∧
      picked.Sublist visits ∧ picked.map Prod.fst = parts ∧
      (reportsIn (splicedFile opening) picked).length = 1 := by
  intro opening parts
  obtain ⟨a, ha, visits, picked, hfindings, _, hpicked, hparts, _, _, hcount⟩ :=
    chain_reports (splicedFile opening) (way_spliced opening) rfl rfl
      (outsideTests_spliced opening) (not_isQueryCall_spliced opening)
  have hdepth : ∀ q ∈ parts, ({} : Walk.Options).reaches q = true := by decide
  refine ⟨by decide +kernel, a, ha, visits, picked, hfindings, hpicked, ?_, ?_⟩
  · rw [hparts, List.filter_eq_self.2 hdepth]
  · rw [hcount (by decide) (by decide)]
    decide +kernel

/-- **The same chain is not reported if it begins with prose that has a keyword in it**: the prose
stands for the chain, and does not look like a query. -/
theorem prose_hides_query :
    let opening := "\"please update \""
    let above := splicedAbove opening
    let file := splicedFile opening
    (Way [file.tree.root] (spliced opening) above ∧ isConcatenation (spliced opening) = true ∧
      above.head?.any isConcatenation = false ∧ OutsideTests file.path above ∧
      ∀ n ∈ above, isQueryCall n = false) ∧
    (∃ q ∈ operandPlaces above (spliced opening), isDirect q = true ∧ looksSuspect q.node = true) ∧
    ∃ a, RuledAnalyzer.make .security Settings.defaults = .ok a ∧
      ∀ f ∈ (a.book.sweep file).1.findings, isAboutString f = false := by
  intro opening above file
  refine ⟨⟨way_spliced _, rfl, rfl, outsideTests_spliced _, not_isQueryCall_spliced _⟩,
    by decide +kernel, _, RuledAnalyzer.make_security, ?_⟩
  -- of all nodes the rule is asked about the strings only, which are parts of the chain
  have hasked : (Walk.placesIn [] [file.tree.root]).filter
      (fun p => rule.profile.appliesTo p.node.kind) =
        (operandPlaces above (spliced opening)).filter
          fun p => rule.profile.appliesTo p.node.kind := by
    rfl
  have hchain : isConcatenation (spliced opening) = true := rfl
  refine sweep_of_unreported hchain rfl (outsideTests_spliced opening)
    (not_isQueryCall_spliced opening) ?_ ?_
  · rw [hasked]
    exact fun p hp => (List.mem_filter.1 hp).1
  · simp only [isReported, isAtFirst, firstLiteral?_eq above]
    decide +kernel

end Security.Sql

end PhpAudit
