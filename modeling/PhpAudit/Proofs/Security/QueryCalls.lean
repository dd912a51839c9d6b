/-
**Which query calls the security analyzer reports.**

A string with SQL in it is not reported below a call that sends a query, since the call itself is
to be reported.  Whether it is depends on two lists: the kinds of nodes that count as calls, and
the kinds of nodes that the rule is asked about.  The first has four kinds, the second only three
of them.  So with the default settings and outside test code, every call that sends a suspect query
is reported at its place, unless it is a nullsafe call of a method; about those the rule is never
asked, and the strings below them are passed over all the same.

Main definitions:

* `Security.Sql.script` — a file with one call that sends a query.

Main results:

* `Security.Sql.check_queryCall` — the rule reports a call that sends a suspect query;
* `Security.Sql.findingsOf_below_queryCall` — strings below query calls are passed over;
* `Security.Sql.query_calls_are_reported` — **suspect query calls are reported, but for nullsafe
  ones**;
* `Security.Sql.nullsafe_query_is_missed` — a nullsafe call that is not.
-/

import PhpAudit.Proofs.Security.TestCode

set_option autoImplicit false

namespace PhpAudit.Security

open Walk (Place Trail Way)
open Rule (Site)

namespace Sql

theorem inTestCode_eq_false {file : SourceFile} {p : Place} {trail : Trail}
    (hshown : trail.Shows p) (h : OutsideTests file.path p.above) :
    Rule.inTestCode rule.settings ⟨file, trail⟩ = .ok false := by
  rw [inTestCode_eq List.mem_cons_self hshown, outsideTests_iff.1 h]

/-! ### Calls -/

/-- A call that sends a query is suspected on the evidence that the query gives. -/
theorem inspectCall_of_query {c q : Node} (hquery : queryArgument? c = some q) :
    ∃ x, inspectCall c = some (x, assess q) ∧ x.severity = none := by
  unfold inspectCall
  simp only [hquery]
  exact ⟨_, rfl, rfl⟩

theorem check_eq : ∃ s, rule.check = Rule.guardedCheck rule.profile s inspect :=
  ⟨_, rfl⟩

/-- Outside test code the rule reports what it suspects. -/
theorem check_eq_elim {n : Node} {site : Site}
    (houtside : Rule.inTestCode rule.settings site = .ok false) :
    ∃ s, rule.check rule.settings n site =
      (if Php.isCall n then inspectCall n else inspectString n site.trail).elim (.ok [])
        fun xe => Rule.report rule.profile s rule.settings n site xe.1 xe.2 := by
  obtain ⟨s, hcheck⟩ := check_eq
  refine ⟨s, ?_⟩
  rw [hcheck, Rule.guardedCheck_eq houtside rfl]

/-- What the rule suspects with enough confidence is reported as one finding. -/
theorem report_rule (s : Rule.Security) (n : Node) (site : Site) {x : Rule.Suspicion} {e : Evidence}
    (hseverity : x.severity = none) (hconfident : Rule.meetsConfidence rule.settings e = true) :
    ∃ f, Rule.report rule.profile s rule.settings n site x e = .ok [f] := by
  have hword : Finding.readSeverity (.str (Rule.severityWord x.severity rule.profile.severity)) =
      .ok .high := by
    rw [hseverity]
    rfl
  have hcategory : Finding.readCategory (.str rule.profile.category) = .ok .security := rfl
  exact Rule.report_ok hconfident hword hcategory

/-- **The rule reports a call that sends a suspect query.** -/
theorem check_queryCall {c q : Node} {site : Site} (hcall : Php.isCall c = true)
    (houtside : Rule.inTestCode rule.settings site = .ok false)
    (hquery : queryArgument? c = some q)
    (hconfident : Rule.meetsConfidence rule.settings (assess q) = true) :
    ∃ f, rule.check rule.settings c site = .ok [f] := by
  obtain ⟨x, hinspect, hseverity⟩ := inspectCall_of_query hquery
  obtain ⟨s, hcheck⟩ := check_eq_elim houtside
  rw [hcheck, if_pos hcall, hinspect]
  exact report_rule s c site hseverity hconfident

/-! ### Strings -/

/-- Below a query call no string is suspected. -/
theorem inspectString_below_queryCall {n : Node} {trail : Trail}
    (h : (trail.findAncestor? isQueryCall).isSome = true) : inspectString n trail = none := by
  unfold inspectString
  split
  · rfl
  · dsimp only
    split
    · rfl
    · split
      · rfl
      · split
        · rfl
        · rfl

/-- Strings below query calls are passed over. -/
theorem findingsOf_below_queryCall {n : Node} {site : Site} (hstring : Php.isCall n = false)
    (h : (site.trail.findAncestor? isQueryCall).isSome = true) :
    RuleBook.findingsOf n site rule = [] := by
  have hsilent : inspect rule.settings n site = .ok none := by
    rw [inspect, hstring, if_neg Bool.false_ne_true, inspectString_below_queryCall h]
  obtain ⟨s, hcheck⟩ := check_eq
  unfold RuleBook.findingsOf
  split
  · rename_i found hfound
    rw [hcheck] at hfound
    exact Rule.eq_nil_of_guardedCheck hsilent hfound
  · rfl

/-! ### Files -/

/-- The rule is asked about calls, but for nullsafe ones. -/
theorem appliesTo_call {c : Node} (hcall : Php.isCall c = true)
    (hkind : c.kind ≠ "nullsafe_member_call_expression") :
    rule.profile.appliesTo c.kind = true := by
  have hmem : c.kind ∈ Php.callKinds := List.contains_iff_mem.1 hcall
  simp only [Php.callKinds, List.mem_cons, List.not_mem_nil, or_false] at hmem
  rcases hmem with h | h | h | h
  · rw [h]
    decide
  · rw [h]
    decide
  · exact absurd h hkind
  · rw [h]
    decide

theorem mem_nodeKinds_of_appliesTo {kind : String} (h : rule.profile.appliesTo kind = true) :
    kind ∈ rule.profile.nodeKinds := by
  have hall : rule.profile.nodeKinds.contains "*" = false := by decide
  rw [Rule.Profile.appliesTo, hall, Bool.false_or] at h
  exact List.contains_iff_mem.1 h

theorem eq_rule_of_id {r : Rule} (hr : r ∈ rules) (hid : r.profile.id = "sql_injection") :
    r = rule := by
  simp only [rules, List.mem_cons, List.not_mem_nil, or_false] at hr
  rcases hr with rfl | rfl | rfl | rfl | rfl | rfl | rfl | rfl | rfl
  · rfl
  all_goals exact absurd hid (by decide)

/-- What the rule finds at a node is among the findings of all rules. -/
theorem mem_foundAt {file : SourceFile} {c : Node} {trail : Trail} {f : Finding}
    (happlies : rule.profile.appliesTo c.kind = true)
    (hcheck : rule.check rule.settings c ⟨file, trail⟩ = .ok [f]) :
    f ∈ Lineup.foundAt rules file c trail := by
  refine List.mem_flatMap.2 ⟨rule, List.mem_filter.2 ⟨?_, rfl⟩, ?_⟩
  · exact Lineup.mem_dispatch.2 ⟨List.mem_cons_self, happlies⟩
  · unfold RuleBook.findingsOf
    rw [hcheck]
    exact List.mem_singleton.2 rfl

/-- A finding with the identifier of the rule is one of the rule, at a node that it is asked
about. -/
theorem of_mem_foundAt {file : SourceFile} {n : Node} {trail : Trail} {f : Finding}
    (h : f ∈ Lineup.foundAt rules file n trail) (hid : f.ruleId = .str "sql_injection") :
    rule.profile.appliesTo n.kind = true ∧ f ∈ RuleBook.findingsOf n ⟨file, trail⟩ rule ∧
      f.At n file := by
  obtain ⟨r, hr, happlies, hf, hsigned, hat, _⟩ := RuledAnalyzer.signed_of_mem_foundAt h
  have hrule : r = rule := by
    rw [hsigned] at hid
    exact eq_rule_of_id hr (Value.str.inj hid)
  rw [hrule] at happlies hf
  exact ⟨happlies, hf, hat⟩

/-- **Suspect query calls are reported, but for nullsafe ones.**  With the default settings the
security analyzer comes to an outcome for every file.  If a call within the depth limit and outside
test code sends a query whose evidence meets the confidence, and is no nullsafe call of a method,
there is a finding of the rule at its place; and no finding of the rule comes from a nullsafe
call. -/
theorem query_calls_are_reported (file : SourceFile) {c q : Node} {above : List Node}
    (hway : Way [file.tree.root] c above) (hdepth : above.length ≤ 500)
    (hcall : Php.isCall c = true) (hkind : c.kind ≠ "nullsafe_member_call_expression")
    (houtside : OutsideTests file.path above) (hquery : queryArgument? c = some q)
    (hconfident : Rule.meetsConfidence rule.settings (assess q) = true) :
    ∃ a outcome, RuledAnalyzer.make .security Settings.defaults = .ok a ∧
      a.analyze file = .ok outcome ∧
      (∃ f ∈ outcome.findings, f.ruleId = .str "sql_injection" ∧ f.At c file) ∧
      ∀ f ∈ outcome.findings, f.ruleId = .str "sql_injection" →
        ∃ m above', Way [file.tree.root] m above' ∧ f.At m file ∧
          m.kind ∈ rule.profile.nodeKinds ∧ m.kind ≠ "nullsafe_member_call_expression" := by
  obtain ⟨outcome, houtcome, hforth, hback⟩ := RuledAnalyzer.standardSecurity_analyze file
  refine ⟨_, outcome, RuledAnalyzer.make_security, houtcome, ?_, ?_⟩
  · have hplace : (⟨c, above⟩ : Place) ∈ Walk.placesIn [] [file.tree.root] :=
      Walk.mem_placesIn_iff.2 hway
    have hreached : ({} : Walk.Options).reaches ⟨c, above⟩ = true := by
      simp only [Walk.Options.reaches, decide_eq_true_eq]
      omega
    obtain ⟨trail, hshown, hfound⟩ := hforth ⟨c, above⟩ hplace hreached
    obtain ⟨f, hcheck⟩ :=
      check_queryCall hcall (inTestCode_eq_false hshown houtside) hquery hconfident
    have hmem := mem_foundAt (appliesTo_call hcall hkind) hcheck
    obtain ⟨g, hg, hannotated⟩ := hfound f hmem
    obtain ⟨hid, hat, _⟩ := Security.signs_of_mem_rules List.mem_cons_self _ _ _ _ hcheck f
      (List.mem_singleton.2 rfl)
    exact ⟨g, hg, hannotated.ruleId.trans hid, hannotated.at hat⟩
  · intro g hg hid
    obtain ⟨p, hp, trail, _, f, hf, hannotated⟩ := hback g hg
    obtain ⟨happlies, _, hat⟩ := of_mem_foundAt hf (hannotated.ruleId.symm.trans hid)
    have hnode := mem_nodeKinds_of_appliesTo happlies
    refine ⟨p.node, p.above, Walk.mem_placesIn_iff.1 hp, hannotated.at hat, hnode, ?_⟩
    intro hnullsafe
    rw [hnullsafe] at hnode
    exact absurd hnode (by decide)

/-! ### A call that is reported and one that is not -/

/-- The first part of a query. -/
def literal : Node :=
  { kind := "encapsed_string"
    span := { startLine := 2, startColumn := 12, endColumn := 46 }
    field := some "left"
    text := "\"SELECT name FROM users WHERE id=\"" }

/-- A query that is put together from a string and a variable. -/
def lookup : Node :=
  { kind := "binary_expression"
    span := { startLine := 2, startColumn := 12, endColumn := 52 }
    marks := [("operator", ".")]
    children :=
      [literal,
       { kind := "variable_name"
         span := { startLine := 2, startColumn := 49, endColumn := 52 }
         field := some "right"
         text := "$id" }] }

/-- The arguments of a call that sends the query. -/
def lookupArguments : Node :=
  { kind := "arguments"
    span := { startLine := 2, startColumn := 11, endColumn := 53 }
    field := some "arguments"
    children := [{ kind := "argument", span := lookup.span, children := [lookup] }] }

/-- A call of a method that sends the query. -/
def lookupCall (kind : String) : Node :=
  { kind
    span := { startLine := 2, endColumn := 53 }
    children :=
      [{ kind := "variable_name"
         span := { startLine := 2, endColumn := 3 }
         field := some "object"
         text := "$db" },
       { kind := "name"
         span := { startLine := 2, startColumn := 6, endColumn := 11 }
         field := some "name"
         text := "query" },
       lookupArguments] }

/-- The statement with the call. -/
def lookupStatement (kind : String) : Node :=
  { kind := "expression_statement"
    span := { startLine := 2, endColumn := 54 }
    children := [lookupCall kind] }

/-- The tree of a file with the statement. -/
def lookupRoot (kind : String) : Node :=
  { kind := "program"
    span := { startLine := 1, endLine := 3 }
    children := [lookupStatement kind] }

/-- A file with one call that sends a query. -/
def script (kind : String) : SourceFile :=
  { path := "src/app.php"
    content := "<?php\n$db?->query(\"SELECT name FROM users WHERE id=\" . $id);\n"
    digest := ""
    tree := { root := lookupRoot kind, nodeCount := 10 } }

/-- The call stands below the statement and the root. -/
theorem way_lookupCall (kind : String) :
    Way [(script kind).tree.root] (lookupCall kind) [lookupStatement kind, lookupRoot kind] :=
  .child (.child (.root List.mem_cons_self) List.mem_cons_self) List.mem_cons_self

theorem outsideTests_script (kind : String) :
    OutsideTests (script kind).path [lookupStatement kind, lookupRoot kind] where
  path := show ∀ pattern ∈ testPatterns,
    Glob.accepts pattern (Text.replace "src/app.php" "\\" "/") = false by decide +kernel
  classes n hn hclass := by
    simp only [List.mem_cons, List.not_mem_nil, or_false] at hn
    rcases hn with rfl | rfl
    · exact absurd hclass (by simp [lookupStatement])
    · exact absurd hclass (by simp [lookupRoot])

theorem meetsConfidence_lookup :
    Rule.meetsConfidence rule.settings (assess lookup) = true := by
  decide +kernel

/-- The query is reported if it is sent by a plain call of a method. -/
theorem member_query_is_reported :
    ∃ a outcome, RuledAnalyzer.make .security Settings.defaults = .ok a ∧
      a.analyze (script "member_call_expression") = .ok outcome ∧
      (∃ f ∈ outcome.findings, f.ruleId = .str "sql_injection" ∧
        f.At (lookupCall "member_call_expression") (script "member_call_expression")) ∧
      ∀ f ∈ outcome.findings, f.ruleId = .str "sql_injection" →
        ∃ m above', Way [(script "member_call_expression").tree.root] m above' ∧
          f.At m (script "member_call_expression") ∧
          m.kind ∈ rule.profile.nodeKinds ∧ m.kind ≠ "nullsafe_member_call_expression" :=
  query_calls_are_reported (script "member_call_expression") (way_lookupCall _) (by decide) rfl
    (by decide) (outsideTests_script _) rfl meetsConfidence_lookup

/-- **The same query is missed if it is sent by a nullsafe call**: the rule is not asked about the
call, and the string below it is passed over. -/
theorem nullsafe_query_is_missed :
    let c := lookupCall "nullsafe_member_call_expression"
    let file := script "nullsafe_member_call_expression"
    (∃ above, Way [file.tree.root] c above ∧ above.length ≤ 500 ∧
      OutsideTests file.path above) ∧
    Php.isCall c = true ∧ queryArgument? c = some lookup ∧
    Rule.meetsConfidence rule.settings (assess lookup) = true ∧
    ∃ a outcome, RuledAnalyzer.make .security Settings.defaults = .ok a ∧
      a.analyze file = .ok outcome ∧ ∀ f ∈ outcome.findings, f.ruleId ≠ .str "sql_injection" := by
  intro c file
  refine ⟨⟨_, way_lookupCall _, by decide, outsideTests_script _⟩, rfl, rfl,
    meetsConfidence_lookup, ?_⟩
  obtain ⟨outcome, houtcome, _, hback⟩ := RuledAnalyzer.standardSecurity_analyze file
  refine ⟨_, outcome, RuledAnalyzer.make_security, houtcome, ?_⟩
  intro g hg hid
  obtain ⟨p, hp, trail, hshown, f, hf, hannotated⟩ := hback g hg
  obtain ⟨happlies, hfound, _⟩ := of_mem_foundAt hf (hannotated.ruleId.symm.trans hid)
  -- of all nodes the rule is asked about the string only, which stands below the call
  have hbelow : ∀ p ∈ Walk.placesIn [] [file.tree.root],
      rule.profile.appliesTo p.node.kind = true →
        Php.isCall p.node = false ∧ (p.above.find? isQueryCall).isSome = true := by
    decide +kernel
  obtain ⟨hstring, hcall⟩ := hbelow p hp happlies
  rw [← hshown.found isQueryCall] at hcall
  rw [findingsOf_below_queryCall hstring hcall] at hfound
  cases hfound

end Sql

end PhpAudit.Security
