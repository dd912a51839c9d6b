/-
**Constant arguments of calls that send queries or run commands.**

An expression that is made of literals by concatenation and parentheses has nothing in it that is
known only at run time.  None of its operands is computed; but the rules about SQL and about
commands let a concatenation pass only if it has computed operands and all of them are sanitized.
So a literal is never reported, with or without parentheses, while a concatenation of literals
always is, as if it were built from values known only at run time.

Main definitions:

* `Php.Constant` — expressions made of literals by concatenation and parentheses;
* `Security.Handed` — a call that is given an expression as a query, a statement or a command.

Main results:

* `Php.Constant.isLiteral_iff` — a constant is a literal or a concatenation;
* `Php.Constant.isLiteral_of_mem` — all operands of a constant are literals;
* `Security.Sql.meetsConfidence_assess`, `Security.Command.meetsConfidence_describeInput` — how sure
  the rules are of a concatenation;
* `Security.constant_argument_reports` — **which constant arguments are reported**;
* `Security.joined_literals_are_reported` — a query of two literals that is.
-/

import PhpAudit.Proofs.Security.Chains

set_option autoImplicit false

namespace PhpAudit

/-! ### Constants -/

namespace Php

/-- An expression that is made of literals by concatenation and parentheses. -/
inductive Constant : Node → Prop
  | literal {n : Node} (h : isLiteral n = true) : Constant n
  | bracket {n inner : Node} {rest : List Node} (h : isBracket n = true)
      (hchildren : n.children = inner :: rest) (hinner : Constant inner) : Constant n
  | join {n : Node} (h : isJoin n = true)
      (hoperands : ∀ m ∈ n.children, m.kind ≠ "comment" → Constant m) : Constant n

namespace Constant

variable {e : Node}

/-- A constant is a literal or a concatenation, in parentheses or not. -/
theorem isLiteral_iff (h : Constant e) : isLiteral e = true ↔ isConcatenation e = false := by
  induction h with
  | @literal n hliteral =>
      refine iff_of_true hliteral (Bool.eq_false_iff.2 fun hjoined => ?_)
      rw [not_isLiteral_of_isConcatenation hjoined] at hliteral
      cases hliteral
  | @bracket n inner rest hbracket hchildren _ ih =>
      have hself := unwrap_of_isBracket hbracket hchildren
      rwa [← isLiteral_unwrap, ← isConcatenation_unwrap, hself, isLiteral_unwrap,
        isConcatenation_unwrap]
  | join hjoin _ =>
      have hjoined := isConcatenation_of_isJoin hjoin
      rw [not_isLiteral_of_isConcatenation hjoined, hjoined]
      simp

/-- All operands of a constant are literals. -/
theorem isLiteral_of_mem (h : Constant e) : ∀ p ∈ concatenationParts e, isLiteral p = true := by
  induction h with
  | @literal n hliteral =>
      have hsingle : isConcatenation n = false :=
        (Constant.literal hliteral).isLiteral_iff.1 hliteral
      intro p hp
      rw [concatenationParts_of_not_isConcatenation hsingle, List.mem_singleton] at hp
      rw [hp, isLiteral_unwrap, hliteral]
  | @bracket n inner rest hbracket hchildren _ ih =>
      rwa [← concatenationParts_unwrap, unwrap_of_isBracket hbracket hchildren,
        concatenationParts_unwrap]
  | join hjoin _ ih =>
      intro p hp
      obtain ⟨m, hm, hcomment, hp⟩ := (mem_concatenationParts_of_isJoin hjoin).1 hp
      exact ih m hm hcomment p hp

end Constant

end Php

namespace Security

open Php (Constant isConcatenation)

theorem dynamicParts_eq_nil {e : Node} (h : Constant e) : dynamicParts e = [] :=
  List.filter_eq_nil_iff.2 fun p hp => by simp [h.isLiteral_of_mem p hp]

/-! ### How sure the rules are -/

theorem Sql.assess_of_isLiteral {e : Node} (h : Php.isLiteral e = true) : assess e = {} := by
  have hshape : shape (Php.unwrap e) = {} := by rw [shape, Php.isLiteral_unwrap, h, if_pos rfl]
  rw [assess, hshape]
  rfl

/-- A concatenation that is not sanitized is suspect enough to be reported. -/
theorem Sql.meetsConfidence_assess {e : Node} (hjoined : isConcatenation e = true)
    (h : allSanitized escapeFunctions e = false) :
    Rule.meetsConfidence rule.settings (assess e) = true := by
  have hliteral : Php.isLiteral (Php.unwrap e) = false := by
    rw [Php.isLiteral_unwrap, Php.not_isLiteral_of_isConcatenation hjoined]
  have hsanitized : allSanitized escapeFunctions (Php.unwrap e) = false := by
    rwa [allSanitized, dynamicParts, Php.concatenationParts_unwrap]
  have hself : isConcatenation (Php.unwrap e) = true := by rwa [Php.isConcatenation_unwrap]
  simp only [assess, shape, hliteral, hself, hsanitized, Bool.false_eq_true, if_false, if_true]
  -- with or without keywords, with or without request data
  generalize (Php.concatenationParts (Php.unwrap e)).any _ = hasKeywords
  generalize Php.readsRequest (Php.unwrap e) = reads
  revert hasKeywords reads
  decide +kernel

/-- A concatenation is suspect enough as a command. -/
theorem Command.meetsConfidence_describeInput {e : Node} (hjoined : isConcatenation e = true) :
    Rule.meetsConfidence rule.settings (describeInput e) = true := by
  have hself : isConcatenation (Php.unwrap e) = true := by rwa [Php.isConcatenation_unwrap]
  simp only [describeInput, hself, if_true]
  cases Php.readsRequest (Php.unwrap e) <;> decide +kernel

/-! ### Calls -/

/-- A call is given an expression as the query that it sends, the statement that it prepares or the
command that it runs; with the rule that looks at it and the title of what the rule reports. -/
inductive Handed (e : Node) : Node → Rule → String → Prop
  | query {c : Node} (hcall : Php.isCall c = true) (h : Sql.queryArgument? c = some e) :
      Handed e c Sql.rule "SQL Injection"
  | statement {c : Node} (hcall : Php.isCall c = true) (hquery : Sql.queryArgument? c = none)
      (h : Sql.prepareArgument? c = some e) :
      Handed e c Sql.rule "Incorrect usage of safe function"
  | command {c : Node} (hcall : Php.isFunctionCall c = true)
      (hname : Php.callName c ∈ Command.shellFunctions) (h : Php.argument? c 0 = some e) :
      Handed e c Command.rule "Command Injection"

/-- A suspicion without a risk is not reported, whatever the settings are. -/
theorem report_of_no_risk {p : Rule.Profile} {s : Rule.Security} {settings : Dict} {n : Node}
    {site : Rule.Site} {x : Rule.Suspicion} : Rule.report p s settings n site x {} = .ok [] := by
  have hgate : Rule.meetsConfidence settings {} = false := by
    unfold Rule.meetsConfidence
    split <;> rfl
  rw [Rule.report, hgate, if_neg Bool.false_ne_true]

/-- A call that is given a literal is not reported. -/
theorem check_of_isLiteral {e c : Node} {r : Rule} {title : String} (hhanded : Handed e c r title)
    (hliteral : Php.isLiteral e = true) (hplain : isConcatenation e = false) {settings : Dict}
    {site : Rule.Site} (houtside : Rule.inTestCode settings site = .ok false) :
    r.check settings c site = .ok [] := by
  cases hhanded with
  | query hcall h =>
      obtain ⟨x, hinspect, _⟩ := Sql.inspectCall_of_query h
      obtain ⟨s, hcheck⟩ := Sql.check_eq
      rw [hcheck, Rule.guardedCheck_eq houtside rfl, if_pos hcall, hinspect,
        Sql.assess_of_isLiteral hliteral]
      exact report_of_no_risk
  | statement hcall hquery h =>
      have hself : Php.isLiteral (Php.unwrap e) = true := by rwa [Php.isLiteral_unwrap]
      have hinspect : Sql.inspectCall c = none := by
        unfold Sql.inspectCall
        simp only [hquery, h, Php.isConcatenation_unwrap, hplain,
          Php.not_hasInterpolation_of_isLiteral hself]
        rfl
      obtain ⟨s, hcheck⟩ := Sql.check_eq
      rw [hcheck, Rule.guardedCheck_eq houtside rfl, if_pos hcall, hinspect]
      rfl
  | command hcall hname h =>
      have hinspect : Command.inspectCall c = none := by
        unfold Command.inspectCall
        simp only [List.contains_iff_mem.2 hname, h, Command.isSafe, hliteral, Bool.true_or]
        rfl
      have hcheck : Command.rule.check =
          Rule.guardedCheck Command.rule.profile _ Command.inspect := rfl
      rw [hcheck, Rule.guardedCheck_eq houtside rfl, if_neg ?_, hinspect]
      · rfl
      · rw [Php.isFunctionCall] at hcall
        rw [eq_of_beq hcall]
        decide

/-- What is suspected of a call that is given a concatenation without computed operands. -/
theorem suspected_of_isConcatenation {e c : Node} {r : Rule} {title : String}
    (hhanded : Handed e c r title) (hdynamic : dynamicParts e = [])
    (hjoined : isConcatenation e = true) (site : Rule.Site) :
    ∃ s inspect x evidence severity, r.check = Rule.guardedCheck r.profile s inspect ∧
      inspect r.settings c site = .ok (some (x, evidence)) ∧ x.title = .str title ∧
      Rule.meetsConfidence r.settings evidence = true ∧
      Finding.readSeverity (.str (Rule.severityWord x.severity r.profile.severity)) =
        .ok severity := by
  have hsanitized : ∀ sanitizers, allSanitized sanitizers e = false := by
    intro sanitizers
    rw [allSanitized, hdynamic]
    rfl
  cases hhanded with
  | query hcall h =>
      obtain ⟨x, hsuspected, htitle, hseverity⟩ : ∃ x, Sql.inspectCall c = some (x, Sql.assess e) ∧
          x.title = .str "SQL Injection" ∧ x.severity = none := by
        unfold Sql.inspectCall
        simp only [h]
        exact ⟨_, rfl, rfl, rfl⟩
      refine ⟨_, Sql.inspect, x, Sql.assess e, .high, rfl, ?_, htitle,
        Sql.meetsConfidence_assess hjoined (hsanitized _), ?_⟩
      · rw [Sql.inspect, if_pos hcall, hsuspected]
      · rw [hseverity]
        rfl
  | statement hcall hquery h =>
      obtain ⟨x, hsuspected, htitle, hseverity⟩ : ∃ x,
          Sql.inspectCall c = some (x, Sql.assess (Php.unwrap e)) ∧
          x.title = .str "Incorrect usage of safe function" ∧ x.severity = some "medium" := by
        unfold Sql.inspectCall
        simp only [hquery, h, Php.isConcatenation_unwrap, hjoined, Bool.true_or, if_true]
        exact ⟨_, rfl, rfl, rfl⟩
      refine ⟨_, Sql.inspect, x, Sql.assess (Php.unwrap e), .medium, rfl, ?_, htitle, ?_, ?_⟩
      · rw [Sql.inspect, if_pos hcall, hsuspected]
      · refine Sql.meetsConfidence_assess (by rwa [Php.isConcatenation_unwrap]) ?_
        rw [allSanitized, dynamicParts, Php.concatenationParts_unwrap]
        exact hsanitized _
      · rw [hseverity]
        rfl
  | command hcall hname h =>
      have hunsafe : Command.isSafe e = false := by
        rw [Command.isSafe, Php.not_isLiteral_of_isConcatenation hjoined,
          Php.not_isCallOf_of_isConcatenation _ hjoined, hsanitized, Bool.and_false]
        rfl
      obtain ⟨x, hsuspected, htitle, hseverity⟩ : ∃ x,
          Command.inspectCall c = some (x, describeInput e) ∧
          x.title = .str "Command Injection" ∧ x.severity = none := by
        unfold Command.inspectCall
        simp only [List.contains_iff_mem.2 hname, h, hunsafe]
        exact ⟨_, rfl, rfl, rfl⟩
      refine ⟨_, Command.inspect, x, describeInput e, .critical, rfl, ?_, htitle,
        Command.meetsConfidence_describeInput hjoined, ?_⟩
      · rw [Command.inspect, if_neg (by rw [eq_of_beq hcall]; decide), hsuspected]
      · rw [hseverity]
        rfl

/-- A call that is given a concatenation without computed operands is reported. -/
theorem check_of_isConcatenation {e c : Node} {r : Rule} {title : String}
    (hhanded : Handed e c r title) (hdynamic : dynamicParts e = [])
    (hjoined : isConcatenation e = true) {site : Rule.Site}
    (houtside : Rule.inTestCode r.settings site = .ok false) :
    ∃ f, r.check r.settings c site = .ok [f] ∧ f.title = .str title := by
  obtain ⟨s, inspect, x, evidence, severity, hcheck, hinspect, htitle, hconfident, hseverity⟩ :=
    suspected_of_isConcatenation hhanded hdynamic hjoined site
  have hcategory : Finding.readCategory (.str r.profile.category) = .ok .security := by
    cases hhanded <;> rfl
  obtain ⟨f, hreport⟩ : ∃ f, Rule.report r.profile s r.settings c site x evidence = .ok [f] :=
    Rule.report_ok hconfident hseverity hcategory
  refine ⟨f, ?_, (Rule.title_of_report hreport List.mem_cons_self).trans htitle⟩
  rw [hcheck, Rule.guardedCheck_eq houtside hinspect]
  exact hreport

/-- **Which constant arguments are reported.**  Let a call outside test code be given a constant as
the query that it sends, the statement that it prepares or the command that it runs.  The constant
has no computed operand.  If it is no concatenation, the call is not reported, whatever the settings
are; if it is one, the call is reported with the default settings all the same. -/
theorem constant_argument_reports {e c : Node} {r : Rule} {title : String} (hconstant : Constant e)
    (hhanded : Handed e c r title) :
    dynamicParts e = [] ∧
    (isConcatenation e = false → ∀ (settings : Dict) (site : Rule.Site),
      Rule.inTestCode settings site = .ok false → r.check settings c site = .ok []) ∧
    (isConcatenation e = true → ∀ site : Rule.Site, Rule.inTestCode r.settings site = .ok false →
      ∃ f, r.check r.settings c site = .ok [f] ∧ f.title = .str title) := by
  refine ⟨dynamicParts_eq_nil hconstant, ?_, ?_⟩
  · intro hplain settings site houtside
    exact check_of_isLiteral hhanded (hconstant.isLiteral_iff.2 hplain) hplain houtside
  · intro hjoined site houtside
    exact check_of_isConcatenation hhanded (dynamicParts_eq_nil hconstant) hjoined houtside

/-! ### A command and a query in two literals -/

/-- Two literals that are joined, the second one behind the given column. -/
def joinedTexts (startColumn middle endColumn : Int) (left right : String) : Node :=
  { kind := "binary_expression"
    span := { startLine := 2, startColumn, endColumn }
    marks := [("operator", ".")]
    children :=
      [Sql.leafAt "encapsed_string" startColumn middle "left" left,
       Sql.leafAt "encapsed_string" (middle + 3) endColumn "right" right] }

/-- A call with one argument, behind the nodes that name what is called. -/
def callOf (kind : String) (callee : List Node) (argument : Node) : Node :=
  { kind
    span := { startLine := 2, endColumn := argument.span.endColumn + 1 }
    children :=
      callee ++
        [{ kind := "arguments"
           span := { argument.span with endColumn := argument.span.endColumn + 1 }
           field := some "arguments"
           children := [{ kind := "argument", span := argument.span, children := [argument] }] }] }

/-- A command in two literals. -/
def splitCommand : Node :=
  joinedTexts 8 13 20 "\"ls \"" "\"-l\""

/-- The same in parentheses. -/
def bracketedCommand : Node :=
  { kind := "parenthesized_expression"
    span := { startLine := 2, startColumn := 7, endColumn := 21 }
    children := [splitCommand] }

/-- The call `system(("ls " . "-l"))`. -/
def commandCall : Node :=
  callOf "function_call_expression" [Sql.leafAt "name" 0 6 "function" "system"] bracketedCommand

/-- A query in two literals. -/
def splitQuery : Node :=
  joinedTexts 11 25 40 "\"SELECT name \"" "\"FROM users\""

/-- The call `$db->query("SELECT name " . "FROM users")`. -/
def queryCall : Node :=
  callOf "member_call_expression"
    [Sql.leafAt "variable_name" 0 3 "object" "$db", Sql.leafAt "name" 5 10 "name" "query"]
    splitQuery

/-- A place at the top of a file outside test code. -/
def topSite (n : Node) : Rule.Site where
  file :=
    { path := "src/app.php", content := "", digest := ""
      tree := { root := n, nodeCount := n.size } }
  trail := { frames := Walk.framesOf [n] }

theorem inTestCode_topSite (n : Node) : Rule.inTestCode Sql.rule.settings (topSite n) = .ok false :=
  have hshown : (topSite n).trail.Shows ⟨n, []⟩ := Walk.Trail.shows_of_frames rfl
  Sql.inTestCode_eq_false hshown
    { path := show ∀ pattern ∈ testPatterns,
        Glob.accepts pattern (Text.replace "src/app.php" "\\" "/") = false by decide +kernel
      classes := nofun }

theorem constant_joinedTexts (startColumn middle endColumn : Int) {left right : String}
    (hleft : Php.isLiteral (Sql.leafAt "encapsed_string" startColumn middle "left" left) = true)
    (hright :
      Php.isLiteral (Sql.leafAt "encapsed_string" (middle + 3) endColumn "right" right) = true) :
    Constant (joinedTexts startColumn middle endColumn left right) := by
  refine .join rfl fun m hm _ => ?_
  simp only [joinedTexts, List.mem_cons, List.not_mem_nil, or_false] at hm
  rcases hm with rfl | rfl
  · exact .literal hleft
  · exact .literal hright

theorem constant_bracketedCommand : Constant bracketedCommand :=
  .bracket rfl rfl (constant_joinedTexts _ _ _ (by decide +kernel) (by decide +kernel))

theorem constant_splitQuery : Constant splitQuery :=
  constant_joinedTexts _ _ _ (by decide +kernel) (by decide +kernel)

/-- The command in two literals has no computed operand and is reported. -/
theorem split_command_is_reported :
    Constant bracketedCommand ∧
    Handed bracketedCommand commandCall Command.rule "Command Injection" ∧
    dynamicParts bracketedCommand = [] ∧
    ∃ f, Command.rule.check Command.rule.settings commandCall (topSite commandCall) = .ok [f] ∧
      f.title = .str "Command Injection" := by
  have hhanded : Handed bracketedCommand commandCall Command.rule "Command Injection" :=
    .command rfl (by decide +kernel) rfl
  obtain ⟨hdynamic, _, hreported⟩ := constant_argument_reports constant_bracketedCommand hhanded
  exact ⟨constant_bracketedCommand, hhanded, hdynamic,
    hreported rfl (topSite commandCall) (inTestCode_topSite commandCall)⟩

/-- **The query in two literals is reported**, though nothing in it is computed. -/
theorem joined_literals_are_reported :
    Constant splitQuery ∧ Php.isCall queryCall = true ∧
    Sql.queryArgument? queryCall = some splitQuery ∧
    Rule.inTestCode Sql.rule.settings (topSite queryCall) = .ok false ∧
    ∃ f, Sql.rule.check Sql.rule.settings queryCall (topSite queryCall) = .ok [f] := by
  have hhanded : Handed splitQuery queryCall Sql.rule "SQL Injection" := .query rfl rfl
  obtain ⟨f, hfound, _⟩ := check_of_isConcatenation hhanded
    (dynamicParts_eq_nil constant_splitQuery) rfl (inTestCode_topSite queryCall)
  exact ⟨constant_splitQuery, rfl, rfl, inTestCode_topSite queryCall, f, hfound⟩

end Security

end PhpAudit
