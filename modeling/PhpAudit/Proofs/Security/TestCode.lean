/-
**Security rules are silent in test code, and nowhere else.**

Every security rule asks the same question before it inspects a node: does the node belong to a
test?  With the default settings it does if the path of the file fits one of six patterns, or if a
class stands above the node whose name ends in one of two words.  The rule reads the classes from
the trail of the walk, and the trail shows all nodes above the node in question, so the answer is
right at every node of every walk that keeps a trail.  Where the answer is no, the rule comes to
what its inspection alone comes to.

Main definitions:

* `Security.inTests` — whether a place belongs to a test, by default;
* `Security.OutsideTests` — a place that the default settings do not take for test code;
* `Rule.openCheck` — what a rule comes to with its inspection alone.

Main results:

* `Security.inTestCode_eq` — what a security rule takes for test code;
* `Security.check_eq` — a rule is silent in test code, and open anywhere else;
* `Security.test_code_is_silent` — **so it is at every call of every walk, and in every analysis**.
-/

import PhpAudit.Proofs.Security.Standard

set_option autoImplicit false

namespace PhpAudit

open Walk (Place Trail Way)
open Rule (Site)

/-- A trail that stands at a place. -/
def Walk.Place.trail (p : Place) : Trail :=
  { frames := Walk.framesOf (p.node :: p.above) }

theorem Walk.Place.trail_shows (p : Place) : p.trail.Shows p :=
  Trail.shows_of_frames rfl

/-- What a security rule comes to with an inspection alone, test code or not. -/
def Rule.openCheck (r : Rule) (inspect : Inspection) (n : Node) (site : Site) :
    Except Fault (List Finding) :=
  r.profile.security.elim (.ok []) fun s => do
    let suspected ← (inspect r.settings n site).mapError .misuse
    suspected.elim (.ok []) fun x => report r.profile s r.settings n site x.1 x.2

/-- Of the trail, a rule reads nothing but the nodes above. -/
theorem Rule.Gated.openCheck_congr {r : Rule} {s : Rule.Security} {inspect : Rule.Inspection}
    (hr : r.Gated s inspect) (n : Node) (file : SourceFile) {trail trail' : Trail}
    (hanc : trail.ancestors = trail'.ancestors) :
    r.openCheck inspect n ⟨file, trail⟩ = r.openCheck inspect n ⟨file, trail'⟩ := by
  unfold Rule.openCheck
  rw [hr.blind _ _ n file _ _ (fun _ _ _ => rfl) hanc]
  rfl

namespace Security

/-! ### What counts as test code -/

/-- The paths of test files, by default. -/
def testPatterns : List String :=
  ["*Test.php", "*_test.php", "tests/*", "test/*", "*/tests/*", "*/test/*"]

/-- The endings of the names of test classes, by default. -/
def testSuffixes : List String :=
  ["Test", "TestCase"]

/-- The path is not that of a test file, and no node above is a test class. -/
structure OutsideTests (path : String) (above : List Node) : Prop where
  path : ∀ pattern ∈ testPatterns, Glob.accepts pattern (Text.replace path "\\" "/") = false
  classes : ∀ n ∈ above, n.kind = "class_declaration" →
    ∀ name, n.childByField? "name" = some name →
      ∀ suffix ∈ testSuffixes, Text.endsWith name.text suffix = false

/-- The path with backslashes read as slashes. -/
def slashed (path : String) : String :=
  String.ofList (path.toList.map fun c => if c == '\\' then '/' else c)

/-- Whether a node is a class whose name ends like that of a test class. -/
def isTestCase (n : Node) : Bool :=
  n.kind == "class_declaration" &&
    (n.childByField? "name").any fun name => testSuffixes.any (Text.endsWith name.text)

/-- Whether a place belongs to a test: by the path of its file, or by a class above it. -/
def inTests (path : String) (above : List Node) : Bool :=
  testPatterns.any (Glob.accepts · (slashed path)) || above.any isTestCase

theorem replace_backslash (path : String) : Text.replace path "\\" "/" = slashed path := by
  have hchars := Text.replaceFrom_singleton '\\' ['/'] path.toList
  rw [slashed, List.map_eq_flatMap]
  refine congrArg String.ofList (hchars.trans ?_)
  refine congrArg (path.toList.flatMap ·) (funext fun c => ?_)
  split <;> rfl

theorem outsideTests_iff {path : String} {above : List Node} :
    OutsideTests path above ↔ inTests path above = false := by
  have hclass : ∀ n : Node, isTestCase n = false ↔ n.kind = "class_declaration" →
      ∀ name, n.childByField? "name" = some name →
        ∀ suffix ∈ testSuffixes, Text.endsWith name.text suffix = false := by
    intro n
    rw [isTestCase]
    cases n.childByField? "name" with
    | none => simp
    | some name => simp
  rw [inTests, Bool.or_eq_false_iff, List.any_eq_false, List.any_eq_false, ← replace_backslash]
  simp only [Bool.not_eq_true, hclass]
  exact ⟨fun h => ⟨h.path, h.classes⟩, fun h => ⟨h.1, h.2⟩⟩

/-! ### What a rule takes for test code -/

/-- The settings by which a security rule knows test code are the default ones. -/
structure KnowsTests (d : Dict) : Prop where
  exclude : Rule.setting d "exclude_test_files" (.bool true) = .bool true
  patterns : Rule.setting d "test_file_patterns" (.list []) = .ofTexts testPatterns
  aware : Rule.setting d "context_aware" (.bool true) = .bool true
  suffixes : Rule.setting d "test_class_suffixes" (.list []) = .ofTexts testSuffixes

theorem knowsTests_of_mem {r : Rule} (hr : r ∈ rules) : KnowsTests r.settings := by
  simp only [rules, List.mem_cons, List.not_mem_nil, or_false] at hr
  rcases hr with rfl | rfl | rfl | rfl | rfl | rfl | rfl | rfl | rfl <;> exact ⟨rfl, rfl, rfl, rfl⟩

theorem fitsPattern_eq (path : String) (patterns : List String) :
    Rule.fitsPattern path (patterns.map .str) = .ok (patterns.any (Glob.accepts · path)) := by
  induction patterns with
  | nil => rfl
  | cons pattern patterns ih =>
      rw [List.map_cons, Rule.fitsPattern, ih, List.any_cons]
      cases Glob.accepts pattern path <;> rfl

theorem hasSuffix_eq (name : String) (suffixes : List String) :
    Rule.hasSuffix name (suffixes.map .str) = .ok (suffixes.any (Text.endsWith name)) := by
  induction suffixes with
  | nil => rfl
  | cons suffix suffixes ih =>
      rw [List.map_cons, Rule.hasSuffix, ih, List.any_cons]
      cases Text.endsWith name suffix <;> rfl

theorem isTestClass_eq (n : Node) :
    Rule.isTestClass (testSuffixes.map .str) n = .ok (isTestCase n) := by
  rw [Rule.isTestClass, isTestCase]
  cases n.kind == "class_declaration" with
  | false => rfl
  | true =>
      cases n.childByField? "name" with
      | none => rfl
      | some name => exact hasSuffix_eq name.text testSuffixes

theorem anyTestClass_eq (above : List Node) :
    Rule.anyTestClass (testSuffixes.map .str) above = .ok (above.any isTestCase) := by
  induction above with
  | nil => rfl
  | cons n above ih =>
      rw [Rule.anyTestClass, isTestClass_eq, ih, List.any_cons]
      cases isTestCase n <;> rfl

/-- What a security rule takes for test code. -/
theorem inTestCode_eq {r : Rule} (hr : r ∈ rules) {file : SourceFile} {p : Place} {trail : Trail}
    (hshown : trail.Shows p) :
    Rule.inTestCode r.settings ⟨file, trail⟩ = .ok (inTests file.path p.above) := by
  have h := knowsTests_of_mem hr
  have hitems : ∀ texts : List String, (Value.ofTexts texts).items = .ok (texts.map .str) :=
    fun _ => rfl
  simp only [Rule.inTestCode, h.exclude, h.patterns, h.aware, h.suffixes, hitems,
    bind, Except.bind, replace_backslash, fitsPattern_eq, hshown.ancestors, anyTestClass_eq,
    inTests]
  cases testPatterns.any (Glob.accepts · (slashed file.path)) <;> rfl

/-- A security rule is silent in test code, and anywhere else it comes to what its inspection alone
comes to. -/
theorem check_eq {r : Rule} {inspect : Rule.Inspection} (hr : (r, inspect) ∈ inspections)
    (n : Node) (file : SourceFile) {p : Place} {trail : Trail} (hshown : trail.Shows p) :
    r.check r.settings n ⟨file, trail⟩ =
      if inTests file.path p.above then .ok [] else r.openCheck inspect n ⟨file, trail⟩ := by
  obtain ⟨s, hgated⟩ := gated_of_mem hr
  have hmem : r ∈ rules := map_fst_inspections ▸ List.mem_map_of_mem (f := Prod.fst) hr
  rw [hgated.check, Rule.guardedCheck, inTestCode_eq hmem hshown, Rule.openCheck,
    hgated.security]
  cases inTests file.path p.above with
  | true => rfl
  | false =>
      cases inspect r.settings n ⟨file, trail⟩ with
      | error cause => rfl
      | ok suspected => cases suspected <;> rfl

/-! ### Walks -/

/-- What the default rules find at a place. -/
theorem mem_foundAt_iff {file : SourceFile} {p : Place} {trail : Trail} (hshown : trail.Shows p)
    {f : Finding} :
    f ∈ Lineup.foundAt rules file p.node trail ↔ inTests file.path p.above = false ∧
      ∃ x ∈ inspections, x.1.profile.appliesTo p.node.kind = true ∧
        ∃ found, x.1.openCheck x.2 p.node ⟨file, p.trail⟩ = .ok found ∧ f ∈ found := by
  have henabled : ∀ r ∈ rules, r.enabled = true := by decide
  have hfound : ∀ x ∈ inspections, f ∈ RuleBook.findingsOf p.node ⟨file, trail⟩ x.1 ↔
      inTests file.path p.above = false ∧
        ∃ found, x.1.openCheck x.2 p.node ⟨file, p.trail⟩ = .ok found ∧ f ∈ found := by
    rintro ⟨r, inspect⟩ hx
    obtain ⟨s, hgated⟩ := gated_of_mem hx
    have hsame := hgated.openCheck_congr p.node file
      (hshown.ancestors.trans p.trail_shows.ancestors.symm)
    rw [Rule.findingsOf_eq, check_eq hx p.node file hshown, hsame]
    cases inTests file.path p.above with
    | true => simp [Except.toOption]
    | false =>
        cases r.openCheck inspect p.node ⟨file, p.trail⟩ <;> simp [Except.toOption]
  rw [Lineup.foundAt, List.mem_flatMap]
  constructor
  · rintro ⟨r, hr, hf⟩
    obtain ⟨hmem, happlies⟩ := Lineup.mem_dispatch.1 (List.mem_filter.1 hr).1
    rw [← map_fst_inspections] at hmem
    obtain ⟨x, hx, rfl⟩ := List.mem_map.1 hmem
    obtain ⟨houtside, hopen⟩ := (hfound x hx).1 hf
    exact ⟨houtside, x, hx, happlies, hopen⟩
  · rintro ⟨houtside, x, hx, happlies, hopen⟩
    have hmem : x.1 ∈ rules := map_fst_inspections ▸ List.mem_map_of_mem hx
    refine ⟨x.1, List.mem_filter.2 ⟨Lineup.mem_dispatch.2 ⟨hmem, happlies⟩, henabled _ hmem⟩, ?_⟩
    exact (hfound x hx).2 ⟨houtside, hopen⟩

/-- **Security rules are silent in test code, and nowhere else.**  At every call of every walk that
keeps a trail, whatever its visitor and its other options, each security rule with its default
settings finds nothing if the place is in a test, and otherwise comes to what its inspection alone
comes to.  So what the security analyzer finds in a file is what the inspections of its rules come
to at the places within the depth limit that are in no test. -/
theorem test_code_is_silent {σ : Type} (v : Walk.Visitor σ) (o : Walk.Options) (s : σ)
    (roots : List Node) (file : SourceFile) (htrack : o.trackTrail = true) :
    (∀ call ∈ (Walk.traverse v.logged o ([], s) roots).1.1, ∃ p : Place,
      Way roots p.node p.above ∧ call.node = p.node ∧
      ∀ r ∈ rules, ∃ inspect, (r, inspect) ∈ inspections ∧
        r.check r.settings call.node ⟨file, call.trail⟩ =
          if inTests file.path p.above then .ok []
          else r.openCheck inspect call.node ⟨file, call.trail⟩) ∧
    ∀ f, f ∈ (RuledAnalyzer.standardSecurity.book.sweep file).1.findings ↔
      ∃ p ∈ Walk.placesIn [] [file.tree.root], ({} : Walk.Options).reaches p = true ∧
        inTests file.path p.above = false ∧
        ∃ x ∈ inspections, x.1.profile.appliesTo p.node.kind = true ∧
          ∃ found, x.1.openCheck x.2 p.node ⟨file, p.trail⟩ = .ok found ∧ f ∈ found := by
  constructor
  · intro call hcall
    obtain ⟨p, hway, hnode, hshown⟩ := Walk.shows_of_mem_calls v o s roots htrack hcall
    refine ⟨p, hway, hnode, fun r hr => ?_⟩
    obtain ⟨inspect, _, hmem, _⟩ := exists_gated hr
    exact ⟨inspect, hmem, check_eq hmem call.node file hshown⟩
  · intro f
    obtain ⟨visits, hplaces, hshown, hfindings⟩ :=
      RuledAnalyzer.standardSecurity_keeps.sweep_findings file
    rw [hfindings, List.mem_flatMap]
    constructor
    · rintro ⟨visit, hvisit, hf⟩
      have hplace : visit.1 ∈ visits.map Prod.fst := List.mem_map_of_mem hvisit
      rw [hplaces] at hplace
      obtain ⟨hmem, hreached⟩ := List.mem_filter.1 hplace
      exact ⟨visit.1, hmem, hreached, (mem_foundAt_iff (hshown visit hvisit)).1 hf⟩
    · rintro ⟨p, hmem, hreached, hfound⟩
      have hplace : p ∈ visits.map Prod.fst := by
        rw [hplaces]
        exact List.mem_filter.2 ⟨hmem, hreached⟩
      obtain ⟨visit, hvisit, rfl⟩ := List.mem_map.1 hplace
      exact ⟨visit, hvisit, (mem_foundAt_iff (hshown visit hvisit)).2 hfound⟩

/-! ### A class for tests in an ordinary file -/

/-- A shell command with request data in it. -/
def backticks : Node :=
  { kind := "shell_command_expression"
    span := { startLine := 2 }
    children := [{ kind := "variable_name", span := { startLine := 2 }, text := "$_GET" }] }

/-- A class for tests that runs the command. -/
def loginTest : Node :=
  { kind := "class_declaration"
    span := { startLine := 2 }
    children :=
      [{ kind := "name", span := { startLine := 2 }, field := some "name", text := "LoginTest" },
       backticks] }

/-- A program with the class, which runs the command itself as well. -/
def testProgram : Node :=
  { kind := "program", span := { startLine := 1 }, children := [loginTest, backticks] }

/-- A file with the program. -/
def testsFile : SourceFile :=
  { path := "src\\app.php", content := "", digest := ""
    tree := { root := testProgram, nodeCount := 7 } }

/-- The command is reported where the program runs it, and passed over in the class. -/
theorem testProgram_is_silent_in_class :
    ({} : Walk.Options).trackTrail = true ∧ inTests testsFile.path [loginTest, testProgram] = true ∧
    inTests testsFile.path [testProgram] = false ∧
    (∀ call ∈ (Walk.traverse ({} : Walk.Visitor Unit).logged {} ([], ()) [testProgram]).1.1,
      ∃ p : Place, Way [testProgram] p.node p.above ∧ call.node = p.node ∧
        (inTests testsFile.path p.above = true → ∀ r ∈ rules,
          r.check r.settings call.node ⟨testsFile, call.trail⟩ = .ok [])) ∧
    (RuledAnalyzer.standardSecurity.book.sweep testsFile).1.findings ≠ [] ∧
    ∀ f ∈ (RuledAnalyzer.standardSecurity.book.sweep testsFile).1.findings,
      ∃ p ∈ Walk.placesIn [] [testProgram], inTests testsFile.path p.above = false := by
  obtain ⟨hcalls, hfindings⟩ :=
    test_code_is_silent ({} : Walk.Visitor Unit) {} () [testProgram] testsFile rfl
  have hseverity : Finding.readSeverity (.str "critical") = .ok .critical := rfl
  have hcategory : Finding.readCategory (.str "security") = .ok .security := rfl
  have hopen : ∃ f, Command.rule.openCheck Command.inspect backticks
      ⟨testsFile, (Place.mk backticks [testProgram]).trail⟩ = .ok [f] :=
    Rule.report_ok (by decide +kernel) hseverity hcategory
  obtain ⟨f, hf⟩ := hopen
  have hplace : (⟨backticks, [testProgram]⟩ : Walk.Place) ∈
      Walk.placesIn [] [testsFile.tree.root] := by
    simp [testsFile, testProgram, Walk.placesIn, Walk.placesOf, loginTest, backticks]
  have hfound := (hfindings f).2 ⟨⟨backticks, [testProgram]⟩, hplace, rfl, by decide +kernel,
    (Command.rule, Command.inspect), by simp [inspections], by decide, [f], hf,
    List.mem_cons_self⟩
  refine ⟨rfl, by decide +kernel, by decide +kernel, ?_, List.ne_nil_of_mem hfound, ?_⟩
  · intro call hcall
    obtain ⟨p, hway, hnode, hrules⟩ := hcalls call hcall
    refine ⟨p, hway, hnode, fun htest r hr => ?_⟩
    obtain ⟨inspect, _, hcheck⟩ := hrules r hr
    rw [hcheck, htest]
    rfl
  · intro f hf
    obtain ⟨p, hp, _, houtside, _⟩ := (hfindings f).1 hf
    exact ⟨p, hp, houtside⟩

end Security

end PhpAudit
