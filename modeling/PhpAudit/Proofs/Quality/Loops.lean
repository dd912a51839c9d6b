/-
**Which loops are reported as nested too deep, and how deep they are said to be.**

The rule adds up two numbers.  One is counted upwards on the trail: the loops around the present
one.  The other is found by a search downwards: the most loops nested in one another below it.  Both
stop at functions, which have a nesting of their own.  The rule reports a loop if the first number
is just beyond the limit, so in a function with deeper nesting it reports the loops at which the
limit is crossed and no others, and the sum is the nesting of the deepest loop inside.

Main definitions:

* `Php.loopsAround`, `Php.nestingAt` — the loops around a place in its function, and the nesting
  depth of a loop;
* `Php.functionAround` — the function of a place, with all nodes above it;
* `Php.Embraces` — a loop and those inside it in the same function;
* `Quality.Loops.nestingBook` — a book with the rule and a limit.

Main results:

* `Php.le_nestingStack_iff` — what the search downwards finds;
* `Php.isGreatest_nesting` — **the two numbers add up to the depth of the deepest loop inside**;
* `Php.exists_crossing` — where there is deep nesting, the limit is crossed;
* `Quality.Loops.nesting_is_reported_once` — **the reports about the loops of a file**.
-/

import Mathlib.Data.List.Forall2
import Mathlib.Order.Bounds.Defs
import Mathlib.Order.MinMax
import PhpAudit.Proofs.Rule.Sweep
import PhpAudit.Quality.Loops

set_option autoImplicit false

namespace PhpAudit

open Walk (Place Trail Way)

namespace Php

/-! ### Nesting -/

/-- How many loops stand above a place, the nearest nodes first, up to the first function. -/
def loopsAround : List Node → Nat
  | [] => 0
  | a :: above => if isScope a then 0 else (if isLoop a then 1 else 0) + loopsAround above

/-- The nesting depth of a loop: one more than there are loops around it. -/
def nestingAt (p : Place) : Nat :=
  loopsAround p.above + 1

/-- The function around a place and all nodes above it; none at the top of a file. -/
def functionAround (p : Place) : List Node :=
  p.above.dropWhile fun a => !isScope a

/-- A place is that of a loop, or inside the loop and in the same function. -/
def Embraces (p q : Place) : Prop :=
  q = p ∨ ∃ between, q.above = between ++ p.node :: p.above ∧ ∀ k ∈ between, isScope k = false

theorem not_isScope_of_isLoop {n : Node} (h : isLoop n = true) : isScope n = false := by
  have hkinds : ∀ kind ∈ loopKinds, scopeKinds.contains kind = false := by decide
  exact hkinds n.kind (List.contains_iff_mem.1 h)

/-- Without a function in between, the loops in between come on top. -/
theorem loopsAround_append {low : List Node} (h : ∀ k ∈ low, isScope k = false)
    (high : List Node) : loopsAround (low ++ high) = low.countP isLoop + loopsAround high := by
  induction low with
  | nil => simp
  | cons a low ih =>
      have hrest := ih fun k hk => h k (List.mem_cons_of_mem _ hk)
      rw [List.cons_append, loopsAround, h a List.mem_cons_self, hrest, List.countP_cons]
      simp only [Bool.false_eq_true, if_false]
      omega

theorem nestingAt_of_between {p q : Place} {between : List Node}
    (habove : q.above = between ++ p.node :: p.above) (hopen : ∀ k ∈ between, isScope k = false)
    (hloop : isLoop p.node = true) : nestingAt q = nestingAt p + (between.countP isLoop + 1) := by
  rw [nestingAt, nestingAt, habove, loopsAround_append hopen, loopsAround, hloop,
    not_isScope_of_isLoop hloop]
  simp only [Bool.false_eq_true, if_false, if_true]
  omega

/-- The trail counts the loops around the present node. -/
theorem length_enclosingLoops {trail : Trail} {p : Place} (hshown : trail.Shows p) :
    (enclosingLoops trail).length = loopsAround p.above := by
  have hcount : ∀ above : List Node,
      ((above.takeWhile fun n => !isScope n).filter isLoop).length = loopsAround above := by
    intro above
    induction above with
    | nil => rfl
    | cons a above ih =>
        rw [loopsAround, List.takeWhile_cons]
        cases isScope a with
        | true => rfl
        | false =>
            simp only [Bool.not_false, if_true, List.filter_cons, Bool.false_eq_true, if_false]
            cases isLoop a with
            | true => simp only [if_true, List.length_cons, ih]; omega
            | false => simpa using ih
  rw [enclosingLoops, hshown.ancestors, hcount]

/-! ### The search downwards -/

/-- A way down from some roots to a loop, without a function on it, that gives a depth of at least
`d` when the roots stand in `depth` loops. -/
def Deep (depth d : Nat) (roots : List Node) : Prop :=
  ∃ m above, Way roots m above ∧ isLoop m = true ∧ (∀ k ∈ above, isScope k = false) ∧
    d ≤ depth + above.countP isLoop + 1

theorem deep_iff_root {depth d : Nat} {roots : List Node} :
    Deep depth d roots ↔ ∃ n ∈ roots, Deep depth d [n] := by
  constructor
  · rintro ⟨m, above, hway, h⟩
    obtain ⟨n, hn, hbelow⟩ := Walk.way_iff_root.1 hway
    exact ⟨n, hn, m, above, hbelow, h⟩
  · rintro ⟨n, hn, m, above, hway, h⟩
    exact ⟨m, above, Walk.way_iff_root.2 ⟨n, hn, hway⟩, h⟩

/-- The deepest way below a node is none if the node is a function, and otherwise goes on from the
node, with one more loop if the node is one. -/
theorem deep_singleton_iff {depth d : Nat} {n : Node} :
    Deep depth d [n] ↔ isScope n = false ∧
      (isLoop n = true ∧ d ≤ depth + 1 ∨
        Deep (if isLoop n then depth + 1 else depth) d n.children) := by
  have hcount : ∀ between : List Node,
      depth + (between ++ [n]).countP isLoop =
        (if isLoop n then depth + 1 else depth) + between.countP isLoop := by
    intro between
    rw [List.countP_append, List.countP_singleton]
    cases isLoop n with
    | true => simp only [if_true]; omega
    | false => rfl
  constructor
  · rintro ⟨m, above, hway, hloop, hopen, hd⟩
    rcases Walk.way_singleton_iff.1 hway with ⟨rfl, rfl⟩ | ⟨c, hc, between, rfl, hbelow⟩
    · exact ⟨not_isScope_of_isLoop hloop, .inl ⟨hloop, by simpa using hd⟩⟩
    · refine ⟨hopen n (by simp), .inr ⟨m, between, Walk.way_iff_root.2 ⟨c, hc, hbelow⟩, hloop, ?_⟩⟩
      rw [hcount] at hd
      exact ⟨fun k hk => hopen k (List.mem_append_left _ hk), hd⟩
  · rintro ⟨hscope, ⟨hloop, hd⟩ | ⟨m, between, hway, hloop, hopen, hd⟩⟩
    · exact ⟨n, [], .root List.mem_cons_self, hloop, nofun, by simpa using hd⟩
    · obtain ⟨c, hc, hbelow⟩ := Walk.way_iff_root.1 hway
      refine ⟨m, between ++ [n], Walk.way_singleton_iff.2 (.inr ⟨c, hc, between, rfl, hbelow⟩),
        hloop, ?_, by rwa [hcount]⟩
      intro k hk
      rcases List.mem_append.1 hk with hk | hk
      · exact hopen k hk
      · rwa [List.mem_singleton.1 hk]

/-- **What the search downwards finds**: what was found before, or as deep as some way down from the
stack gets. -/
theorem le_nestingStack_iff (d deepest : Nat) (stack : List (Node × Nat)) :
    d ≤ nestingStack deepest stack ↔
      d ≤ deepest ∨ ∃ n around, (n, around) ∈ stack ∧ Deep around d [n] := by
  -- from the children of a node on top the search goes on as from all of them
  have hchildren : ∀ (n : Node) (depth : Nat) (rest : List (Node × Nat)),
      (∃ m around, (m, around) ∈ marked depth n ++ rest ∧ Deep around d [m]) ↔
        Deep depth d n.children ∨ ∃ m around, (m, around) ∈ rest ∧ Deep around d [m] := by
    intro n depth rest
    simp only [List.mem_append, or_and_right, exists_or, mem_marked, @deep_iff_root _ _ n.children]
    refine or_congr_left ⟨?_, ?_⟩
    · rintro ⟨m, _, ⟨hm, rfl⟩, hdeep⟩
      exact ⟨m, hm, hdeep⟩
    · rintro ⟨m, hm, hdeep⟩
      exact ⟨m, depth, ⟨hm, rfl⟩, hdeep⟩
  have htop : ∀ (n : Node) (depth : Nat) (rest : List (Node × Nat)),
      (∃ m around, (m, around) ∈ (n, depth) :: rest ∧ Deep around d [m]) ↔
        Deep depth d [n] ∨ ∃ m around, (m, around) ∈ rest ∧ Deep around d [m] := by
    intro n depth rest
    simp only [List.mem_cons, or_and_right, exists_or, Prod.mk.injEq]
    refine or_congr_left ⟨?_, fun hdeep => ⟨n, depth, ⟨rfl, rfl⟩, hdeep⟩⟩
    rintro ⟨_, _, ⟨rfl, rfl⟩, hdeep⟩
    exact hdeep
  fun_induction nestingStack deepest stack with
  | case1 deepest => simp
  | case2 deepest n around rest hscope ih =>
      refine ih.trans ?_
      rw [htop, deep_singleton_iff, hscope]
      simp
  | case3 deepest n around rest hscope hloop ih =>
      refine ih.trans ?_
      rw [hchildren, htop, deep_singleton_iff, if_pos hloop, le_max_iff]
      simp only [hloop, hscope, true_and, or_assoc]
  | case4 deepest n around rest hscope hloop ih =>
      refine ih.trans ?_
      rw [hchildren, htop, deep_singleton_iff, if_neg hloop]
      simp only [hloop, hscope, Bool.false_eq_true, false_and, true_and, false_or]

theorem le_deepestNesting_iff {d : Nat} {n : Node} :
    d ≤ deepestNesting n ↔ d = 0 ∨ Deep 0 d n.children := by
  rw [deepestNesting, le_nestingStack_iff, Nat.le_zero, deep_iff_root]
  refine or_congr_right ⟨?_, ?_⟩
  · rintro ⟨m, _, hmarked, hdeep⟩
    obtain ⟨hm, rfl⟩ := mem_marked.1 hmarked
    exact ⟨m, hm, hdeep⟩
  · rintro ⟨m, hm, hdeep⟩
    exact ⟨m, 0, mem_marked.2 ⟨hm, rfl⟩, hdeep⟩

/-! ### Places -/

/-- A way down to a node and one on from its children make a way. -/
theorem way_children_iff {roots : List Node} {n m : Node} {above low : List Node}
    (hway : Way roots n above) :
    Way roots m (low ++ n :: above) ↔ Way n.children m low := by
  constructor
  · intro h
    rcases Walk.way_singleton_iff.1 h.through.2 with ⟨_, hnil⟩ | ⟨c, hc, between, hlow, hbelow⟩
    · simp at hnil
    · rw [(List.append_inj' hlow rfl).1]
      exact Walk.way_iff_root.2 ⟨c, hc, hbelow⟩
  · intro h
    induction h with
    | root hm => exact hway.child hm
    | child _ hm ih => exact ih.child hm

/-- **The loops around a loop and the nesting below it add up to the depth of the deepest loop
inside it in the same function.** -/
theorem isGreatest_nesting {roots : List Node} {p : Place} (hp : p ∈ Walk.placesIn [] roots)
    (hloop : isLoop p.node = true) :
    IsGreatest {d | ∃ q ∈ Walk.placesIn [] roots,
        isLoop q.node = true ∧ Embraces p q ∧ nestingAt q = d}
      (nestingAt p + deepestNesting p.node) := by
  have hway := Walk.mem_placesIn_iff.1 hp
  constructor
  · rcases le_deepestNesting_iff.1 (Nat.le_refl (deepestNesting p.node)) with hnone | hdeep
    · exact ⟨p, hp, hloop, .inl rfl, by rw [hnone]; rfl⟩
    · -- the way to the deepest loop, which cannot be deeper than what the search found
      obtain ⟨m, low, hbelow, hm, hopen, hd⟩ := hdeep
      have hbest : 0 + low.countP isLoop + 1 ≤ deepestNesting p.node :=
        le_deepestNesting_iff.2 (.inr ⟨m, low, hbelow, hm, hopen, Nat.le_refl _⟩)
      refine ⟨⟨m, low ++ p.node :: p.above⟩,
        Walk.mem_placesIn_iff.2 ((way_children_iff hway).2 hbelow), hm, .inr ⟨low, rfl, hopen⟩, ?_⟩
      rw [nestingAt_of_between rfl hopen hloop]
      omega
  · rintro d ⟨q, hq, hqloop, rfl | ⟨between, habove, hopen⟩, rfl⟩
    · exact Nat.le_add_right _ _
    · have hbelow : Way p.node.children q.node between := by
        rw [← way_children_iff hway, ← habove]
        exact Walk.mem_placesIn_iff.1 hq
      have hfound : between.countP isLoop + 1 ≤ deepestNesting p.node :=
        le_deepestNesting_iff.2 (.inr ⟨q.node, between, hbelow, hqloop, hopen, by omega⟩)
      rw [nestingAt_of_between habove hopen hloop]
      omega

/-- Among the nodes above a place that stands in a loop, the nearest loop has one loop less around
it and stands in the same function. -/
theorem exists_nearest_loop {above : List Node} (h : 0 < loopsAround above) :
    ∃ low a high, above = low ++ a :: high ∧ isLoop a = true ∧
      loopsAround above = loopsAround high + 1 ∧
      (above.dropWhile fun k => !isScope k) = high.dropWhile fun k => !isScope k := by
  induction above with
  | nil => exact absurd h (Nat.lt_irrefl 0)
  | cons a above ih =>
      rw [loopsAround] at h ⊢
      cases hscope : isScope a with
      | true => simp [hscope] at h
      | false =>
          rw [hscope] at h
          simp only [Bool.false_eq_true, if_false] at h ⊢
          cases hloop : isLoop a with
          | true => exact ⟨[], a, above, rfl, hloop, by simp [Nat.add_comm], by simp [hscope]⟩
          | false =>
              rw [hloop] at h
              obtain ⟨low, b, high, rfl, hb, hcount, hdrop⟩ := ih (by simpa using h)
              exact ⟨a :: low, b, high, rfl, hb, by simpa using hcount,
                by simpa [hscope] using hdrop⟩

/-- Where a loop is nested deeper than a limit, one around it in the same function, or the loop
itself, is the first beyond the limit. -/
theorem exists_crossing {roots : List Node} {q : Place} (hq : q ∈ Walk.placesIn [] roots)
    (hloop : isLoop q.node = true) {k : Nat} (hdeep : k < nestingAt q) :
    ∃ p ∈ Walk.placesIn [] roots, isLoop p.node = true ∧ functionAround p = functionAround q ∧
      nestingAt p = k + 1 := by
  induction hn : nestingAt q generalizing q with
  | zero => exact absurd hn (Nat.succ_ne_zero _)
  | succ n ih =>
      rw [hn] at hdeep
      by_cases hfirst : n = k
      · exact ⟨q, hq, hloop, rfl, by rw [hn, hfirst]⟩
      · have haround : loopsAround q.above = n := Nat.succ.inj hn
        have hsome : 0 < loopsAround q.above := by omega
        obtain ⟨low, a, high, habove, ha, hcount, hdrop⟩ := exists_nearest_loop hsome
        have hway := Walk.mem_placesIn_iff.1 hq
        rw [habove] at hway
        have hless : nestingAt ⟨a, high⟩ = n := by
          rw [nestingAt, ← hcount, haround]
        obtain ⟨p, hp, hploop, hfunction, hdepth⟩ :=
          ih (q := ⟨a, high⟩) (Walk.mem_placesIn_iff.2 hway.through.1) ha (by omega) hless
        exact ⟨p, hp, hploop, hfunction.trans hdrop.symm, hdepth⟩

end Php

/-! ### Reports -/

namespace Quality.Loops

open Php

/-- The rule with a limit. -/
def limited (k : Nat) : Rule :=
  { nestingRule with settings := [("max_depth", .int k)] }

/-- A book that has taken up the rule with a limit, and nothing else. -/
def nestingBook (k : Nat) : RuleBook :=
  RuleBook.run {} [.add nestingRule [("max_depth", .int k)]]

/-- The finding reports a node of a file for a depth beyond the limit. -/
structure Tells (f : Finding) (k depth : Nat) (n : Node) (file : SourceFile) : Prop where
  rule : f.ruleId = .str "nested_loops"
  file : f.filePath = .str file.path
  line : f.line = .int n.span.startLine
  title : f.title = .str s!"Loop nesting depth {depth} exceeds {k}"
  depth : Assoc.get? f.metadata "depth" = some (.nat depth)

theorem problems_eq_nil {k : Nat} (hk : 1 ≤ k) :
    nestingRule.problems [("max_depth", .int k)] = [] := by
  have hfits : decide ((1 : Int) ≤ k) = true := decide_eq_true (by omega)
  have hproblems : nestingRule.problems [("max_depth", .int k)] =
      if !decide ((1 : Int) ≤ k) then
        [.remark s!"max_depth must be an integer >= {(1 : Int)}"]
      else [] := rfl
  rw [hproblems, hfits]
  rfl

theorem nestingBook_keeps {k : Nat} (hk : 1 ≤ k) : (nestingBook k).Keeps [limited k] := by
  have hconfigured : nestingRule.configured [("max_depth", .int k)] = .ok (limited k) := by
    rw [Rule.configured, if_neg (by simp), Rule.configure, problems_eq_nil hk]
    rfl
  have hvalid : (limited k).validity.errors = [] := by
    have hid : (Rule.idValidity (limited k).profile.id).errors = [] :=
      show (Rule.idValidity "nested_loops").errors = [] by decide +kernel
    have hsettings : (limited k).problems (limited k).settings = [] := problems_eq_nil hk
    simp only [Rule.validity, hid, hsettings]
    rfl
  have hadmitted : Lineup.admitted false nestingRule [("max_depth", .int k)] =
      some (limited k) := by
    rw [Lineup.admitted, hconfigured]
    simp [hvalid]
  have hkeeps := (RuleBook.keeps_empty false).run [.add nestingRule [("max_depth", .int k)]]
  rw [List.foldl_cons, List.foldl_nil, Lineup.step, hadmitted] at hkeeps
  exact hkeeps

/-- The rule is asked about loops only. -/
theorem foundAt_eq (k : Nat) (file : SourceFile) (n : Node) (trail : Trail) :
    Lineup.foundAt [limited k] file n trail =
      if isLoop n then RuleBook.findingsOf n ⟨file, trail⟩ (limited k) else [] := by
  have happlies : (limited k).profile.appliesTo n.kind = isLoop n := by
    have hstar : loopKinds.contains "*" = false := by decide
    exact congrArg (· || loopKinds.contains n.kind) hstar
  rw [Lineup.foundAt, Lineup.dispatch, Lineup.inOrder, List.mergeSort_singleton,
    List.filter_cons, happlies]
  cases isLoop n with
  | false => rfl
  | true => exact List.append_nil _

/-- The draft is for a loop of some depth beyond the limit, with the severity left to the rule. -/
structure Drafted (draft : Rule.Draft) (k depth : Nat) (n : Node) : Prop where
  severity : draft.severity = none
  line : draft.line = some n.span.startLine
  title : draft.title = .str s!"Loop nesting depth {depth} exceeds {k}"
  depth : Assoc.get? draft.metadata "depth" = some (.nat depth)

/-- The rule drafts nothing for a loop, unless it is the first beyond the limit. -/
theorem inspectNesting_eq (k : Nat) (file : SourceFile) {p : Place} {trail : Trail}
    (hshown : trail.Shows p) :
    ∃ draft, Drafted draft k (nestingAt p + deepestNesting p.node) p.node ∧
      inspectNesting (limited k).settings p.node ⟨file, trail⟩ =
        .ok (if nestingAt p = k + 1 then [draft] else []) := by
  have hsign : ((nestingAt p : Int) != (k : Int) + 1) = !decide (nestingAt p = k + 1) := by
    by_cases hcross : nestingAt p = k + 1
    · simp [hcross]
    · simp only [hcross, decide_false, Bool.not_false, bne_iff_ne]
      omega
  obtain ⟨draft, hdraft, hinspect⟩ : ∃ draft,
      Drafted draft k (nestingAt p + deepestNesting p.node) p.node ∧
      inspectNesting (limited k).settings p.node ⟨file, trail⟩ =
        .ok (if (nestingAt p : Int) != (k : Int) + 1 then [] else [draft]) := by
    unfold inspectNesting
    rw [length_enclosingLoops hshown]
    exact ⟨_, ⟨rfl, rfl, rfl, rfl⟩, rfl⟩
  refine ⟨draft, hdraft, ?_⟩
  rw [hinspect, hsign]
  by_cases hcross : nestingAt p = k + 1 <;> simp [hcross]

theorem Drafted.finding {draft : Rule.Draft} {k depth : Nat} {n : Node}
    (hdraft : Drafted draft k depth n) (site : Rule.Site) :
    ∃ f, (limited k).profile.finding draft n site = .ok f ∧ Tells f k depth n site.file := by
  have hword : Rule.severityWord draft.severity (limited k).profile.severity = "medium" := by
    rw [hdraft.severity]
    rfl
  unfold Rule.Profile.finding
  rw [hword]
  refine ⟨_, rfl, rfl, rfl, ?_, hdraft.title, hdraft.depth⟩
  exact congrArg (fun line => Value.int (line.getD n.span.startLine)) hdraft.line

/-- What the rule says about a loop: nothing, unless it is the first beyond the limit. -/
theorem findingsOf_loop (k : Nat) (file : SourceFile) {p : Place} {trail : Trail}
    (hshown : trail.Shows p) :
    ∃ f, Tells f k (nestingAt p + deepestNesting p.node) p.node file ∧
      RuleBook.findingsOf p.node ⟨file, trail⟩ (limited k) =
        if nestingAt p = k + 1 then [f] else [] := by
  obtain ⟨draft, hdraft, hinspect⟩ := inspectNesting_eq k file hshown
  obtain ⟨f, hf, htells⟩ := hdraft.finding ⟨file, trail⟩
  refine ⟨f, htells, ?_⟩
  have hcheck : (limited k).check (limited k).settings p.node ⟨file, trail⟩ = (do
      let drafts ← (inspectNesting (limited k).settings p.node ⟨file, trail⟩).mapError .misuse
      (limited k).profile.findings drafts p.node ⟨file, trail⟩) := rfl
  have hone : (limited k).profile.findings [draft] p.node ⟨file, trail⟩ = .ok [f] := by
    rw [Rule.Profile.findings, List.mapM_cons, hf]
    rfl
  have hfindings : (limited k).check (limited k).settings p.node ⟨file, trail⟩ =
      .ok (if nestingAt p = k + 1 then [f] else []) := by
    rw [hcheck, hinspect]
    split
    · exact hone
    · rfl
  rw [RuleBook.findingsOf, hfindings]

/-- What the rule says about a place among others. -/
theorem foundAt_place (k : Nat) (file : SourceFile) {roots : List Node} {p : Place}
    (hp : p ∈ Walk.placesIn [] roots) {trail : Trail} (hshown : trail.Shows p) :
    if isLoop p.node && nestingAt p == k + 1 then
      ∃ f, (∃ depth, Tells f k depth p.node file ∧
          IsGreatest {d | ∃ q ∈ Walk.placesIn [] roots,
            isLoop q.node = true ∧ Embraces p q ∧ nestingAt q = d} depth) ∧
        Lineup.foundAt [limited k] file p.node trail = [f]
    else Lineup.foundAt [limited k] file p.node trail = [] := by
  obtain ⟨f, htells, hfound⟩ := findingsOf_loop k file hshown
  rw [foundAt_eq, hfound]
  cases hloop : isLoop p.node with
  | false => rfl
  | true =>
      by_cases hcross : nestingAt p = k + 1
      · rw [if_pos (by simp [hcross]), if_pos rfl, if_pos hcross]
        exact ⟨f, ⟨_, htells, isGreatest_nesting hp hloop⟩, rfl⟩
      · rw [if_neg (by simp [hcross]), if_pos rfl, if_neg hcross]

/-- If every visit of a place that passes a test brings one finding that fits the place, and every
other one none, the findings fit the places that pass the test, in order. -/
theorem forall₂_flatMap {α β γ : Type} {R : α → γ → Prop} {test : α → Bool} {found : α × β → List γ}
    {visits : List (α × β)}
    (h : ∀ v ∈ visits, if test v.1 then ∃ f, R v.1 f ∧ found v = [f] else found v = []) :
    List.Forall₂ R ((visits.map Prod.fst).filter test) (visits.flatMap found) := by
  induction visits with
  | nil => exact .nil
  | cons v visits ih =>
      have hfirst := h v List.mem_cons_self
      have hrest := ih fun w hw => h w (List.mem_cons_of_mem _ hw)
      rw [List.map_cons, List.filter_cons, List.flatMap_cons]
      cases htest : test v.1 with
      | true =>
          rw [htest] at hfirst
          obtain ⟨f, hf, hfound⟩ := hfirst
          rw [hfound]
          exact .cons hf hrest
      | false =>
          rw [htest] at hfirst
          rw [show found v = [] from hfirst]
          exact hrest

/-- **The reports about the loops of a file** that the walk gets to the bottom of: with a limit of
`k` there is one report for each loop of nesting depth `k + 1`, in the order of the file, and none
for any other node; the depth that it tells is the greatest nesting depth of the loops in this one
that belong to the same function, itself included.  So a function has a loop that is reported
exactly if it has one nested deeper than `k`. -/
theorem nesting_is_reported_once (file : SourceFile) {k : Nat} (hk : 1 ≤ k)
    (hbottom : ∀ p ∈ Walk.placesIn [] [file.tree.root], p.above.length ≤ 500) :
    List.Forall₂
        (fun p f => ∃ depth, Tells f k depth p.node file ∧
          IsGreatest {d | ∃ q ∈ Walk.placesIn [] [file.tree.root],
            isLoop q.node = true ∧ Embraces p q ∧ nestingAt q = d} depth)
        ((Walk.placesIn [] [file.tree.root]).filter fun p =>
          isLoop p.node && nestingAt p == k + 1)
        ((nestingBook k).sweep file).1.findings ∧
      ∀ function : List Node,
        (∃ p ∈ Walk.placesIn [] [file.tree.root],
          isLoop p.node = true ∧ functionAround p = function ∧ nestingAt p = k + 1) ↔
        ∃ q ∈ Walk.placesIn [] [file.tree.root],
          isLoop q.node = true ∧ functionAround q = function ∧ k < nestingAt q := by
  constructor
  · obtain ⟨visits, hplaces, hshown, hfindings⟩ := (nestingBook_keeps hk).sweep_findings file
    have hall : (Walk.placesIn [] [file.tree.root]).filter ({} : Walk.Options).reaches =
        Walk.placesIn [] [file.tree.root] := by
      refine List.filter_eq_self.2 fun p hp => decide_eq_true ?_
      have := hbottom p hp
      show (p.above.length : Int) ≤ 500
      omega
    rw [hall] at hplaces
    rw [hfindings]
    nth_rewrite 2 [← hplaces]
    exact forall₂_flatMap fun visit hvisit =>
      foundAt_place k file (hplaces ▸ List.mem_map_of_mem hvisit) (hshown visit hvisit)
  · intro function
    constructor
    · rintro ⟨p, hp, hloop, hfunction, hdepth⟩
      exact ⟨p, hp, hloop, hfunction, by omega⟩
    · rintro ⟨q, hq, hloop, hfunction, hdeep⟩
      obtain ⟨p, hp, hploop, hsame, hdepth⟩ := exists_crossing hq hloop hdeep
      exact ⟨p, hp, hploop, hsame.trans hfunction, hdepth⟩

/-! ### Loops around a closure -/

/-- A node of a kind on a line. -/
def block (kind : String) (line : Int) (children : List Node) : Node :=
  { kind, span := { startLine := line }, children }

/-- A loop in a loop. -/
def pair : Node :=
  block "for_statement" 5 [block "do_statement" 6 []]

/-- A loop around a closure with a loop of its own, and around two loops. -/
def outer : Node :=
  block "foreach_statement" 2
    [block "anonymous_function" 3 [block "while_statement" 4 []], pair]

/-- A file with these loops. -/
def mazeFile : SourceFile :=
  { path := "src/app.php", content := "", digest := ""
    tree := { root := block "program" 1 [outer], nodeCount := 6 } }

/-- With a limit of one the second loop is reported, for a depth of three; the loop in the closure
is the first of its function. -/
theorem maze_is_reported_once :
    1 ≤ 1 ∧ (∀ p ∈ Walk.placesIn [] [mazeFile.tree.root], p.above.length ≤ 500) ∧
    ∃ f, ((nestingBook 1).sweep mazeFile).1.findings = [f] ∧ Tells f 1 3 pair mazeFile := by
  have hbottom : ∀ p ∈ Walk.placesIn [] [mazeFile.tree.root], p.above.length ≤ 500 := by decide
  have hdeepest : ∀ q ∈ Walk.placesIn [] [mazeFile.tree.root], nestingAt q ≤ 3 := by decide
  have hcrossing : (Walk.placesIn [] [mazeFile.tree.root]).filter
      (fun p => isLoop p.node && nestingAt p == 1 + 1) =
        [⟨pair, [outer, mazeFile.tree.root]⟩] := rfl
  obtain ⟨hreports, _⟩ := nesting_is_reported_once mazeFile (Nat.le_refl 1) hbottom
  rw [hcrossing] at hreports
  obtain ⟨f, rest, ⟨depth, htells, ⟨q, hq, _, _, hdepth⟩, hgreatest⟩, hrest, hfindings⟩ :=
    List.forall₂_cons_left_iff.1 hreports
  have hthree : 3 ≤ depth := hgreatest
    ⟨⟨block "do_statement" 6 [], [pair, outer, mazeFile.tree.root]⟩,
      Walk.mem_placesIn_iff.2 (.child (.child (.child (.root List.mem_cons_self)
        List.mem_cons_self) (List.mem_cons_of_mem _ List.mem_cons_self)) List.mem_cons_self),
      rfl, .inr ⟨[], rfl, nofun⟩, rfl⟩
  have hexact : depth = 3 := Nat.le_antisymm (hdepth ▸ hdeepest q hq) hthree
  rw [hexact] at htells
  rw [List.forall₂_nil_left_iff.1 hrest] at hfindings
  exact ⟨Nat.le_refl 1, hbottom, f, hfindings, htells⟩

end Quality.Loops

end PhpAudit
