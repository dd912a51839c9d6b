/-
**Which variables are reported as unused.**

The variables of a function are collected from the nodes below its body, in pre-order, without the
insides of functions nested in it.  An assignment writes its left side and notes where that begins,
so that the mention there is not taken for a read; any other mention is one.  Hence a variable that
is reported is mentioned below the body as the left side of an assignment at most, and no closure
there captures it.  The body itself is not among the nodes: an arrow function whose body is just a
variable reads it, and the variable is reported all the same.

Main definitions:

* `Php.Usage.readsAt`, `Php.Usage.target?` — what one node of a body reads and writes;
* `Php.Usage.StartsApart` — no two variables of a body begin at the same place;
* `Php.Usage.Within` — the nodes of a body, those in arrow functions included.

Main results:

* `Php.Usage.mem_used_foldl` — **what a body reads**;
* `Php.Usage.left_side_of_unread` — an unread variable is mentioned as a left side at most;
* `Php.Usage.not_captured_of_unread` — and no closure captures it;
* `Quality.UnusedVariable.reported_variables_are_unread` — **what is known of a variable that is
  reported**;
* `Quality.UnusedVariable.arrow_body_is_overlooked` — a variable that is read and reported.
-/

import PhpAudit.Proofs.Except
import PhpAudit.Proofs.Php.Scopes
import PhpAudit.Quality.UnusedVariable

set_option autoImplicit false

namespace PhpAudit.Php

open Walk (Way)

namespace Usage

/-! ### What one node reads and writes -/

/-- The variable that a node of a body writes. -/
def target? (n : Node) : Option Node :=
  if n.kind == "assignment_expression" then
    (n.childByField? "left").filter fun left => left.kind == "variable_name"
  else none

/-- The variables that a node of a body reads, where the targets of assignments begin at the given
places. -/
def readsAt (targets : List Int) (n : Node) : List String :=
  if n.kind == "arrow_function" then variablesIn n
  else if isScope n then (n.childrenOf ["anonymous_function_use_clause"]).flatMap variablesIn
  else if isFunctionCall n && callName n == "compact" then
    (n.findAll ["string", "encapsed_string"]).map stringContent
  else if n.kind == "variable_name" && !targets.contains n.span.startByte then [variableName n]
  else []

theorem mem_used_read {u : Usage} {names : List String} {x : String} :
    x ∈ (u.read names).used ↔ x ∈ u.used ∨ x ∈ names := by
  simp only [read]
  generalize u.used = seen
  induction names generalizing seen with
  | nil => simp
  | cons name names ih =>
      rw [List.foldl_cons, ih]
      by_cases h : seen.contains name = true
      · have hseen : name ∈ seen := List.contains_iff_mem.1 h
        rw [if_pos h, List.mem_cons]
        constructor
        · rintro (hx | hx)
          · exact .inl hx
          · exact .inr (.inr hx)
        · rintro (hx | rfl | hx)
          · exact .inl hx
          · exact .inl hseen
          · exact .inr hx
      · rw [if_neg h, List.mem_append, List.mem_singleton, List.mem_cons, or_assoc]

theorem used_assign (u : Usage) (name : String) (a : Assignment) :
    (u.assign name a).used = u.used := by
  unfold assign
  split <;> rfl

theorem targets_assign (u : Usage) (name : String) (a : Assignment) :
    (u.assign name a).targets = u.targets := by
  unfold assign
  split <;> rfl

theorem foldl_read (u : Usage) (clauses : List Node) :
    ((clauses.foldl (fun u c => u.read (variablesIn c)) u).targets = u.targets) ∧
      ∀ x, x ∈ (clauses.foldl (fun u c => u.read (variablesIn c)) u).used ↔
        x ∈ u.used ∨ x ∈ clauses.flatMap variablesIn := by
  induction clauses generalizing u with
  | nil => simp
  | cons c clauses ih =>
      obtain ⟨htargets, hused⟩ := ih (u.read (variablesIn c))
      refine ⟨htargets, fun x => ?_⟩
      rw [List.foldl_cons, hused, mem_used_read, List.flatMap_cons, List.mem_append, or_assoc]

/-- An assignment writes its left side, if that is a variable, and reads nothing by itself. -/
theorem note_of_assignment (u : Usage) {n : Node} (h : n.kind = "assignment_expression") :
    (u.note n).used = u.used ∧
      (u.note n).targets =
        (target? n).toList.map (fun left => left.span.startByte) ++ u.targets := by
  unfold note target?
  simp only [h, beq_self_eq_true, if_true]
  cases n.childByField? "left" with
  | none => exact ⟨rfl, rfl⟩
  | some left =>
      dsimp only [Option.filter]
      split
      · rw [used_assign, targets_assign]
        exact ⟨rfl, rfl⟩
      · exact ⟨rfl, rfl⟩

/-- Any other node writes nothing. -/
theorem note_of_other (u : Usage) {n : Node} (h : n.kind ≠ "assignment_expression") :
    (u.note n).targets = u.targets ∧
      ∀ x, x ∈ (u.note n).used ↔ x ∈ u.used ∨ x ∈ readsAt u.targets n := by
  unfold note readsAt
  rw [if_neg (by simpa using h)]
  split
  · exact ⟨rfl, fun x => mem_used_read⟩
  · split
    · exact foldl_read u _
    · split
      · exact ⟨rfl, fun x => mem_used_read⟩
      · split
        · exact ⟨rfl, fun x => mem_used_read⟩
        · exact ⟨rfl, fun x => by simp⟩

/-- What one node adds to the variables that are read. -/
theorem mem_used_note (u : Usage) (n : Node) (x : String) :
    x ∈ (u.note n).used ↔ x ∈ u.used ∨ x ∈ readsAt u.targets n := by
  by_cases h : n.kind = "assignment_expression"
  · have hnothing : readsAt u.targets n = [] := by
      simp [readsAt, isScope, scopeKinds, isFunctionCall, h]
    rw [(note_of_assignment u h).1, hnothing]
    simp
  · exact (note_of_other u h).2 x

/-- What one node adds to the places of targets. -/
theorem mem_targets_note (u : Usage) (n : Node) (start : Int) :
    start ∈ (u.note n).targets ↔
      start ∈ u.targets ∨ ∃ left, target? n = some left ∧ left.span.startByte = start := by
  by_cases h : n.kind = "assignment_expression"
  · rw [(note_of_assignment u h).2]
    cases target? n <;> simp [or_comm, eq_comm]
  · have hnone : target? n = none := by simp [target?, h]
    rw [(note_of_other u h).1, hnone]
    simp

/-! ### What a body reads and writes -/

/-- The targets of a body are those of its nodes. -/
theorem mem_targets_foldl {ns : List Node} {u : Usage} {start : Int} :
    start ∈ (ns.foldl note u).targets ↔
      start ∈ u.targets ∨
        ∃ n ∈ ns, ∃ left, target? n = some left ∧ left.span.startByte = start := by
  induction ns generalizing u with
  | nil => simp
  | cons n ns ih =>
      rw [List.foldl_cons, ih, mem_targets_note, or_assoc]
      simp only [List.mem_cons, or_and_right, exists_or, exists_eq_left]

/-- **What a body reads** is what its nodes read, where each knows the targets before it. -/
theorem mem_used_foldl {ns : List Node} {u : Usage} {x : String} :
    x ∈ (ns.foldl note u).used ↔ x ∈ u.used ∨
      ∃ before n after, ns = before ++ n :: after ∧
        x ∈ readsAt (before.foldl note u).targets n := by
  induction ns generalizing u with
  | nil => simp
  | cons n ns ih =>
      rw [List.foldl_cons, ih, mem_used_note, or_assoc]
      refine or_congr_right ?_
      constructor
      · rintro (hx | ⟨before, m, after, rfl, hx⟩)
        · exact ⟨[], n, ns, rfl, hx⟩
        · exact ⟨n :: before, m, after, rfl, hx⟩
      · rintro ⟨before, m, after, hsplit, hx⟩
        cases before with
        | nil =>
            obtain ⟨rfl, rfl⟩ := List.cons.inj hsplit
            exact .inl hx
        | cons k before =>
            obtain ⟨rfl, rfl⟩ := List.cons.inj hsplit
            exact .inr ⟨before, m, after, rfl, hx⟩

/-- Before the body nothing is read, and nothing is a target. -/
theorem ofParameters_spec (n : Node) :
    (ofParameters n).used = [] ∧ (ofParameters n).targets = [] := by
  unfold ofParameters
  refine List.foldlRecOn (motive := fun u : Usage => u.used = [] ∧ u.targets = []) _ _ ⟨rfl, rfl⟩ ?_
  intro u hu p _
  dsimp only
  split <;> exact hu

theorem mem_used_noteClause {u : Usage} {clause : Node} {x : String} :
    x ∈ (noteClause u clause).used ↔ x ∈ u.used ∨ x ∈ variablesIn clause := by
  unfold noteClause variablesIn
  generalize clause.findAll ["variable_name"] = vs
  induction vs generalizing u with
  | nil => simp
  | cons v vs ih =>
      rw [List.foldl_cons, ih, mem_used_read, used_assign, List.mem_singleton, List.map_cons,
        List.mem_cons, or_assoc]

/-- What a function reads: what the nodes of its body read, and what its use clause names. -/
theorem mem_used_of {n body : Node} (hbody : body? n = some body) {x : String} :
    x ∈ (Usage.of n).used ↔
      (∃ before m after, walkScope body = before ++ m :: after ∧
        x ∈ readsAt (before.foldl note (ofParameters n)).targets m) ∨
      ∃ clause ∈ n.childrenOf ["anonymous_function_use_clause"], x ∈ variablesIn clause := by
  have hclauses : ∀ (clauses : List Node) (u : Usage), x ∈ (clauses.foldl noteClause u).used ↔
      x ∈ u.used ∨ ∃ clause ∈ clauses, x ∈ variablesIn clause := by
    intro clauses
    induction clauses with
    | nil => simp
    | cons clause clauses ih =>
        intro u
        rw [List.foldl_cons, ih, mem_used_noteClause, or_assoc]
        simp
  unfold Usage.of
  simp only [hbody]
  rw [hclauses, mem_used_foldl, (ofParameters_spec n).1]
  simp

/-! ### Unread variables -/

/-- No two variables of a body begin at the same place. -/
def StartsApart (body : Node) : Prop :=
  ∀ {m m' : Node} {above above' : List Node}, Way [body] m above → Way [body] m' above' →
    m.kind = "variable_name" → m'.kind = "variable_name" →
      m.span.startByte = m'.span.startByte → m = m' ∧ above = above'

/-- A node belongs to a body, maybe by way of arrow functions, but of no other functions. -/
structure Within (body m : Node) (above : List Node) : Prop where
  way : Way [body] m above
  arrows : ∀ k ∈ above, isScope k = true → k.kind = "arrow_function"

/-- The node is the left side of an assignment right above it. -/
def IsLeftSide (m : Node) (above : List Node) : Prop :=
  ∃ a rest, above = a :: rest ∧ a.kind = "assignment_expression" ∧
    a.childByField? "left" = some m

theorem exists_last_scope {l : List Node} (h : ∃ k ∈ l, isScope k = true) :
    ∃ low k high, l = low ++ k :: high ∧ isScope k = true ∧ ∀ j ∈ high, isScope j = false := by
  induction l with
  | nil => simp at h
  | cons a l ih =>
      by_cases hlater : ∃ k ∈ l, isScope k = true
      · obtain ⟨low, k, high, rfl, hk, hhigh⟩ := ih hlater
        exact ⟨a :: low, k, high, rfl, hk, hhigh⟩
      · obtain ⟨k, hk, hscope⟩ := h
        have hnone : ∀ j ∈ l, isScope j = false := fun j hj =>
          Bool.eq_false_iff.2 fun hscope => hlater ⟨j, hj, hscope⟩
        rcases List.mem_cons.1 hk with rfl | hk
        · exact ⟨[], k, l, rfl, hscope, hnone⟩
        · rw [hnone k hk] at hscope
          cases hscope

/-- A node of a body is the body itself, or it is met in the scope, or it is below an arrow function
that is. -/
theorem Within.cases {body m : Node} {above : List Node} (h : Within body m above) :
    above = [] ∨
      (∃ between, above = between ++ [body] ∧ Way body.children m between ∧
        ∀ k ∈ between, isScope k = false) ∨
      ∃ k ∈ walkScope body, k.kind = "arrow_function" ∧ m ∈ k.walk := by
  rcases Walk.way_singleton_iff.1 h.way with ⟨_, rfl⟩ | ⟨c, hc, between, rfl, hway⟩
  · exact .inl rfl
  · have hbelow : Way body.children m between := Walk.way_iff_root.2 ⟨c, hc, hway⟩
    by_cases hscope : ∃ k ∈ between, isScope k = true
    · -- the outermost function on the way is met, and what is below it with it
      obtain ⟨low, k, high, rfl, hk, hhigh⟩ := exists_last_scope hscope
      obtain ⟨hmet, hon⟩ := hbelow.through
      exact .inr (.inr ⟨k, mem_walkScope_iff.2 ⟨high, hmet, hhigh⟩, h.arrows k (by simp) hk,
        Walk.mem_walk_iff.2 ⟨_, hon⟩⟩)
    · exact .inr (.inl ⟨between, rfl, hbelow, fun k hk =>
        Bool.eq_false_iff.2 fun h => hscope ⟨k, hk, h⟩⟩)

section Unread

variable {n body : Node} {v : String}

/-- What a node of the body reads under some targets, all of which are targets of other nodes of
the body, does not include an unread variable. -/
theorem not_mem_readsAt (hbody : body? n = some body) (hunread : v ∉ (Usage.of n).used) {m : Node}
    (hm : m ∈ walkScope body) :
    ∃ targets, v ∉ readsAt targets m ∧ ∀ start ∈ targets,
      ∃ a ∈ walkScope body, ∃ left, target? a = some left ∧ left.span.startByte = start := by
  obtain ⟨before, after, hsplit⟩ := List.append_of_mem hm
  refine ⟨(before.foldl note (ofParameters n)).targets, fun hread => hunread ?_, ?_⟩
  · exact (mem_used_of hbody).2 (.inl ⟨before, m, after, hsplit, hread⟩)
  · intro start hstart
    rw [mem_targets_foldl, (ofParameters_spec n).2] at hstart
    obtain ⟨a, ha, left, htarget, hleft⟩ := hstart.resolve_left List.not_mem_nil
    refine ⟨a, ?_, left, htarget, hleft⟩
    rw [hsplit]
    exact List.mem_append_left _ ha

theorem of_target? {a left : Node} (h : target? a = some left) :
    a.kind = "assignment_expression" ∧ a.childByField? "left" = some left ∧
      left.kind = "variable_name" := by
  unfold target? at h
  split at h
  · rename_i hkind
    obtain ⟨hleft, hvariable⟩ := Option.filter_eq_some_iff.1 h
    exact ⟨eq_of_beq hkind, hleft, eq_of_beq hvariable⟩
  · cases h

/-- An unread variable that is met in the scope is the left side of an assignment. -/
theorem isLeftSide_of_met (hbody : body? n = some body) (hapart : StartsApart body)
    (hunread : v ∉ (Usage.of n).used) {m : Node} {between : List Node}
    (hway : Way body.children m between) (hopen : ∀ k ∈ between, isScope k = false)
    (hkind : m.kind = "variable_name") (hname : variableName m = v) :
    IsLeftSide m (between ++ [body]) := by
  have hdown : ∀ {k : Node} {above : List Node}, Way body.children k above →
      Way [body] k (above ++ [body]) := by
    intro k above hk
    obtain ⟨c, hc, hk⟩ := Walk.way_iff_root.1 hk
    exact Walk.way_singleton_iff.2 (.inr ⟨c, hc, above, rfl, hk⟩)
  obtain ⟨targets, hread, htargets⟩ :=
    not_mem_readsAt hbody hunread (mem_walkScope_iff.2 ⟨between, hway, hopen⟩)
  -- the mention is no read, so it begins where the target of some assignment does
  have hstart : m.span.startByte ∈ targets := by
    refine Classical.byContradiction fun hstart => hread ?_
    simp [readsAt, hkind, isScope, scopeKinds, isFunctionCall, hstart, hname]
  obtain ⟨a, ha, left, htarget, hsame⟩ := htargets _ hstart
  obtain ⟨hassign, hleft, hvariable⟩ := of_target? htarget
  obtain ⟨high, haway, _⟩ := mem_walkScope_iff.1 ha
  have hleftway := (hdown haway).child (List.mem_of_find?_eq_some hleft)
  obtain ⟨rfl, habove⟩ := hapart (hdown hway) hleftway hkind hvariable hsame.symm
  exact ⟨a, _, habove, hassign, hleft⟩

/-- **An unread variable is mentioned in the body as the left side of an assignment at most**,
unless the body is nothing but the variable. -/
theorem left_side_of_unread (hbody : body? n = some body) (hapart : StartsApart body)
    (hunread : v ∉ (Usage.of n).used) {m : Node} {above : List Node} (hm : Within body m above)
    (hkind : m.kind = "variable_name") (hname : variableName m = v) :
    above = [] ∨ IsLeftSide m above := by
  rcases hm.cases with hself | ⟨between, rfl, hway, hopen⟩ | ⟨k, hk, harrow, hmem⟩
  · exact .inl hself
  · exact .inr (isLeftSide_of_met hbody hapart hunread hway hopen hkind hname)
  · -- an arrow function reads all that it mentions
    obtain ⟨targets, hread, _⟩ := not_mem_readsAt hbody hunread hk
    refine absurd ?_ hread
    rw [readsAt, if_pos (by simp [harrow])]
    exact List.mem_map.2 ⟨m, List.mem_filter.2 ⟨hmem, by simp [hkind]⟩, hname⟩

/-- Neither an assignment nor a function stands in a use clause. -/
def IsPlain (clause : Node) : Prop :=
  ∀ k ∈ clause.walk, k.kind ≠ "assignment_expression" ∧ isScope k = false

/-- A plain clause right below the body does not name an unread variable: it is met node by node
like the rest of the scope. -/
theorem not_named_of_isPlain (hbody : body? n = some body) (hapart : StartsApart body)
    (hunread : v ∉ (Usage.of n).used) {clause : Node} (hchild : clause ∈ body.children)
    (hclause : clause.kind ≠ "variable_name") (hplain : IsPlain clause) :
    v ∉ variablesIn clause := by
  intro hv
  obtain ⟨m, hm, hname⟩ := List.mem_map.1 hv
  obtain ⟨hm, hvariable⟩ := List.mem_filter.1 hm
  have hkind : m.kind = "variable_name" := by simpa using hvariable
  obtain ⟨low, hlow⟩ := Walk.mem_walk_iff.1 hm
  have hin : ∀ k ∈ low, k ∈ clause.walk := by
    intro k hk
    obtain ⟨front, back, rfl⟩ := List.append_of_mem hk
    exact Walk.mem_walk_iff.2 ⟨back, hlow.through.1⟩
  obtain ⟨a, rest, hsplit, hassign, _⟩ :=
    isLeftSide_of_met hbody hapart hunread (Walk.way_iff_root.2 ⟨clause, hchild, hlow⟩)
      (fun k hk => (hplain k (hin k hk)).2) hkind hname
  cases low with
  | nil =>
      rw [hlow.eq_of_nil] at hkind
      exact hclause hkind
  | cons b low =>
      obtain ⟨rfl, _⟩ := List.cons.inj hsplit
      exact (hplain b (hin b List.mem_cons_self)).1 hassign

/-- **No closure in the body captures an unread variable.**  Where the body itself is the closure,
its use clause is part of the scope like any other node. -/
theorem not_captured_of_unread (hbody : body? n = some body) (hapart : StartsApart body)
    (hunread : v ∉ (Usage.of n).used) {k clause : Node} {above : List Node}
    (hk : Within body k above) (hscope : isScope k = true) (hclosure : k.kind ≠ "arrow_function")
    (hclause : clause ∈ k.childrenOf ["anonymous_function_use_clause"])
    (hplain : above = [] → IsPlain clause) : v ∉ variablesIn clause := by
  obtain ⟨hchild, hkind⟩ := List.mem_filter.1 hclause
  have hkind : clause.kind = "anonymous_function_use_clause" := by simpa using hkind
  rcases hk.cases with rfl | ⟨between, rfl, hway, hopen⟩ | ⟨j, hj, harrow, hmem⟩
  · rw [hk.way.eq_of_nil] at hchild
    exact not_named_of_isPlain hbody hapart hunread hchild (by simp [hkind]) (hplain rfl)
  · -- the closure is met, and its use clause is read
    obtain ⟨targets, hread, _⟩ :=
      not_mem_readsAt hbody hunread (mem_walkScope_iff.2 ⟨between, hway, hopen⟩)
    refine fun hv => hread ?_
    rw [readsAt, if_neg (by simpa using hclosure), if_pos hscope]
    exact List.mem_flatMap.2 ⟨clause, hclause, hv⟩
  · -- the closure is below an arrow function that is met
    obtain ⟨targets, hread, _⟩ := not_mem_readsAt hbody hunread hj
    refine fun hv => hread ?_
    obtain ⟨m, hm, hname⟩ := List.mem_map.1 hv
    obtain ⟨hm, hvariable⟩ := List.mem_filter.1 hm
    rw [readsAt, if_pos (by simp [harrow])]
    refine List.mem_map.2 ⟨m, List.mem_filter.2 ⟨?_, hvariable⟩, hname⟩
    exact Walk.mem_walk_trans hmem (Walk.mem_walk_trans (Walk.mem_walk_of_mem_children hchild) hm)

end Unread

end Usage

end PhpAudit.Php

namespace PhpAudit.Quality.UnusedVariable

open Php
open Php.Usage (StartsApart Within IsLeftSide IsPlain)
open Walk (Way)

/-! ### Reports -/

/-- Whether a variable is neither read nor ignored. -/
def isIdle (settings : Dict) (used : List String) (entry : String × Assignment) : Bool :=
  !used.contains entry.1 &&
    (mayIgnore settings entry.1 entry.2.origin).toOption == some false

theorem isIdle_iff {settings : Dict} {used : List String} {v : String} {a : Assignment} :
    isIdle settings used (v, a) = true ↔ v ∉ used ∧ mayIgnore settings v a.origin = .ok false := by
  rw [isIdle, Bool.and_eq_true, Bool.not_eq_true', Bool.eq_false_iff, Ne, List.contains_iff_mem,
    beq_iff_eq]
  refine and_congr_right fun _ => ⟨of_toOption_eq_some, fun h => ?_⟩
  rw [h]
  rfl

/-- The remarks are about the variables that are neither read nor ignored. -/
theorem remarks_eq {settings : Dict} {function : String} {used : List String}
    {assigned : List (String × Assignment)} {drafts : List Rule.Draft}
    (h : remarks settings function used assigned = .ok drafts) :
    drafts = (assigned.filter (isIdle settings used)).map
      fun entry => remark function entry.1 entry.2 := by
  induction assigned generalizing drafts with
  | nil =>
      cases h
      rfl
  | cons entry assigned ih =>
      obtain ⟨name, a⟩ := entry
      rw [remarks] at h
      split at h
      · rename_i hused
        have hpassed : ¬isIdle settings used (name, a) = true := fun hidle =>
          (isIdle_iff.1 hidle).1 (List.contains_iff_mem.1 hused)
        rw [List.filter_cons_of_neg hpassed, ih h]
      · rename_i hunused
        have hunused : name ∉ used := fun hmem => hunused (List.contains_iff_mem.2 hmem)
        obtain ⟨ignored, hignored, h⟩ := of_bind_eq_ok h
        cases ignored with
        | true =>
            have hpassed : ¬isIdle settings used (name, a) = true := by
              rw [isIdle_iff, hignored]
              simp
            rw [List.filter_cons_of_neg hpassed, ih h]
        | false =>
            obtain ⟨rest, hrest, h⟩ := of_bind_eq_ok h
            cases h
            rw [List.filter_cons_of_pos (isIdle_iff.2 ⟨hunused, hignored⟩), List.map_cons, ih hrest]

/-- The variable that a finding of the rule is about. -/
def variableOf (f : Finding) : Option Value :=
  Assoc.get? f.metadata "variable"

/-- The findings are about the variables that are assigned, but neither read nor ignored. -/
theorem mem_findings {settings : Dict} {n : Node} {site : Rule.Site} {found : List Finding}
    (h : rule.check settings n site = .ok found) :
    (∀ f ∈ found, ∃ v a, variableOf f = some (.str v) ∧ (v, a) ∈ (Usage.of n).assigned ∧
      v ∉ (Usage.of n).used ∧ mayIgnore settings v a.origin = .ok false) ∧
    ∀ v a, (v, a) ∈ (Usage.of n).assigned → v ∉ (Usage.of n).used →
      mayIgnore settings v a.origin = .ok false → ∃ f ∈ found, variableOf f = some (.str v) := by
  obtain ⟨drafts, hdrafts, hfound⟩ := of_bind_eq_ok h
  have hremarks := remarks_eq (of_mapError_eq_ok hdrafts)
  obtain ⟨hforth, hback⟩ := mem_of_mapM_ok hfound
  -- a finding takes the facts of its draft over
  have hfacts : ∀ {d f}, (rule.profile.finding d n site).mapError Rule.Fault.finding = .ok f →
      f.metadata = d.metadata := by
    intro d f hf
    obtain ⟨severity, _, hf⟩ := of_bind_eq_ok (of_mapError_eq_ok hf)
    obtain ⟨category, _, hf⟩ := of_bind_eq_ok hf
    cases hf
    rfl
  constructor
  · intro f hf
    obtain ⟨d, hd, hfinding⟩ := hback f hf
    rw [hremarks] at hd
    obtain ⟨⟨v, a⟩, hentry, rfl⟩ := List.mem_map.1 hd
    obtain ⟨hmem, hidle⟩ := List.mem_filter.1 hentry
    refine ⟨v, a, ?_, hmem, isIdle_iff.1 hidle⟩
    rw [variableOf, hfacts hfinding]
    rfl
  · intro v a hmem hunread hkept
    have hentry : (v, a) ∈ (Usage.of n).assigned.filter (isIdle settings (Usage.of n).used) :=
      List.mem_filter.2 ⟨hmem, isIdle_iff.2 ⟨hunread, hkept⟩⟩
    obtain ⟨f, hf, hfinding⟩ := hforth _ (hremarks ▸ List.mem_map_of_mem hentry)
    refine ⟨f, hf, ?_⟩
    rw [variableOf, hfacts hfinding]
    rfl

/-- **What is known of a variable that is reported.**  Every finding is about a variable.  If no two
variables of the function's body begin at the same place, each mention of this one in the body, also
in an arrow function there, is the left side of an assignment, or it is the body itself; and no
closure in the body captures it, where a use clause holds neither assignments nor functions.
Conversely every variable that is assigned, but neither read nor ignored, is reported. -/
theorem reported_variables_are_unread {settings : Dict} {n : Node} {site : Rule.Site}
    {found : List Finding} (h : rule.check settings n site = .ok found) :
    (∀ f ∈ found, ∃ v, variableOf f = some (.str v) ∧
      ∀ body, body? n = some body → StartsApart body →
        (∀ m above, Within body m above → m.kind = "variable_name" → variableName m = v →
          above = [] ∨ IsLeftSide m above) ∧
        ∀ k above clause, Within body k above → isScope k = true → k.kind ≠ "arrow_function" →
          clause ∈ k.childrenOf ["anonymous_function_use_clause"] → (above = [] → IsPlain clause) →
            v ∉ Usage.variablesIn clause) ∧
    ∀ v a, (v, a) ∈ (Usage.of n).assigned → v ∉ (Usage.of n).used →
      mayIgnore settings v a.origin = .ok false → ∃ f ∈ found, variableOf f = some (.str v) := by
  obtain ⟨hsound, hcomplete⟩ := mem_findings h
  refine ⟨fun f hf => ?_, hcomplete⟩
  obtain ⟨v, a, hv, _, hunread, _⟩ := hsound f hf
  refine ⟨v, hv, fun body hbody hapart => ⟨?_, ?_⟩⟩
  · intro m above hm hkind hname
    exact Usage.left_side_of_unread hbody hapart hunread hm hkind hname
  · intro k above clause hk hscope hclosure hclause hplain
    exact Usage.not_captured_of_unread hbody hapart hunread hk hscope hclosure hclause hplain

/-! ### A function and an arrow function -/

/-- A variable on the second line. -/
def variableAt (start : Int) (text : String) (field : Option String := none) : Node :=
  { kind := "variable_name"
    span := { startLine := 2, startByte := start }
    field
    text }

/-- The list of one parameter. -/
def parameterAt (start : Int) (text : String) : Node :=
  { kind := "formal_parameters"
    span := { startLine := 2 }
    field := some "parameters"
    children := [{ kind := "simple_parameter", span := { startLine := 2 },
                   children := [variableAt start text (some "name")] }] }

/-- An assignment to a variable. -/
def assignmentAt (start : Int) (text : String) (value : Node) : Node :=
  { kind := "assignment_expression"
    span := { startLine := 2 }
    children := [variableAt start text (some "left"), value] }

/-- The closure `function () use ($a) { return $log; }`. -/
def capturing : Node :=
  { kind := "anonymous_function"
    span := { startLine := 2 }
    field := some "right"
    children :=
      [{ kind := "anonymous_function_use_clause", span := { startLine := 2 },
         children := [variableAt 54 "$a"] },
       { kind := "compound_statement", span := { startLine := 2 }, field := some "body",
         children := [variableAt 67 "$log"] }] }

/-- The body `{ $log = 1; $f = function () use ($a) { return $log; }; return $f; }`. -/
def capturingBody : Node :=
  { kind := "compound_statement"
    span := { startLine := 2 }
    field := some "body"
    children :=
      [assignmentAt 21 "$log" { kind := "integer", span := { startLine := 2 }, text := "1" },
       assignmentAt 31 "$f" capturing, variableAt 83 "$f"] }

/-- The function `function run($a)` with that body. -/
def outerFunction : Node :=
  { kind := "function_definition"
    span := { startLine := 2 }
    children := [parameterAt 13 "$a", capturingBody] }

/-- A place in a file. -/
def siteOf (n : Node) : Rule.Site where
  file :=
    { path := "src/app.php", content := "", digest := ""
      tree := { root := n, nodeCount := n.size } }
  trail := {}

/-- The variables of a body begin at different places, if the places are listed without
repetition. -/
theorem startsApart_of_nodup {body : Node}
    (h : (((Walk.placesIn [] [body]).filter fun p => p.node.kind == "variable_name").map
      fun p => p.node.span.startByte).Nodup) : StartsApart body := by
  intro m m' above above' hm hm' hkind hkind' hsame
  have hlisted : ∀ {k : Node} {high : List Node}, Way [body] k high → k.kind = "variable_name" →
      ⟨k, high⟩ ∈ (Walk.placesIn [] [body]).filter fun p => p.node.kind == "variable_name" :=
    fun hk hkind => List.mem_filter.2 ⟨Walk.mem_placesIn_iff.2 hk, beq_iff_eq.2 hkind⟩
  obtain ⟨i, hi, hmi⟩ := List.mem_iff_getElem.1 (hlisted hm hkind)
  obtain ⟨j, hj, hmj⟩ := List.mem_iff_getElem.1 (hlisted hm' hkind')
  have hij : i = j :=
    (@List.getElem_inj _ i j _ (by simpa using hi) (by simpa using hj) h).1
      (by simp [hmi, hmj, hsame])
  subst hij
  exact Walk.Place.mk.inj (hmi.symm.trans hmj)

/-- The function reads `$log` in the closure only, which has variables of its own: it is
reported. -/
theorem shadowed_variable_is_reported :
    body? outerFunction = some capturingBody ∧ StartsApart capturingBody ∧
    ∃ found, rule.check rule.settings outerFunction (siteOf outerFunction) = .ok found ∧
      ∃ f ∈ found, variableOf f = some (.str "log") ∧
        (∀ m above, Within capturingBody m above → m.kind = "variable_name" →
          variableName m = "log" → above = [] ∨ IsLeftSide m above) := by
  have hapart : StartsApart capturingBody := startsApart_of_nodup (by decide +kernel)
  have hok :
      (rule.check rule.settings outerFunction (siteOf outerFunction)).toOption.isSome = true := by
    decide +kernel
  obtain ⟨found, hsome⟩ := Option.isSome_iff_exists.1 hok
  have hfound := of_toOption_eq_some hsome
  obtain ⟨hsound, hcomplete⟩ := reported_variables_are_unread hfound
  obtain ⟨f, hf, hv⟩ := hcomplete "log" ⟨2, .assignment⟩ (by decide +kernel) (by decide +kernel)
    (of_toOption_eq_some (by decide +kernel))
  obtain ⟨v, hv', hunread⟩ := hsound f hf
  rw [hv] at hv'
  cases hv'
  exact ⟨rfl, hapart, found, hfound, f, hf, hv, (hunread capturingBody rfl hapart).1⟩

/-- The body of `fn($x) => $x`. -/
def bareBody : Node :=
  variableAt 15 "$x" (some "body")

/-- The arrow function `fn($x) => $x`. -/
def identityFunction : Node :=
  { kind := "arrow_function"
    span := { startLine := 2 }
    children := [parameterAt 8 "$x", bareBody] }

/-- **The arrow function reads its parameter, and the parameter is reported**: the one mention in
the body is not the left side of an assignment, as there is nothing above it. -/
theorem arrow_body_is_overlooked :
    body? identityFunction = some bareBody ∧ StartsApart bareBody ∧
    Within bareBody bareBody [] ∧ bareBody.kind = "variable_name" ∧ variableName bareBody = "x" ∧
    ¬IsLeftSide bareBody [] ∧
    ∃ found, rule.check rule.settings identityFunction (siteOf identityFunction) = .ok found ∧
      ∃ f ∈ found, variableOf f = some (.str "x") := by
  have hok : (rule.check rule.settings identityFunction
      (siteOf identityFunction)).toOption.isSome = true := by
    decide +kernel
  obtain ⟨found, hsome⟩ := Option.isSome_iff_exists.1 hok
  have hfound := of_toOption_eq_some hsome
  refine ⟨rfl, startsApart_of_nodup (by decide +kernel), ⟨.root List.mem_cons_self, nofun⟩, rfl,
    by decide +kernel, ?_, found, hfound, ?_⟩
  · rintro ⟨a, rest, hnil, _⟩
    cases hnil
  · exact (mem_findings hfound).2 "x" ⟨2, .parameter⟩ (by decide +kernel) (by decide +kernel)
      (of_toOption_eq_some (by decide +kernel))

end PhpAudit.Quality.UnusedVariable
