/-
**Comments in queries and in paths.**

Comments can stand between any nodes of a tree, and have nothing to do with what an expression does.
Whether a query is suspect and whether a path is fixed in the source should not depend on them.  The
operands of a concatenation and the arguments of a call are found without comments; but the first
node in parentheses is taken for the expression in them, the first node of a call without fields for
what it calls, and all nodes of a concatenation for parts of a path.  Where none of these is a
comment, the verdicts are the same with comments and without them.

Main definitions:

* `Php.Commented` — comments are put into an expression, anywhere below it;
* `Php.Misread` — a comment is taken for an expression, or for what it calls;
* `Security.Inclusion.Met` — what is looked at to tell whether a path is fixed.

Main results:

* `Php.Commented.unwrap` — parentheses with comments in them;
* `Php.Commented.arguments` — arguments with comments between them;
* `Php.Commented.legible_parts` — **operands with comments between them**;
* `Security.Sql.assess_eq`, `Security.Sql.hasRisk_of_misread` — queries with comments in them;
* `Security.Inclusion.isStaticPath_iff_of_commented` — paths with comments in them;
* `Security.verdicts_with_comments` — **what comments do to verdicts**;
* `Security.comments_change_verdicts` — a path and a query whose verdicts change.
-/

import Mathlib.Data.List.Forall2
import PhpAudit.Proofs.Php.Concatenation
import PhpAudit.Security.Inclusion
import PhpAudit.Security.Sql

set_option autoImplicit false

namespace PhpAudit.Php

/-! ### Trees with more comments -/

/-- A comment as it stands in a tree: under no field, and with nothing below it. -/
structure IsComment (c : Node) : Prop where
  kind : c.kind = "comment"
  field : c.field = none
  children : c.children = []

/-- Kinds of nodes whose texts are read. -/
def textKinds : List String :=
  ["variable_name", "name", "qualified_name", "encapsed_string", "heredoc", "nowdoc", "string",
   "string_content", "string_value", "heredoc_body", "nowdoc_body"]

/-- Nodes that differ in their places and their children at most, and in their texts if those are
not read: the text of an expression around a comment has the comment in it. -/
structure Alike (x y : Node) : Prop where
  kind : y.kind = x.kind
  field : y.field = x.field
  marks : y.marks = x.marks
  text : x.kind ∈ textKinds → y.text = x.text

/-- Comments are put between nodes, and between the nodes below them. -/
inductive Interspersed : List Node → List Node → Prop
  | nil : Interspersed [] []
  | comment {c : Node} {ns ns' : List Node} (hc : IsComment c) (h : Interspersed ns ns') :
      Interspersed ns (c :: ns')
  | node {x y : Node} {ns ns' : List Node} (halike : Alike x y)
      (hbelow : Interspersed x.children y.children) (h : Interspersed ns ns') :
      Interspersed (x :: ns) (y :: ns')

/-- Comments are put into an expression, anywhere below it. -/
structure Commented (x y : Node) : Prop where
  alike : Alike x y
  below : Interspersed x.children y.children

theorem optionRel_or {α : Type} {R : α → α → Prop} {a b c d : Option α} (h : Option.Rel R a b)
    (h' : Option.Rel R c d) : Option.Rel R (a.or c) (b.or d) := by
  cases h with
  | none => exact h'
  | some h => exact .some h

theorem optionRel_cases {α : Type} {R : α → α → Prop} {a b : Option α} (h : Option.Rel R a b) :
    a = none ∧ b = none ∨ ∃ x y, a = some x ∧ b = some y ∧ R x y := by
  cases h with
  | none => exact .inl ⟨rfl, rfl⟩
  | some h => exact .inr ⟨_, _, rfl, rfl, h⟩

theorem optionRel_head? {α : Type} {R : α → α → Prop} {as bs : List α} (h : List.Forall₂ R as bs) :
    Option.Rel R as.head? bs.head? := by
  cases h with
  | nil => exact .none
  | cons h _ => exact .some h

namespace Interspersed

variable {ns ns' : List Node}

/-- What is taken from the nodes one by one, but not from comments, corresponds. -/
theorem forall₂_filterMap {β : Type} {R : β → β → Prop} {f : Node → Option β}
    (h : Interspersed ns ns') (hcomment : ∀ c, IsComment c → f c = none)
    (hnode : ∀ x y, Commented x y → Option.Rel R (f x) (f y)) :
    List.Forall₂ R (ns.filterMap f) (ns'.filterMap f) := by
  induction h with
  | nil => exact .nil
  | comment hc _ ih => rwa [List.filterMap_cons_none (hcomment _ hc)]
  | @node x y _ _ halike hbelow _ _ ih =>
      have hrel := hnode x y ⟨halike, hbelow⟩
      rw [List.filterMap_cons, List.filterMap_cons]
      rcases optionRel_cases hrel with ⟨hx, hy⟩ | ⟨a, b, hx, hy, hab⟩
      · rwa [hx, hy]
      · rw [hx, hy]
        exact .cons hab ih

theorem forall₂_filter {p : Node → Bool} (h : Interspersed ns ns')
    (hcomment : ∀ c, IsComment c → p c = false) (hnode : ∀ x y, Alike x y → p y = p x) :
    List.Forall₂ Commented (ns.filter p) (ns'.filter p) := by
  rw [← List.filterMap_eq_filter]
  refine h.forall₂_filterMap (fun c hc => by simp [Option.guard, hcomment c hc]) ?_
  intro x y hxy
  simp only [Option.guard, hnode x y hxy.alike]
  split
  · exact .some hxy
  · exact .none

theorem find? {p : Node → Bool} (h : Interspersed ns ns')
    (hcomment : ∀ c, IsComment c → p c = false) (hnode : ∀ x y, Alike x y → p y = p x) :
    Option.Rel Commented (ns.find? p) (ns'.find? p) := by
  rw [← List.head?_filter, ← List.head?_filter]
  exact optionRel_head? (h.forall₂_filter hcomment hnode)

/-- A test that no comment passes is passed by some node in both trees or in none. -/
theorem any_preorderList {p : Node → Bool} (h : Interspersed ns ns')
    (hcomment : ∀ c, IsComment c → p c = false) (hnode : ∀ x y, Alike x y → p y = p x) :
    (Node.preorderList ns').any p = (Node.preorderList ns).any p := by
  induction h with
  | nil => rfl
  | comment hc _ ih =>
      rw [Node.preorderList, Walk.preorder_eq, hc.children, List.any_append, ih]
      simp [Node.preorderList, hcomment _ hc]
  | node halike _ _ ihbelow ih =>
      simp only [Node.preorderList, Walk.preorder_eq, List.any_append, List.any_cons, ih, ihbelow,
        hnode _ _ halike]

theorem head? (h : Interspersed ns ns') :
    (∃ c, ns'.head? = some c ∧ IsComment c) ∨ Option.Rel Commented ns.head? ns'.head? := by
  cases h with
  | nil => exact .inr .none
  | comment hc _ => exact .inl ⟨_, rfl, hc⟩
  | node halike hbelow _ => exact .inr (.some ⟨halike, hbelow⟩)

theorem of_forall₂ (h : List.Forall₂ Commented ns ns') : Interspersed ns ns' := by
  induction h with
  | nil => exact .nil
  | cons hxy _ ih => exact .node hxy.alike hxy.below ih

theorem exists_of_mem_left {x : Node} (h : Interspersed ns ns') (hx : x ∈ ns) :
    ∃ y ∈ ns', Commented x y := by
  induction h with
  | nil => exact absurd hx List.not_mem_nil
  | comment _ _ ih =>
      obtain ⟨y, hy, hxy⟩ := ih hx
      exact ⟨y, List.mem_cons_of_mem _ hy, hxy⟩
  | @node x' y _ _ halike hbelow _ _ ih =>
      rcases List.mem_cons.1 hx with rfl | hx
      · exact ⟨y, List.mem_cons_self, halike, hbelow⟩
      · obtain ⟨y, hy, hxy⟩ := ih hx
        exact ⟨y, List.mem_cons_of_mem _ hy, hxy⟩

theorem exists_of_mem_right {y : Node} (h : Interspersed ns ns') (hy : y ∈ ns') :
    IsComment y ∨ ∃ x ∈ ns, Commented x y := by
  induction h with
  | nil => exact absurd hy List.not_mem_nil
  | comment hc _ ih =>
      rcases List.mem_cons.1 hy with rfl | hy
      · exact .inl hc
      · exact ih hy
  | @node x _ _ _ halike hbelow _ _ ih =>
      rcases List.mem_cons.1 hy with rfl | hy
      · exact .inr ⟨x, List.mem_cons_self, halike, hbelow⟩
      · exact (ih hy).imp_right fun ⟨x, hx, hxy⟩ => ⟨x, List.mem_cons_of_mem _ hx, hxy⟩

end Interspersed

theorem Alike.refl (x : Node) : Alike x x :=
  ⟨rfl, rfl, rfl, fun _ => rfl⟩

/-- No comments need to be put in. -/
theorem Interspersed.refl (ns : List Node) : Interspersed ns ns :=
  (Node.forest_induction (P := fun n => Interspersed n.children n.children)
    (Q := fun ns => Interspersed ns ns) (fun _ ih => ih) .nil
    fun n _ ihn ihns => .node (.refl n) ihn ihns).2 ns

namespace Commented

variable {x y : Node}

/-! ### Children, arguments and texts -/

theorem childByField? (h : Commented x y) (name : String) :
    Option.Rel Commented (x.childByField? name) (y.childByField? name) :=
  h.below.find? (fun c hc => by simp [hc.field]) fun _ _ halike => by rw [halike.field]

theorem firstChildOf? (h : Commented x y) (kinds : List String) (hkinds : "comment" ∉ kinds) :
    Option.Rel Commented (x.firstChildOf? kinds) (y.firstChildOf? kinds) :=
  h.below.find? (fun c hc => by simp [hc.kind, hkinds]) fun _ _ halike => by rw [halike.kind]

theorem walk_any (h : Commented x y) {p : Node → Bool}
    (hcomment : ∀ c, IsComment c → p c = false) (hnode : ∀ x y, Alike x y → p y = p x) :
    y.walk.any p = x.walk.any p := by
  have hforest : Interspersed [x] [y] := .node h.alike h.below .nil
  rw [Node.walk, Node.walk, Walk.walkStack_eq, Walk.walkStack_eq]
  exact hforest.any_preorderList hcomment hnode

theorem argumentValue? (h : Commented x y) :
    Option.Rel Commented (Php.argumentValue? x) (Php.argumentValue? y) := by
  unfold Php.argumentValue?
  rw [h.alike.kind]
  split
  · have hvalues := h.below.forall₂_filter
      (p := fun c => c.field != some "name" && c.kind != "comment")
      (fun c hc => by simp [hc.kind]) fun _ _ halike => by rw [halike.field, halike.kind]
    rw [← List.head?_reverse, ← List.head?_reverse]
    exact optionRel_head? (List.forall₂_reverse_iff.2 hvalues)
  · split
    · exact .none
    · exact .some h

/-- The arguments of a call correspond. -/
theorem arguments (h : Commented x y) : Interspersed (Php.arguments x) (Php.arguments y) := by
  have hlist := optionRel_or (h.childByField? "arguments")
    (h.firstChildOf? ["arguments"] (by decide))
  rw [Php.arguments, Php.arguments]
  rcases optionRel_cases hlist with ⟨hx, hy⟩ | ⟨a, b, hx, hy, hab⟩
  · rw [hx, hy]
    exact .nil
  · rw [hx, hy]
    refine .of_forall₂ (hab.below.forall₂_filterMap (fun c hc => ?_) fun _ _ hxy => ?_)
    · simp [Php.argumentValue?, hc.kind]
    · exact hxy.argumentValue?

/-- The texts of the children of some kinds are the same. -/
theorem map_text_childrenOf (h : Commented x y) (kinds : List String) (hcomment : "comment" ∉ kinds)
    (hkinds : ∀ kind ∈ kinds, kind ∈ textKinds) :
    (y.childrenOf kinds).map Node.text = (x.childrenOf kinds).map Node.text := by
  rw [Node.childrenOf, Node.childrenOf, ← List.filterMap_eq_filter, List.map_filterMap,
    List.map_filterMap]
  have htexts := h.below.forall₂_filterMap (R := Eq)
    (f := fun c => (Option.guard (fun c : Node => kinds.contains c.kind) c).map Node.text)
    (fun c hc => by simp [Option.guard, hc.kind, hcomment]) ?_
  · rw [List.forall₂_eq_eq_eq] at htexts
    exact htexts.symm
  · intro a b hab
    simp only [Option.guard, hab.alike.kind]
    split
    · rename_i hkind
      exact .some (hab.alike.text (hkinds _ (List.contains_iff_mem.1 hkind))).symm
    · exact .none

/-! ### Shapes -/

/-- Comments may hide an expression in parentheses; otherwise the expressions in the parentheses
correspond. -/
theorem unwrap (h : Commented x y) :
    (Php.unwrap y).kind = "comment" ∨ Commented (Php.unwrap x) (Php.unwrap y) := by
  induction x using Node.induction generalizing y with
  | step x ih =>
      by_cases hkind : x.kind = "parenthesized_expression"
      · have hbracket : ∀ {n first : Node} {rest : List Node}, n.kind = "parenthesized_expression" →
            n.children = first :: rest → Php.unwrap n = Php.unwrap first := by
          intro n first rest hkind hchildren
          exact unwrap_of_isBracket (by simp [isBracket, hkind, hchildren]) hchildren
        have hkind' := h.alike.kind.trans hkind
        have hbelow := h.below
        generalize hxs : x.children = xs at hbelow
        generalize hys : y.children = ys at hbelow
        -- the first node in the parentheses decides
        cases hbelow with
        | nil =>
            have hx : Php.unwrap x = x := unwrap_of_not_isBracket (by simp [isBracket, hxs])
            have hy : Php.unwrap y = y := unwrap_of_not_isBracket (by simp [isBracket, hys])
            exact .inr (by rwa [hx, hy])
        | comment hc _ =>
            left
            rw [hbracket hkind' hys, unwrap_of_not_isBracket (by simp [isBracket, hc.kind])]
            exact hc.kind
        | @node a b _ _ halike hfirst _ =>
            rw [hbracket hkind hxs, hbracket hkind' hys]
            exact ih a (by rw [hxs]; exact List.mem_cons_self) ⟨halike, hfirst⟩
      · have hx : Php.unwrap x = x := unwrap_of_not_isBracket (by simp [isBracket, hkind])
        have hy : Php.unwrap y = y :=
          unwrap_of_not_isBracket (by simp [isBracket, h.alike.kind, hkind])
        exact .inr (by rwa [hx, hy])

section Shapes

variable (h : Commented (Php.unwrap x) (Php.unwrap y))

include h

theorem isConcatenation_eq : isConcatenation y = isConcatenation x := by
  rw [Php.isConcatenation_eq, Php.isConcatenation_eq, isJoin, isJoin, h.alike.kind, Node.mark?,
    Node.mark?, h.alike.marks]

theorem isVariable_eq : isVariable y = isVariable x := by
  rw [isVariable, isVariable, h.alike.kind]

theorem stringContent_eq : stringContent y = stringContent x := by
  have htexts := h.map_text_childrenOf
    ["string_content", "string_value", "heredoc_body", "nowdoc_body"] (by decide) (by decide)
  have hsame : isString (Php.unwrap y) = isString (Php.unwrap x) := by
    rw [isString, isString, h.alike.kind]
  unfold stringContent
  dsimp only
  rw [hsame, isString]
  by_cases hstring : stringKinds.contains (Php.unwrap x).kind = true
  · have hread : ∀ kind ∈ stringKinds, kind ∈ textKinds := by decide
    rw [h.alike.text (hread _ (List.contains_iff_mem.1 hstring))]
    revert htexts
    cases (Php.unwrap y).childrenOf _ <;> cases (Php.unwrap x).childrenOf _ <;> intro htexts
    · rfl
    · cases htexts
    · cases htexts
    · dsimp only
      rw [htexts]
  · rw [Bool.eq_false_iff.2 hstring]
    rfl

theorem hasInterpolation_eq : hasInterpolation y = hasInterpolation x := by
  have hcontent : stringContent (Php.unwrap y) = stringContent (Php.unwrap x) := by
    apply stringContent_eq
    rwa [unwrap_unwrap, unwrap_unwrap]
  rw [hasInterpolation, hasInterpolation, h.alike.kind, hcontent, Walk.walkStack_eq,
    Walk.walkStack_eq, h.below.any_preorderList]
  · intro c hc
    simp [hc.kind]
  · intro a b hab
    rw [hab.kind]

theorem isLiteral_eq : isLiteral y = isLiteral x := by
  rw [isLiteral, isLiteral, h.alike.kind, hasInterpolation_unwrap, hasInterpolation_unwrap,
    h.hasInterpolation_eq]

theorem readsRequest_eq : readsRequest (Php.unwrap y) = readsRequest (Php.unwrap x) := by
  refine h.walk_any (fun c hc => by simp [isRequestVariable, hc.kind]) fun a b hab => ?_
  rw [isRequestVariable, isRequestVariable, hab.kind]
  by_cases hkind : a.kind = "variable_name"
  · rw [hab.text (by rw [hkind]; decide)]
  · rw [beq_false_of_ne hkind, Bool.false_and, Bool.false_and]

/-! ### Calls -/

theorem isCall_eq : isCall (Php.unwrap y) = isCall (Php.unwrap x) := by
  rw [isCall, isCall, h.alike.kind]

theorem isFunctionCall_eq : isFunctionCall (Php.unwrap y) = isFunctionCall (Php.unwrap x) := by
  rw [isFunctionCall, isFunctionCall, h.alike.kind]

end Shapes

end Commented

/-- What is taken for an expression is a comment, or what is taken for the function that it calls is
one. -/
def Misread (n : Node) : Prop :=
  n.kind = "comment" ∨ isFunctionCall n = true ∧
    ((n.childByField? "function").or n.children.head?).any (fun c => c.kind == "comment") = true

instance (n : Node) : Decidable (Misread n) :=
  inferInstanceAs (Decidable (_ ∨ _))

theorem IsComment.misread {c : Node} (h : IsComment c) : Misread (unwrap c) := by
  rw [unwrap_of_not_isBracket (by simp [isBracket, h.kind])]
  exact .inl h.kind

theorem Misread.kind {n : Node} (h : Misread n) :
    n.kind = "comment" ∨ n.kind = "function_call_expression" :=
  h.imp id fun hcall => eq_of_beq hcall.1

/-- A call of a comment has no name. -/
theorem callName_of_misread {n : Node} (h : Misread n) (hcall : isFunctionCall n = true) :
    callName n = "" := by
  rcases h with hkind | ⟨_, hcallee⟩
  · rw [isFunctionCall, hkind] at hcall
    cases hcall
  · obtain ⟨c, hc, hkind⟩ := (Option.any_eq_true _ _).1 hcallee
    rw [callName, if_pos hcall, functionCallName, hc]
    simp [eq_of_beq hkind]

namespace Commented

variable {x y : Node}

/-- What is called corresponds. -/
theorem callee? (h : Commented x y) (hcall : isFunctionCall y = true) (hread : ¬Misread y) :
    Option.Rel Commented ((x.childByField? "function").or x.children.head?)
      ((y.childByField? "function").or y.children.head?) := by
  rcases optionRel_cases (h.childByField? "function") with ⟨hx, hy⟩ | ⟨a, b, hx, hy, hab⟩
  · rcases h.below.head? with ⟨c, hhead, hc⟩ | hhead
    · refine absurd (.inr ⟨hcall, ?_⟩) hread
      simp [hy, hhead, hc.kind]
    · rwa [hx, hy, Option.none_or, Option.none_or]
  · rw [hx, hy]
    exact .some hab

theorem functionCallName_eq (h : Commented x y) (hcall : isFunctionCall y = true)
    (hread : ¬Misread y) : functionCallName y = functionCallName x := by
  rw [functionCallName, functionCallName]
  rcases optionRel_cases (h.callee? hcall hread) with ⟨hx, hy⟩ | ⟨a, b, hx, hy, hab⟩
  · rw [hx, hy]
  · simp only [hx, hy, hab.alike.kind]
    split
    · rename_i hkind
      have htexts : ∀ kind ∈ ["name", "qualified_name"], kind ∈ textKinds := by decide
      rw [hab.alike.text (htexts _ (List.contains_iff_mem.1 hkind))]
    · rfl

/-- The text of a class may hold comments, but no plain name is that of a static call. -/
theorem contains_methodCallName_eq (h : Commented x y) {names : List String}
    (hplain : ∀ name ∈ names, ':' ∉ name.toList) :
    names.contains (methodCallName y) = names.contains (methodCallName x) := by
  have hstatic : ∀ scope name : String, names.contains (scope ++ "::" ++ name) = false := by
    intro scope name
    refine Bool.eq_false_iff.2 fun hmem => hplain _ (List.contains_iff_mem.1 hmem) ?_
    simp
  unfold methodCallName
  rcases optionRel_cases (h.childByField? "name") with ⟨hx, hy⟩ | ⟨a, b, hx, hy, hab⟩
  · rw [hx, hy]
  · simp only [hx, hy, hab.alike.kind, h.alike.kind]
    by_cases hkind : a.kind = "name"
    · rw [hab.alike.text (by rw [hkind]; decide)]
      split
      · rfl
      · split
        · rw [hstatic, hstatic]
        · rfl
    · rw [if_pos (by simpa using hkind), if_pos (by simpa using hkind)]

/-- A call that is not misread has one of some plain names with comments if it has without them. -/
theorem contains_callName_eq (h : Commented x y) (hread : ¬Misread y) {names : List String}
    (hplain : ∀ name ∈ names, ':' ∉ name.toList) :
    names.contains (callName y) = names.contains (callName x) := by
  have hsame : isFunctionCall y = isFunctionCall x := by
    rw [isFunctionCall, isFunctionCall, h.alike.kind]
  rw [callName, callName, ← hsame]
  split
  · rename_i hcall
    rw [h.functionCallName_eq hcall hread]
  · exact h.contains_methodCallName_eq hplain

end Commented

/-! ### Operands -/

/-- The expressions in the parentheses correspond, and the one with comments is not misread. -/
structure Legible (x y : Node) : Prop where
  inner : Commented (unwrap x) (unwrap y)
  read : ¬Misread (unwrap y)

namespace Legible

variable {x y : Node}

theorem unwrap (h : Legible x y) : Legible (Php.unwrap x) (Php.unwrap y) where
  inner := by
    rw [unwrap_unwrap, unwrap_unwrap]
    exact h.inner
  read := by
    rw [unwrap_unwrap]
    exact h.read

theorem isCallOf_eq (h : Legible x y) {names : List String}
    (hplain : ∀ name ∈ names, ':' ∉ name.toList) : isCallOf names y = isCallOf names x := by
  rw [isCallOf, isCallOf, h.inner.isCall_eq, h.inner.contains_callName_eq h.read hplain]

end Legible

theorem forall₂_flatMap {α β : Type} {R : α → α → Prop} {S : β → β → Prop} {f : α → List β}
    {as bs : List α} (h : List.Forall₂ R as bs)
    (hf : ∀ a ∈ as, ∀ b ∈ bs, R a b → List.Forall₂ S (f a) (f b)) :
    List.Forall₂ S (as.flatMap f) (bs.flatMap f) := by
  induction h with
  | nil => exact .nil
  | @cons a b _ _ hab _ ih =>
      rw [List.flatMap_cons, List.flatMap_cons]
      refine List.rel_append (hf a List.mem_cons_self b List.mem_cons_self hab) (ih ?_)
      exact fun a ha b hb => hf a (List.mem_cons_of_mem _ ha) b (List.mem_cons_of_mem _ hb)

theorem size_induction {P : Node → Prop} (step : ∀ n, (∀ m, m.size < n.size → P m) → P n)
    (n : Node) : P n :=
  (measure Node.size).wf.induction n step

theorem size_lt_of_mem_children_unwrap {n m : Node} (h : m ∈ (unwrap n).children) :
    m.size < n.size := by
  exact Nat.lt_of_lt_of_le (Node.size_lt_of_mem_children h) (size_unwrap_le n)

namespace Commented

variable {x y : Node}

/-- An expression is legible if none of its operands is misread. -/
theorem legible (h : Commented x y) (hread : ∀ p ∈ concatenationParts y, ¬Misread p) :
    Legible x y := by
  by_cases hjoined : Php.isConcatenation y = true
  · have hkind : (Php.unwrap y).kind = "binary_expression" :=
      eq_of_beq (Bool.and_eq_true _ _ ▸ hjoined).1
    refine ⟨h.unwrap.resolve_left (by simp [hkind]), ?_⟩
    simp [Misread, isFunctionCall, hkind]
  · rw [concatenationParts_of_not_isConcatenation (Bool.eq_false_iff.2 hjoined)] at hread
    have hself := hread _ List.mem_cons_self
    exact ⟨h.unwrap.resolve_left fun hkind => hself (.inl hkind), hself⟩

/-- **The operands correspond**, if none of them is misread. -/
theorem legible_parts (h : Commented x y) (hread : ∀ p ∈ concatenationParts y, ¬Misread p) :
    List.Forall₂ Legible (concatenationParts x) (concatenationParts y) := by
  -- by size, as the operands may stand deep inside parentheses around the concatenation
  induction x using size_induction generalizing y with
  | step x ih =>
      have hlegible := h.legible hread
      have hsame := hlegible.inner.isConcatenation_eq
      cases hjoined : Php.isConcatenation x with
      | false =>
          rw [concatenationParts_of_not_isConcatenation hjoined,
            concatenationParts_of_not_isConcatenation (hsame.trans hjoined)]
          exact .cons hlegible.unwrap .nil
      | true =>
          have hjoined' := hsame.trans hjoined
          rw [Php.isConcatenation_eq] at hjoined hjoined'
          rw [← concatenationParts_unwrap x, ← concatenationParts_unwrap y,
            concatenationParts_of_isJoin hjoined, concatenationParts_of_isJoin hjoined']
          have hoperands := hlegible.inner.below.forall₂_filter
            (p := fun m => m.kind != "comment") (fun c hc => by simp [hc.kind])
            fun _ _ halike => by rw [halike.kind]
          refine forall₂_flatMap hoperands fun a ha b hb hab => ?_
          refine ih a (size_lt_of_mem_children_unwrap (List.mem_filter.1 ha).1) hab fun p hp => ?_
          refine hread p ?_
          rw [← concatenationParts_unwrap, concatenationParts_of_isJoin hjoined']
          exact List.mem_flatMap.2 ⟨b, hb, hp⟩

end Commented

end PhpAudit.Php

namespace PhpAudit.Security

open Php

/-! ### Queries -/

theorem any_all_eq_of_forall₂ {α : Type} {R : α → α → Prop} {p : α → Bool} {as bs : List α}
    (h : List.Forall₂ R as bs) (hp : ∀ a ∈ as, ∀ b ∈ bs, R a b → p b = p a) :
    bs.any p = as.any p ∧ bs.all p = as.all p := by
  induction h with
  | nil => exact ⟨rfl, rfl⟩
  | @cons a b _ _ hab _ ih =>
      have hfirst := hp a List.mem_cons_self b List.mem_cons_self hab
      have hrest := ih fun a ha b hb =>
        hp a (List.mem_cons_of_mem _ ha) b (List.mem_cons_of_mem _ hb)
      rw [List.any_cons, List.any_cons, List.all_cons, List.all_cons, hfirst, hrest.1, hrest.2]
      exact ⟨rfl, rfl⟩

theorem allSanitized_eq {x y : Node} (h : List.Forall₂ Legible (concatenationParts x)
    (concatenationParts y)) {sanitizers : List String}
    (hplain : ∀ name ∈ sanitizers, ':' ∉ name.toList) :
    allSanitized sanitizers y = allSanitized sanitizers x := by
  have hdynamic : List.Forall₂ Legible (dynamicParts x) (dynamicParts y) :=
    List.rel_filter (fun a b hab => by simp [hab.inner.isLiteral_eq]) h
  have hempty : (dynamicParts y).isEmpty = (dynamicParts x).isEmpty := by
    rw [Bool.eq_iff_iff, List.isEmpty_iff_length_eq_zero, List.isEmpty_iff_length_eq_zero,
      hdynamic.length_eq]
  rw [allSanitized, allSanitized, hempty,
    (any_all_eq_of_forall₂ hdynamic fun _ _ _ _ hab => hab.isCallOf_eq hplain).2]

theorem Sql.shape_eq {x y : Node} (h : Legible x y)
    (hparts : List.Forall₂ Legible (concatenationParts x) (concatenationParts y)) :
    Sql.shape (unwrap y) = Sql.shape (unwrap x) := by
  have hinner := h.unwrap.inner
  have hplain : ∀ name ∈ escapeFunctions, ':' ∉ name.toList := by decide
  have hparts' : List.Forall₂ Legible (concatenationParts (unwrap x))
      (concatenationParts (unwrap y)) := by
    rwa [concatenationParts_unwrap, concatenationParts_unwrap]
  have hkeywords := (any_all_eq_of_forall₂
    (p := fun p => isString p && hasKeyword (stringContent p)) hparts' fun a ha b hb hab => ?_).1
  · rw [shape, shape, hinner.isLiteral_eq, hinner.isConcatenation_eq,
      allSanitized_eq hparts' hplain, hkeywords, hinner.hasInterpolation_eq,
      hinner.stringContent_eq, hinner.isVariable_eq, h.inner.alike.kind, h.inner.isCall_eq,
      h.unwrap.isCallOf_eq hplain]
  · have hkind := hab.inner.alike.kind
    rw [unwrap_of_mem_concatenationParts ha, unwrap_of_mem_concatenationParts hb] at hkind
    rw [isString, isString, hkind, hab.inner.stringContent_eq]

/-- **A query is judged the same with comments in it**, if none of its operands is misread. -/
theorem Sql.assess_eq {x y : Node} (h : Commented x y)
    (hread : ∀ p ∈ concatenationParts y, ¬Misread p) : Sql.assess y = Sql.assess x := by
  have hlegible := h.legible hread
  rw [assess, assess, shape_eq hlegible (h.legible_parts hread), hlegible.inner.readsRequest_eq]

/-- A comment is no query. -/
theorem Sql.assess_of_comment {n : Node} (h : (unwrap n).kind = "comment") : Sql.assess n = {} := by
  have hshape : shape (unwrap n) = {} := by
    simp [shape, isLiteral, isConcatenation, hasInterpolation, isVariable, isCall, templateKinds,
      callKinds, h]
  rw [assess, hshape]
  rfl

/-- What is misread is neither a literal nor a call of a sanitizer. -/
theorem not_isLiteral_of_misread {n : Node} (h : Misread n) (hself : unwrap n = n) :
    isLiteral n = false ∧ ∀ names : List String, "" ∉ names → isCallOf names n = false := by
  refine ⟨?_, fun names hnames => ?_⟩
  · rcases h.kind with hkind | hkind <;> simp [isLiteral, templateKinds, hself, hkind]
  · rw [isCallOf, hself]
    rcases h.kind with hkind | hkind
    · simp [isCall, callKinds, hkind]
    · rw [callName_of_misread h (by simp [isFunctionCall, hkind])]
      simp [hnames]

theorem hasRisk_add (e : Evidence) (factor : Value) (weight : Float) (text : String) :
    (e.add factor weight text).hasRisk = true := by
  unfold Evidence.add Evidence.hasRisk
  dsimp only
  split
  · rename_i hnamed
    obtain ⟨v, hv, _⟩ := List.any_eq_true.1 hnamed
    cases hfactors : e.factors with
    | nil => simp [hfactors] at hv
    | cons _ _ => rfl
  · simp

/-- **A query with a misread operand is suspect**, unless it is nothing but a comment. -/
theorem Sql.hasRisk_of_misread {n : Node} (hkind : (unwrap n).kind ≠ "comment")
    (h : ∃ p ∈ concatenationParts n, Misread p) : (Sql.assess n).hasRisk = true := by
  obtain ⟨p, hp, hmisread⟩ := h
  obtain ⟨hliteral, hcall⟩ :=
    not_isLiteral_of_misread hmisread (unwrap_of_mem_concatenationParts hp)
  have hshape : (shape (unwrap n)).hasRisk = true := by
    cases hjoined : isConcatenation n with
    | true =>
        -- what is misread counts as computed, and nothing sanitizes it
        have hunsafe : allSanitized escapeFunctions (unwrap n) = false := by
          rw [allSanitized, dynamicParts, concatenationParts_unwrap, Bool.and_eq_false_iff]
          refine .inr (List.all_eq_false.2 ⟨p, List.mem_filter.2 ⟨hp, by simp [hliteral]⟩, ?_⟩)
          simp [hcall escapeFunctions (by decide)]
        rw [shape, isLiteral_unwrap, not_isLiteral_of_isConcatenation hjoined,
          isConcatenation_unwrap, hjoined, hunsafe]
        simp only [Bool.false_eq_true, if_false, if_true]
        split <;> exact hasRisk_add ..
    | false =>
        rw [concatenationParts_of_not_isConcatenation hjoined, List.mem_singleton] at hp
        subst hp
        obtain ⟨hfunction, _⟩ := hmisread.resolve_left hkind
        have hcallkind : (unwrap n).kind = "function_call_expression" := eq_of_beq hfunction
        simp [shape, hliteral, isConcatenation_unwrap, hjoined, hcall escapeFunctions (by decide),
          hasInterpolation, templateKinds, isVariable, isCall, callKinds, hcallkind, hasRisk_add]
  rw [assess, hshape]
  split
  · exact hasRisk_add ..
  · exact hshape

/-! ### Paths -/

namespace Inclusion

theorem staticStack_append (ms ns : List Node) :
    staticStack (ms ++ ns) = (staticStack ms && staticStack ns) := by
  fun_induction staticStack ms with
  | case1 => simp
  | case2 n rest e hfixed ih => rw [List.cons_append, staticStack, if_pos hfixed, ih]
  | case3 n rest e hfixed hjoined ih =>
      rw [List.cons_append, staticStack, if_neg hfixed, if_pos hjoined, ← List.append_assoc, ih]
  | case4 n rest e hfixed hjoined hcall ih =>
      rw [List.cons_append, staticStack, if_neg hfixed, if_neg hjoined, if_pos hcall,
        ← List.append_assoc, ih]
  | case5 n rest e hfixed hjoined hcall =>
      rw [List.cons_append, staticStack, if_neg hfixed, if_neg hjoined, if_neg hcall,
        Bool.false_and]

theorem staticStack_eq_all (ns : List Node) : staticStack ns = ns.all isStaticPath := by
  induction ns with
  | nil => rw [staticStack, List.all_nil]
  | cons n ns ih =>
      rw [← List.singleton_append, staticStack_append, ih]
      simp [isStaticPath]

/-- What must be fixed in the source for a path to be, if anything can make it so. -/
def pieces? (n : Node) : Option (List Node) :=
  if isLiteral n ||
      ["name", "qualified_name", "class_constant_access_expression"].contains (unwrap n).kind then
    some []
  else if isConcatenation n then some (unwrap n).children
  else if isFunctionCall (unwrap n) && staticFunctions.contains (callName (unwrap n)) then
    some (arguments (unwrap n))
  else none

theorem isStaticPath_eq (n : Node) :
    isStaticPath n = (pieces? n).any fun pieces => pieces.all isStaticPath := by
  rw [isStaticPath, staticStack, pieces?]
  simp only [isLiteral_unwrap, isConcatenation_unwrap, List.append_nil, staticStack_eq_all]
  split
  · rfl
  · split
    · rfl
    · split <;> rfl

theorem isStaticPath_iff_pieces {n : Node} {pieces : List Node} (h : pieces? n = some pieces) :
    isStaticPath n = true ↔ ∀ m ∈ pieces, isStaticPath m = true := by
  rw [isStaticPath_eq, h, Option.any_some, List.all_eq_true]

theorem size_lt_of_mem_pieces {n m : Node} {pieces : List Node} (h : pieces? n = some pieces)
    (hm : m ∈ pieces) : m.size < n.size := by
  unfold pieces? at h
  split at h
  · cases h
    exact absurd hm List.not_mem_nil
  · split at h
    · cases h
      exact size_lt_of_mem_children_unwrap hm
    · split at h
      · cases h
        have hle := Node.size_le_sizeList hm
        have hlt := sizeList_arguments_lt (unwrap n)
        have hn := size_unwrap_le n
        omega
      · cases h

/-- The expressions that are looked at to tell whether a path is fixed in the source. -/
inductive Met : Node → Node → Prop
  | self (n : Node) : Met n (unwrap n)
  | piece {n m k : Node} {pieces : List Node} (h : pieces? n = some pieces) (hm : m ∈ pieces)
      (hk : Met m k) : Met n k

/-- Where a comment is taken for an expression, the path is not fixed. -/
theorem pieces?_of_misread {n : Node} (h : Misread (unwrap n)) : pieces? n = none := by
  obtain ⟨hliteral, _⟩ := not_isLiteral_of_misread h (unwrap_unwrap n)
  rw [isLiteral_unwrap] at hliteral
  have hcall : (isFunctionCall (unwrap n) && staticFunctions.contains (callName (unwrap n))) =
      false := by
    cases hfunction : isFunctionCall (unwrap n) with
    | false => rfl
    | true =>
        rw [callName_of_misread h hfunction]
        decide
  rw [pieces?, hliteral, hcall, isConcatenation]
  rcases h.kind with hkind | hkind <;> simp [hkind]

theorem not_isStaticPath_of_misread {n : Node} (h : Misread (unwrap n)) :
    isStaticPath n = false := by
  rw [isStaticPath_eq, pieces?_of_misread h, Option.any_none]

/-- What must be fixed in the source corresponds. -/
theorem rel_pieces? {x y : Node} (h : Legible x y) :
    Option.Rel Interspersed (pieces? x) (pieces? y) := by
  have hplain : ∀ name ∈ staticFunctions, ':' ∉ name.toList := by decide
  rw [pieces?, pieces?, h.inner.isLiteral_eq, h.inner.alike.kind, h.inner.isConcatenation_eq,
    h.inner.isFunctionCall_eq, h.inner.contains_callName_eq h.read hplain]
  split
  · exact .some .nil
  · split
    · exact .some h.inner.below
    · split
      · exact .some h.inner.arguments
      · exact .none

/-- **A path with comments is fixed in the source if it is without them, and nothing that is looked
at is misread.** -/
theorem isStaticPath_iff_of_commented {x y : Node} (h : Commented x y) :
    isStaticPath y = true ↔ isStaticPath x = true ∧ ∀ m, Met y m → ¬Misread m := by
  induction x using size_induction generalizing y with
  | step x ih =>
      by_cases hmisread : Misread (unwrap y)
      · refine iff_of_false (by simp [not_isStaticPath_of_misread hmisread]) ?_
        exact fun hclear => hclear.2 _ (.self y) hmisread
      · have hlegible : Legible x y :=
          ⟨h.unwrap.resolve_left fun hkind => hmisread (.inl hkind), hmisread⟩
        rcases optionRel_cases (rel_pieces? hlegible) with ⟨hx, hy⟩ | ⟨as, bs, hx, hy, hab⟩
        · rw [isStaticPath_eq, isStaticPath_eq, hx, hy]
          simp
        · rw [isStaticPath_iff_pieces hx, isStaticPath_iff_pieces hy]
          -- a comment among the pieces is itself misread; any other piece belongs to one of the
          -- pieces without comments, where the induction hypothesis applies
          constructor
          · intro hfixed
            constructor
            · intro a ha
              obtain ⟨b, hb, hpair⟩ := hab.exists_of_mem_left ha
              exact ((ih a (size_lt_of_mem_pieces hx ha) hpair).1 (hfixed b hb)).1
            · intro m hm
              rcases hm with _ | ⟨hpieces, hb, hm⟩
              · exact hmisread
              · cases hy.symm.trans hpieces
                have hb' := hfixed _ hb
                rcases hab.exists_of_mem_right hb with hcomment | ⟨a, ha, hpair⟩
                · rw [not_isStaticPath_of_misread hcomment.misread] at hb'
                  cases hb'
                · exact ((ih a (size_lt_of_mem_pieces hx ha) hpair).1 hb').2 m hm
          · rintro ⟨hfixed, hclear⟩ b hb
            rcases hab.exists_of_mem_right hb with hcomment | ⟨a, ha, hpair⟩
            · exact absurd hcomment.misread (hclear _ (.piece hy hb (.self b)))
            · exact (ih a (size_lt_of_mem_pieces hx ha) hpair).2
                ⟨hfixed a ha, fun m hm => hclear m (.piece hy hb hm)⟩

end Inclusion

/-- **What comments do to verdicts.**  Comments are put into an expression, anywhere below it.  As a
query it is judged the same, if none of its operands is misread.  Otherwise it gives no evidence at
all, if what is in its parentheses is taken to be a comment, and is suspect if not.  As a path it is
fixed in the source exactly if it is without the comments and nothing that is looked at is
misread. -/
theorem verdicts_with_comments {e e' : Node} (h : Commented e e') :
    ((∀ p ∈ concatenationParts e', ¬Misread p) → Sql.assess e' = Sql.assess e) ∧
    ((unwrap e').kind = "comment" → Sql.assess e' = {}) ∧
    ((unwrap e').kind ≠ "comment" → (∃ p ∈ concatenationParts e', Misread p) →
      (Sql.assess e').hasRisk = true) ∧
    (Inclusion.isStaticPath e' = true ↔
      Inclusion.isStaticPath e = true ∧ ∀ m, Inclusion.Met e' m → ¬Misread m) :=
  ⟨Sql.assess_eq h, Sql.assess_of_comment, Sql.hasRisk_of_misread,
    Inclusion.isStaticPath_iff_of_commented h⟩

/-! ### A sanitized query, a path and a variable in parentheses -/

/-- A node without children. -/
def leafOf (kind text : String) (field : Option String := none) : Node :=
  { kind, span := { startLine := 2 }, field, text }

/-- The comment `/* all */`. -/
def aside : Node :=
  leafOf "comment" "/* all */"

theorem isComment_aside : IsComment aside :=
  ⟨rfl, rfl, rfl⟩

/-- Two expressions that are joined, with nodes between them. -/
def joinOf (left : Node) (between : List Node) (right : Node) : Node :=
  { kind := "binary_expression"
    span := { startLine := 2 }
    marks := [("operator", ".")]
    children := left :: (between ++ [right]) }

/-- The query `"SELECT " . intval($_GET)`, with comments around the argument or not. -/
def sanitizedQuery (asides : List Node) : Node :=
  joinOf (leafOf "encapsed_string" "\"SELECT \"" (some "left")) asides
    { kind := "function_call_expression"
      span := { startLine := 2 }
      field := some "right"
      children :=
        [leafOf "name" "intval" (some "function"),
         { kind := "arguments", span := { startLine := 2 }, field := some "arguments",
           children := asides ++
             [{ kind := "argument", span := { startLine := 2 },
                children := [leafOf "variable_name" "$_GET"] }] }] }

/-- The path `__DIR__ . '/config.php'`, with comments between the two or not. -/
def configPath (asides : List Node) : Node :=
  joinOf (leafOf "name" "__DIR__" (some "left")) asides
    (leafOf "string" "'/config.php'" (some "right"))

/-- The query `($sql)`, with comments in front of the variable or not. -/
def bracketedQuery (asides : List Node) : Node :=
  { kind := "parenthesized_expression"
    span := { startLine := 2 }
    children := asides ++ [leafOf "variable_name" "$sql"] }

theorem commented_sanitizedQuery : Commented (sanitizedQuery []) (sanitizedQuery [aside]) where
  alike := ⟨rfl, rfl, rfl, fun _ => rfl⟩
  below := by
    refine .node (.refl _) (.refl _) (.comment isComment_aside (.node ?_ ?_ .nil))
    · exact ⟨rfl, rfl, rfl, fun _ => rfl⟩
    · refine .node (.refl _) (.refl _) (.node ⟨rfl, rfl, rfl, fun _ => rfl⟩ ?_ .nil)
      exact .comment isComment_aside (.refl _)

/-- The sanitized query stays free of evidence with comments in it. -/
theorem sanitized_query_with_comments :
    Commented (sanitizedQuery []) (sanitizedQuery [aside]) ∧
    (∀ p ∈ concatenationParts (sanitizedQuery [aside]), ¬Misread p) ∧
    Sql.assess (sanitizedQuery [aside]) = Sql.assess (sanitizedQuery []) ∧
    (Sql.assess (sanitizedQuery [])).hasRisk = false := by
  have hread : ∀ p ∈ concatenationParts (sanitizedQuery [aside]), ¬Misread p := by decide +kernel
  exact ⟨commented_sanitizedQuery, hread,
    (verdicts_with_comments commented_sanitizedQuery).1 hread, by decide +kernel⟩

/-- **A comment changes verdicts**: the path is not taken to be fixed any more, and the query is not
suspect any more. -/
theorem comments_change_verdicts :
    Commented (configPath []) (configPath [aside]) ∧
    Inclusion.isStaticPath (configPath []) = true ∧
    Inclusion.isStaticPath (configPath [aside]) = false ∧
    Commented (bracketedQuery []) (bracketedQuery [aside]) ∧
    (Sql.assess (bracketedQuery [])).hasRisk = true ∧
    (Sql.assess (bracketedQuery [aside])).hasRisk = false := by
  refine ⟨⟨⟨rfl, rfl, rfl, fun _ => rfl⟩, ?_⟩, by decide +kernel, by decide +kernel,
    ⟨⟨rfl, rfl, rfl, fun _ => rfl⟩, ?_⟩, by decide +kernel, by decide +kernel⟩
  · exact .node (.refl _) (.refl _) (.comment isComment_aside (.refl _))
  · exact .comment isComment_aside (.refl _)

end PhpAudit.Security
