/-
**The places of the operands of a chain of concatenations.**

Concatenations nest to the left and can stand in parentheses, and all that is joined in this way is
one chain.  The operands of a chain are found by looking through parentheses and into every
concatenation.  Here each operand comes with the nodes above it, so that it can be said how the
chain looks from below: above an operand stand parentheses first, if it is in any, and from the
nearest concatenation up to the top of the chain every node is one.

Main definitions:

* `Php.isJoin` — whether a node itself is a concatenation;
* `Php.operandPlaces` — the places of the operands of a chain;
* `Php.Climbs` — the way from an operand up to the top of its chain;
* `Php.Flattens`, `Php.Assembles` — the rules by which a chain is taken apart and put together.

Main results:

* `Php.chain_induction` — induction over chains;
* `Php.map_node_operandPlaces` — **the operands of a chain**, without their places;
* `Php.concatenationParts_of_isJoin` — where the operands of a concatenation come from;
* `Php.operandPlaces_sublist` — the operands stand below the top of the chain, in order;
* `Php.exists_climbs` — **the nodes between an operand and the top of its chain**;
* `Php.Assembles.concatenationParts_eq` — an expression put together from others has their operands;
* `Php.concatenationParts_ignores_grouping` — **neither grouping nor parentheses change the
  operands**.
-/

import PhpAudit.Php.Expressions
import PhpAudit.Proofs.Walk.Places

set_option autoImplicit false

namespace PhpAudit.Php

open Walk (Place placesOf placesIn placesOf_eq)

/-! ### Parentheses -/

/-- Whether a node itself, not in parentheses, is a concatenation. -/
def isJoin (n : Node) : Bool :=
  n.kind == "binary_expression" && (n.mark? "operator").any fun v => v.str? == some "."

theorem isConcatenation_eq (n : Node) : isConcatenation n = isJoin (unwrap n) :=
  rfl

/-- Whether a node is a pair of parentheses with something in it. -/
def isBracket (n : Node) : Bool :=
  n.kind == "parenthesized_expression" && !n.children.isEmpty

theorem unwrap_of_isBracket {n first : Node} {rest : List Node} (h : isBracket n = true)
    (hchildren : n.children = first :: rest) : unwrap n = unwrap first := by
  obtain ⟨k, s, f, a, t, i, children⟩ := n
  cases hchildren
  have hkind : (k == "parenthesized_expression") = true := (Bool.and_eq_true _ _ ▸ h).1
  rw [unwrap, if_pos hkind]

theorem unwrap_of_not_isBracket {n : Node} (h : isBracket n = false) : unwrap n = n := by
  obtain ⟨k, s, f, a, t, i, children⟩ := n
  cases children with
  | nil => rw [unwrap]
  | cons first rest =>
      have hkind : ¬(k == "parenthesized_expression") = true := by
        simpa [isBracket] using h
      rw [unwrap, if_neg hkind]

theorem not_isBracket_of_isJoin {n : Node} (h : isJoin n = true) : isBracket n = false := by
  have hkind : n.kind = "binary_expression" := eq_of_beq (Bool.and_eq_true _ _ ▸ h).1
  simp [isBracket, hkind]

theorem exists_first_of_isBracket {n : Node} (h : isBracket n = true) :
    ∃ first rest, n.children = first :: rest := by
  cases hchildren : n.children with
  | nil => simp [isBracket, hchildren] at h
  | cons first rest => exact ⟨first, rest, rfl⟩

theorem isConcatenation_of_isJoin {n : Node} (h : isJoin n = true) : isConcatenation n = true := by
  rwa [isConcatenation_eq, unwrap_of_not_isBracket (not_isBracket_of_isJoin h)]

theorem isConcatenation_of_isBracket {n first : Node} {rest : List Node} (h : isBracket n = true)
    (hchildren : n.children = first :: rest) : isConcatenation n = isConcatenation first := by
  rw [isConcatenation_eq, isConcatenation_eq, unwrap_of_isBracket h hchildren]

/-- What holds of an expression if it holds of the expression in its parentheses, or of all that it
joins, holds of every expression. -/
theorem chain_induction {P : Node → Prop}
    (bracket : ∀ n first rest, isBracket n = true → n.children = first :: rest → P first → P n)
    (join : ∀ n, isJoin n = true → (∀ m ∈ n.children, P m) → P n)
    (other : ∀ n, isBracket n = false → isJoin n = false → P n) (n : Node) : P n := by
  induction n using Node.induction with
  | step n ih =>
      cases hbracket : isBracket n with
      | true =>
          obtain ⟨first, rest, hchildren⟩ := exists_first_of_isBracket hbracket
          exact bracket n first rest hbracket hchildren
            (ih first (by rw [hchildren]; exact List.mem_cons_self))
      | false =>
          cases hjoin : isJoin n with
          | true => exact join n hjoin ih
          | false => exact other n hbracket hjoin

/-- Without its parentheses an expression is in none. -/
theorem not_isBracket_unwrap (n : Node) : isBracket (unwrap n) = false := by
  refine chain_induction (P := fun n => isBracket (unwrap n) = false) ?_ ?_ ?_ n
  · intro n first rest hbracket hchildren ih
    rwa [unwrap_of_isBracket hbracket hchildren]
  · intro n hjoin _
    rw [unwrap_of_not_isBracket (not_isBracket_of_isJoin hjoin), not_isBracket_of_isJoin hjoin]
  · intro n hbracket _
    rw [unwrap_of_not_isBracket hbracket, hbracket]

@[simp] theorem unwrap_unwrap (n : Node) : unwrap (unwrap n) = unwrap n :=
  unwrap_of_not_isBracket (not_isBracket_unwrap n)

/-! ### Shapes of expressions in parentheses -/

theorem hasInterpolation_unwrap (n : Node) : hasInterpolation (unwrap n) = hasInterpolation n := by
  simp only [hasInterpolation, stringContent, unwrap_unwrap]

theorem isLiteral_unwrap (n : Node) : isLiteral (unwrap n) = isLiteral n := by
  simp only [isLiteral, unwrap_unwrap]

theorem isConcatenation_unwrap (n : Node) : isConcatenation (unwrap n) = isConcatenation n := by
  rw [isConcatenation_eq, isConcatenation_eq, unwrap_unwrap]

/-- A literal is no concatenation. -/
theorem not_isLiteral_of_isConcatenation {n : Node} (h : isConcatenation n = true) :
    isLiteral n = false := by
  have hkind : (unwrap n).kind = "binary_expression" := eq_of_beq (Bool.and_eq_true _ _ ▸ h).1
  simp [isLiteral, templateKinds, hkind]

/-- A literal has no variables in it. -/
theorem not_hasInterpolation_of_isLiteral {n : Node} (h : isLiteral n = true) :
    hasInterpolation n = false := by
  rw [isLiteral, Bool.or_eq_true] at h
  rcases h with h | h
  · have hkind : templateKinds.contains (unwrap n).kind = false := by
      have hmem := List.contains_iff_mem.1 h
      simp only [List.mem_cons, List.not_mem_nil, or_false] at hmem
      rcases hmem with h | h | h | h | h | h <;> rw [h] <;> decide
    rw [hasInterpolation, hkind, Bool.false_and]
  · have hself := (Bool.and_eq_true_iff.1 h).2
    rwa [hasInterpolation_unwrap, Bool.not_eq_true'] at hself

/-- A concatenation is no call. -/
theorem not_isCallOf_of_isConcatenation {n : Node} (names : List String)
    (h : isConcatenation n = true) : isCallOf names n = false := by
  have hkind : (unwrap n).kind = "binary_expression" := eq_of_beq (Bool.and_eq_true _ _ ▸ h).1
  simp [isCallOf, isCall, callKinds, hkind]

/-! ### Places of operands -/

mutual

/-- The places of the operands of a chain with a node at the top. -/
def operandPlaces (above : List Node) : Node → List Place
  | ⟨k, s, f, a, t, i, children⟩ =>
    let n : Node := ⟨k, s, f, a, t, i, children⟩
    if isBracket n then firstOperandPlaces (n :: above) children
    else if isJoin n then allOperandPlaces (n :: above) children
    else [⟨n, above⟩]

/-- The places of the operands in the first of some nodes. -/
def firstOperandPlaces (above : List Node) : List Node → List Place
  | [] => []
  | n :: _ => operandPlaces above n

/-- The places of the operands in all of some nodes but comments. -/
def allOperandPlaces (above : List Node) : List Node → List Place
  | [] => []
  | n :: rest =>
    (if n.kind == "comment" then [] else operandPlaces above n) ++ allOperandPlaces above rest

end

theorem operandPlaces_eq (above : List Node) (n : Node) :
    operandPlaces above n =
      if isBracket n then firstOperandPlaces (n :: above) n.children
      else if isJoin n then allOperandPlaces (n :: above) n.children
      else [⟨n, above⟩] := by
  cases n
  rw [operandPlaces]

theorem operandPlaces_of_isBracket {n first : Node} {rest : List Node} (h : isBracket n = true)
    (hchildren : n.children = first :: rest) (above : List Node) :
    operandPlaces above n = operandPlaces (n :: above) first := by
  rw [operandPlaces_eq, if_pos h, hchildren, firstOperandPlaces]

theorem operandPlaces_of_isJoin {n : Node} (h : isJoin n = true) (above : List Node) :
    operandPlaces above n = allOperandPlaces (n :: above) n.children := by
  rw [operandPlaces_eq, if_neg (by simp [not_isBracket_of_isJoin h]), if_pos h]

theorem operandPlaces_of_other {n : Node} (hbracket : isBracket n = false)
    (hjoin : isJoin n = false) (above : List Node) : operandPlaces above n = [⟨n, above⟩] := by
  rw [operandPlaces_eq, if_neg (by simp [hbracket]), if_neg (by simp [hjoin])]

theorem mem_allOperandPlaces {above ms : List Node} {q : Place} :
    q ∈ allOperandPlaces above ms ↔
      ∃ m ∈ ms, m.kind ≠ "comment" ∧ q ∈ operandPlaces above m := by
  induction ms with
  | nil => simp [allOperandPlaces]
  | cons m ms ih =>
      rw [allOperandPlaces, List.mem_append, ih]
      by_cases hcomment : m.kind = "comment" <;> simp [hcomment]

/-- **The operands of a chain**, without their places. -/
theorem map_node_operandPlaces (above : List Node) (n : Node) :
    (operandPlaces above n).map Place.node = concatenationParts n := by
  -- on a stack, what is left of it is appended
  have hstack : ∀ n : Node, ∀ above rest, partsStack (unwrap n :: rest) =
      (operandPlaces above n).map Place.node ++ partsStack rest := by
    refine chain_induction ?_ ?_ ?_
    · intro n first _ hbracket hchildren ih above rest
      rw [unwrap_of_isBracket hbracket hchildren, operandPlaces_of_isBracket hbracket hchildren]
      exact ih (n :: above) rest
    · intro n hjoin ih above rest
      have hall : ∀ ms : List Node, (∀ m ∈ ms, m ∈ n.children) → ∀ above' rest',
          partsStack (((ms.filter fun m => m.kind != "comment").map unwrap) ++ rest') =
            (allOperandPlaces above' ms).map Place.node ++ partsStack rest' := by
        intro ms hms above' rest'
        induction ms with
        | nil => simp [allOperandPlaces]
        | cons m ms ihms =>
            have hrest := ihms fun m' hm' => hms m' (List.mem_cons_of_mem _ hm')
            by_cases hcomment : m.kind = "comment"
            · simpa [allOperandPlaces, hcomment] using hrest
            · simp only [allOperandPlaces, List.filter_cons, bne_iff_ne, ne_eq, hcomment,
                not_false_eq_true, if_true, List.map_cons, List.cons_append, beq_iff_eq, if_false,
                List.map_append, List.append_assoc]
              rw [ih m (hms m List.mem_cons_self) above', hrest]
      have hself : unwrap n = n := unwrap_of_not_isBracket (not_isBracket_of_isJoin hjoin)
      rw [hself, partsStack, if_pos (isConcatenation_of_isJoin hjoin), operands, hself,
        operandPlaces_of_isJoin hjoin]
      exact hall n.children (fun _ h => h) (n :: above) rest
    · intro n hbracket hjoin above rest
      have hself : unwrap n = n := unwrap_of_not_isBracket hbracket
      have hnot : ¬isConcatenation n = true := by
        rw [isConcatenation_eq, hself, hjoin]
        exact Bool.false_ne_true
      rw [hself, partsStack, if_neg hnot, operandPlaces_of_other hbracket hjoin]
      rfl
  rw [concatenationParts, hstack n above [], partsStack, List.append_nil]

/-- What is joined in parentheses is joined. -/
theorem concatenationParts_unwrap (n : Node) :
    concatenationParts (unwrap n) = concatenationParts n := by
  rw [concatenationParts, concatenationParts, unwrap_unwrap]

/-- What is no concatenation is its only operand. -/
theorem concatenationParts_of_not_isConcatenation {n : Node} (h : isConcatenation n = false) :
    concatenationParts n = [unwrap n] := by
  have hself : isConcatenation (unwrap n) = false := by
    rwa [isConcatenation_eq, unwrap_unwrap, ← isConcatenation_eq]
  rw [concatenationParts, partsStack, if_neg (by simp [hself]), partsStack]

/-- The operands of a concatenation are those of all that it joins. -/
theorem concatenationParts_of_isJoin {n : Node} (h : isJoin n = true) :
    concatenationParts n =
      (n.children.filter fun m => m.kind != "comment").flatMap concatenationParts := by
  rw [← map_node_operandPlaces [] n, operandPlaces_of_isJoin h]
  induction n.children with
  | nil => rfl
  | cons m ms ih =>
      rw [allOperandPlaces, List.map_append, ih]
      by_cases hcomment : m.kind = "comment"
      · simp [hcomment]
      · simp [hcomment, map_node_operandPlaces]

/-- The rules by which chains are taken apart: what stands first in parentheses is taken for them, a
concatenation gives what its operands give, from left to right and without its comments, and every
other expression stands for itself. -/
structure Flattens (flat : Node → List Node) : Prop where
  bracket : ∀ {n first : Node} {rest : List Node}, isBracket n = true →
    n.children = first :: rest → flat n = flat first
  join : ∀ {n : Node}, isJoin n = true →
    flat n = (n.children.filter fun m => m.kind != "comment").flatMap flat
  other : ∀ {n : Node}, isBracket n = false → isJoin n = false → flat n = [n]

theorem flattens_concatenationParts : Flattens concatenationParts where
  bracket hbracket hchildren := by
    rw [← concatenationParts_unwrap, unwrap_of_isBracket hbracket hchildren,
      concatenationParts_unwrap]
  join := concatenationParts_of_isJoin
  other := by
    intro n hbracket hjoin
    have hself := unwrap_of_not_isBracket hbracket
    have hsingle : isConcatenation n = false := by rw [isConcatenation_eq, hself, hjoin]
    rw [concatenationParts_of_not_isConcatenation hsingle, hself]

theorem mem_concatenationParts_of_isJoin {n p : Node} (h : isJoin n = true) :
    p ∈ concatenationParts n ↔
      ∃ m ∈ n.children, m.kind ≠ "comment" ∧ p ∈ concatenationParts m := by
  rw [concatenationParts_of_isJoin h]
  simp [and_assoc]

/-- An operand stands in no parentheses. -/
theorem unwrap_of_mem_concatenationParts {n p : Node} (h : p ∈ concatenationParts n) :
    unwrap p = p := by
  revert h
  refine chain_induction (P := fun n => p ∈ concatenationParts n → unwrap p = p) ?_ ?_ ?_ n
  · intro n first rest hbracket hchildren ih hp
    rw [flattens_concatenationParts.bracket hbracket hchildren] at hp
    exact ih hp
  · intro n hjoin ih hp
    obtain ⟨m, hm, _, hp⟩ := (mem_concatenationParts_of_isJoin hjoin).1 hp
    exact ih m hm hp
  · intro n hbracket hjoin hp
    rw [flattens_concatenationParts.other hbracket hjoin, List.mem_singleton] at hp
    rw [hp, unwrap_of_not_isBracket hbracket]

/-- The operands stand below the top of the chain, in order. -/
theorem operandPlaces_sublist (above : List Node) (n : Node) :
    (operandPlaces above n).Sublist (placesOf above n) := by
  refine chain_induction (P := fun n => ∀ above, (operandPlaces above n).Sublist (placesOf above n))
    ?_ ?_ ?_ n above
  · intro n first rest hbracket hchildren ih above
    rw [operandPlaces_of_isBracket hbracket hchildren, placesOf_eq, hchildren, placesIn]
    exact ((ih (n :: above)).trans (List.sublist_append_left _ _)).cons _
  · intro n hjoin ih above
    have hall : ∀ ms : List Node, (∀ m ∈ ms, m ∈ n.children) →
        (allOperandPlaces (n :: above) ms).Sublist (placesIn (n :: above) ms) := by
      intro ms hms
      induction ms with
      | nil => exact List.Sublist.slnil
      | cons m ms ihms =>
          have hrest := ihms fun m' hm' => hms m' (List.mem_cons_of_mem _ hm')
          rw [allOperandPlaces, placesIn]
          split
          · exact hrest.trans (List.sublist_append_right _ _)
          · exact (ih m (hms m List.mem_cons_self) (n :: above)).append hrest
    rw [operandPlaces_of_isJoin hjoin, placesOf_eq]
    exact (hall n.children fun _ h => h).cons _
  · intro n hbracket hjoin above
    rw [operandPlaces_of_other hbracket hjoin, placesOf_eq]
    exact (List.nil_sublist _).cons_cons _

/-! ### From an operand to the top -/

/-- The way from an operand up to the top of its chain. -/
structure Climbs (q : Place) (top : Node) (above between : List Node) : Prop where
  above_eq : q.above = between ++ above
  kinds : ∀ n ∈ between, n.kind = "binary_expression" ∨ n.kind = "parenthesized_expression"
  top : between = [] ∧ q.node = top ∨ between.getLast? = some top
  /-- Above the nearest concatenation every node of the chain is one. -/
  joined : between.head?.any isConcatenation = true → ∀ n ∈ between, isConcatenation n = true

/-- One step further up. -/
theorem Climbs.concat {q : Place} {m n : Node} {above between : List Node}
    (h : Climbs q m (n :: above) between)
    (hkind : n.kind = "binary_expression" ∨ n.kind = "parenthesized_expression")
    (hjoined : isConcatenation m = true → isConcatenation n = true) :
    Climbs q n above (between ++ [n]) where
  above_eq := by rw [h.above_eq, List.append_assoc, List.singleton_append]
  kinds := by
    intro x hx
    rcases List.mem_append.1 hx with hx | hx
    · exact h.kinds x hx
    · rw [List.mem_singleton.1 hx]
      exact hkind
  top := .inr List.getLast?_concat
  joined := by
    intro hhead x hx
    rcases h.top with ⟨rfl, -⟩ | hlast
    · rw [List.mem_singleton.1 hx]
      simpa using hhead
    · have hm : m ∈ between := List.mem_of_getLast? hlast
      have hall : ∀ y ∈ between, isConcatenation y = true := by
        refine h.joined ?_
        cases between with
        | nil => exact absurd hm List.not_mem_nil
        | cons y ys => exact hhead
      rcases List.mem_append.1 hx with hx | hx
      · exact hall x hx
      · rw [List.mem_singleton.1 hx]
        exact hjoined (hall m hm)

/-- **The nodes between an operand and the top of its chain.**  The operand itself is no
concatenation. -/
theorem exists_climbs {q : Place} {n : Node} {above : List Node} (h : q ∈ operandPlaces above n) :
    isConcatenation q.node = false ∧ ∃ between, Climbs q n above between := by
  revert above
  refine chain_induction (P := fun n => ∀ {above}, q ∈ operandPlaces above n →
    isConcatenation q.node = false ∧ ∃ between, Climbs q n above between) ?_ ?_ ?_ n
  · intro n first rest hbracket hchildren ih above h
    rw [operandPlaces_of_isBracket hbracket hchildren] at h
    obtain ⟨hother, between, hclimbs⟩ := ih h
    have hkind : n.kind = "parenthesized_expression" :=
      eq_of_beq (Bool.and_eq_true _ _ ▸ hbracket).1
    refine ⟨hother, _, hclimbs.concat (.inr hkind) ?_⟩
    rw [isConcatenation_of_isBracket hbracket hchildren]
    exact id
  · intro n hjoin ih above h
    rw [operandPlaces_of_isJoin hjoin] at h
    obtain ⟨m, hm, _, hq⟩ := mem_allOperandPlaces.1 h
    obtain ⟨hother, between, hclimbs⟩ := ih m hm hq
    have hkind : n.kind = "binary_expression" := eq_of_beq (Bool.and_eq_true _ _ ▸ hjoin).1
    exact ⟨hother, _, hclimbs.concat (.inl hkind) fun _ => isConcatenation_of_isJoin hjoin⟩
  · intro n hbracket hjoin above h
    rw [operandPlaces_of_other hbracket hjoin, List.mem_singleton] at h
    subst h
    refine ⟨?_, [], rfl, nofun, .inl ⟨rfl, rfl⟩, nofun⟩
    rw [isConcatenation_eq, unwrap_of_not_isBracket hbracket, hjoin]

/-- An operand of a concatenation has a node above it that belongs to the chain. -/
theorem exists_climbs_cons {above : List Node} {top : Node} {q : Place}
    (hchain : isConcatenation top = true) (hq : q ∈ operandPlaces above top) :
    ∃ parent rest, Climbs q top above (parent :: rest) ∧
      (parent :: rest).getLast? = some top := by
  obtain ⟨hother, between, hclimbs⟩ := exists_climbs hq
  -- the top of the chain is a concatenation and the operand is none, so something stands between
  have hlast : between.getLast? = some top := by
    refine hclimbs.top.resolve_left ?_
    rintro ⟨-, heq⟩
    rw [heq, hchain] at hother
    cases hother
  cases between with
  | nil => cases hlast
  | cons parent rest => exact ⟨parent, rest, hclimbs, hlast⟩

/-! ### Grouping -/

/-- The rules leave no choice. -/
theorem Flattens.eq {flat flat' : Node → List Node} (h : Flattens flat) (h' : Flattens flat') :
    flat = flat' := by
  funext n
  refine chain_induction (P := fun n => flat n = flat' n) ?_ ?_ ?_ n
  · intro n first rest hbracket hchildren ih
    rw [h.bracket hbracket hchildren, ih, h'.bracket hbracket hchildren]
  · intro n hjoin ih
    rw [h.join hjoin, h'.join hjoin, List.flatMap_def, List.flatMap_def,
      List.map_congr_left fun m hm => ih m (List.mem_filter.1 hm).1]
  · intro n hbracket hjoin
    rw [h.other hbracket hjoin, h'.other hbracket hjoin]

/-- `Assembles ops e` holds if `e` puts expressions `ops` together, in this order: joined, grouped
in any way and in any parentheses. -/
inductive Assembles : List Node → Node → Prop
  | operand (p : Node) : Assembles [p] p
  | bracket {ops : List Node} {e first : Node} {rest : List Node} :
      isBracket e = true → e.children = first :: rest → Assembles ops first → Assembles ops e
  | join (pieces : List (List Node × Node)) {e : Node} :
      isJoin e = true →
      (e.children.filter fun m => m.kind != "comment") = pieces.map Prod.snd →
      (∀ piece ∈ pieces, Assembles piece.1 piece.2) → Assembles (pieces.flatMap Prod.fst) e

/-- An expression put together from others has their operands. -/
theorem Assembles.concatenationParts_eq {ops : List Node} {e : Node} (h : Assembles ops e) :
    concatenationParts e = ops.flatMap concatenationParts := by
  induction h with
  | operand p => rw [List.flatMap_singleton]
  | bracket hbracket hchildren _ ih =>
      rw [flattens_concatenationParts.bracket hbracket hchildren, ih]
  | join pieces hjoin hchildren _ ih =>
      rw [concatenationParts_of_isJoin hjoin, hchildren, List.flatMap_map, List.flatMap_assoc,
        List.flatMap_def, List.map_congr_left ih, List.flatMap_def]

/-- Every expression is put together from its operands. -/
theorem assembles_concatenationParts (e : Node) : Assembles (concatenationParts e) e := by
  refine chain_induction (P := fun e => Assembles (concatenationParts e) e) ?_ ?_ ?_ e
  · intro e first rest hbracket hchildren ih
    rw [flattens_concatenationParts.bracket hbracket hchildren]
    exact .bracket hbracket hchildren ih
  · intro e hjoin ih
    let joined := e.children.filter fun m => m.kind != "comment"
    have hall := Assembles.join (joined.map fun m => (concatenationParts m, m)) hjoin
      (by rw [List.map_map]; exact (List.map_id _).symm)
      (List.forall_mem_map.2 fun m hm => ih m (List.mem_filter.1 hm).1)
    rw [List.flatMap_map] at hall
    rwa [concatenationParts_of_isJoin hjoin]
  · intro e hbracket hjoin
    rw [flattens_concatenationParts.other hbracket hjoin]
    exact .operand e

/-- **Neither grouping nor parentheses change the operands.**  The operands of an expression are
what the rules give.  None of them is a concatenation or a pair of parentheses with something in it.
Two expressions have the same operands exactly if both can be put together from the same ones. -/
theorem concatenationParts_ignores_grouping (e e' : Node) :
    (∀ flat, Flattens flat ↔ flat = concatenationParts) ∧
      (∀ p ∈ concatenationParts e, isConcatenation p = false ∧ isBracket p = false) ∧
      (concatenationParts e = concatenationParts e' ↔
        ∃ ops, Assembles ops e ∧ Assembles ops e') := by
  refine ⟨fun flat => ⟨fun h => h.eq flattens_concatenationParts, ?_⟩, fun p hp => ⟨?_, ?_⟩, ?_, ?_⟩
  · rintro rfl
    exact flattens_concatenationParts
  · rw [← map_node_operandPlaces [] e] at hp
    obtain ⟨q, hq, rfl⟩ := List.mem_map.1 hp
    exact (exists_climbs hq).1
  · rw [← unwrap_of_mem_concatenationParts hp]
    exact not_isBracket_unwrap p
  · intro heq
    exact ⟨_, assembles_concatenationParts e, heq ▸ assembles_concatenationParts e'⟩
  · rintro ⟨ops, h, h'⟩
    rw [h.concatenationParts_eq, h'.concatenationParts_eq]

/-- A variable. -/
def named (text : String) : Node :=
  { kind := "variable_name", span := { startLine := 1 }, text }

/-- Two expressions joined, with a comment behind them. -/
def dotted (left right : Node) : Node :=
  { kind := "binary_expression", span := { startLine := 1 }, marks := [("operator", ".")]
    children := [left, right, { kind := "comment", span := { startLine := 1 } }] }

/-- An expression in parentheses. -/
def bracketed (e : Node) : Node :=
  { kind := "parenthesized_expression", span := { startLine := 1 }, children := [e] }

theorem Assembles.dotted {ops ops' : List Node} {left right : Node} (hl : Assembles ops left)
    (hr : Assembles ops' right) (hleft : left.kind ≠ "comment") (hright : right.kind ≠ "comment") :
    Assembles (ops ++ ops') (dotted left right) := by
  have hall := Assembles.join [(ops, left), (ops', right)] (e := Php.dotted left right) rfl
    (by simp [Php.dotted, hleft, hright]) (by simp [hl, hr])
  simpa using hall

/-- The chains `$a . $b . $c` and `$a . ($b . $c)` have the same operands, `$a` among them. -/
theorem concatenationParts_regrouped :
    let a := named "$a"
    let b := named "$b"
    let c := named "$c"
    let e := dotted (dotted a b) c
    let e' := dotted a (bracketed (dotted b c))
    Assembles [a, b, c] e ∧ Assembles [a, b, c] e' ∧ concatenationParts e = concatenationParts e' ∧
      a ∈ concatenationParts e ∧ isConcatenation a = false := by
  intro a b c e e'
  have h : Assembles [a, b, c] e :=
    ((Assembles.operand a).dotted (.operand b) (by decide) (by decide)).dotted (.operand c)
      (by decide) (by decide)
  have h' : Assembles [a, b, c] e' :=
    (Assembles.operand a).dotted (.bracket rfl rfl
      ((Assembles.operand b).dotted (.operand c) (by decide) (by decide))) (by decide) (by decide)
  have ha : a ∈ concatenationParts e := by
    rw [h.concatenationParts_eq, List.flatMap_cons, flattens_concatenationParts.other rfl rfl]
    exact List.mem_append_left _ List.mem_cons_self
  have hparts := concatenationParts_ignores_grouping e e'
  exact ⟨h, h', hparts.2.2.2 ⟨_, h, h'⟩, ha, (hparts.2.1 a ha).1⟩

end PhpAudit.Php
