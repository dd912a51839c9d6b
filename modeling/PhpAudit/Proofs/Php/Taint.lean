/-
**Request data reaches an expression if one way down to it is open.**

Whether request data reaches an expression unsanitized is searched by a stack of nodes, each of
which knows whether a sanitizer stands above it; the search stops at the first variable with request
data that no sanitizer covers.  It comes to the same as asking for a way from the expression down to
such a variable on which no node is a sanitizer, both ends included.  So more sanitizers taint no
more expressions, and what is tainted reads request data.

A cast to a number or a truth value sanitizes as well, but casts are recognised by four spellings of
the type.  The language has seven, and lets tabs stand around them; a cast that is spelled otherwise
is overlooked, and what it makes harmless counts as tainted.

Main definitions:

* `Php.OpenWay` — a way down to request data without a node that is shut;
* `Php.WrittenCast`, `Php.IsScalarCast` — casts as they are written, and those to numbers and truth
  values.

Main results:

* `Php.openWay_iff_child` — open ways lead through the children of a node;
* `Php.taintedStack_iff` — **what the search finds from a stack**;
* `Php.tainted_iff_openWay` — what it finds from an expression;
* `Php.WrittenCast.isPlainCast_iff` — **which casts are recognised**;
* `Php.tainted_exactly` — **when request data reaches an expression unsanitized**;
* `Php.boolean_cast_is_overlooked` — a cast that is not recognised.
-/

import PhpAudit.Php.Taint
import PhpAudit.Proofs.Walk.Places

set_option autoImplicit false

namespace PhpAudit.Php

open Walk (Way way_singleton_iff)

variable {sanitizers : List String} {shut : Node → Prop}

/-! ### Open ways -/

theorem isRequestVariable_iff {m : Node} :
    isRequestVariable m = true ↔ m.kind = "variable_name" ∧ m.text ∈ requestVariables := by
  rw [isRequestVariable, Bool.and_eq_true, beq_iff_eq, List.contains_iff_mem]

/-- From an expression a way leads down to a variable with request data, and no node on it, both
ends included, is shut. -/
def OpenWay (shut : Node → Prop) (n : Node) : Prop :=
  ∃ m above, Way [n] m above ∧ (m.kind = "variable_name" ∧ m.text ∈ requestVariables) ∧
    ∀ k ∈ m :: above, ¬shut k

/-- An expression with an open way is not shut: every way begins there. -/
theorem OpenWay.not_shut {n : Node} (h : OpenWay shut n) : ¬shut n := by
  obtain ⟨m, above, hway, _, hopen⟩ := h
  rcases way_singleton_iff.1 hway with ⟨rfl, rfl⟩ | ⟨c, _, between, rfl, _⟩
  · exact hopen m List.mem_cons_self
  · exact hopen n (by simp)

/-- An open way from an expression ends there, or goes on from one of its children. -/
theorem openWay_iff_child {n : Node} :
    OpenWay shut n ↔ ¬shut n ∧
      ((n.kind = "variable_name" ∧ n.text ∈ requestVariables) ∨
        ∃ c ∈ n.children, OpenWay shut c) := by
  constructor
  · intro h
    refine ⟨h.not_shut, ?_⟩
    obtain ⟨m, above, hway, hrequest, hopen⟩ := h
    rcases way_singleton_iff.1 hway with ⟨rfl, rfl⟩ | ⟨c, hc, between, rfl, hbelow⟩
    · exact .inl hrequest
    · refine .inr ⟨c, hc, m, between, hbelow, hrequest, fun k hk => hopen k ?_⟩
      rw [← List.cons_append]
      exact List.mem_append_left _ hk
  · rintro ⟨hn, hrequest | ⟨c, hc, m, between, hbelow, hrequest, hopen⟩⟩
    · refine ⟨n, [], .root List.mem_cons_self, hrequest, fun k hk => ?_⟩
      rw [List.mem_singleton.1 hk]
      exact hn
    · refine ⟨m, between ++ [n], way_singleton_iff.2 (.inr ⟨c, hc, between, rfl, hbelow⟩), hrequest,
        fun k hk => ?_⟩
      rw [← List.cons_append] at hk
      rcases List.mem_append.1 hk with hk | hk
      · exact hopen k hk
      · rw [List.mem_singleton.1 hk]
        exact hn

/-- A way stays open if no more nodes of the expression are shut. -/
theorem OpenWay.mono {shut' : Node → Prop} {n : Node} (h : OpenWay shut n)
    (hshut : ∀ k ∈ n.walk, shut' k → shut k) : OpenWay shut' n := by
  obtain ⟨m, above, hway, hrequest, hopen⟩ := h
  refine ⟨m, above, hway, hrequest, fun k hk hk' => hopen k hk (hshut k ?_ hk')⟩
  rcases List.mem_cons.1 hk with rfl | hk
  · exact Walk.mem_walk_iff.2 ⟨above, hway⟩
  · obtain ⟨low, high, rfl⟩ := List.append_of_mem hk
    exact Walk.mem_walk_iff.2 ⟨high, hway.through.1⟩

theorem OpenWay.readsRequest {n : Node} (h : OpenWay shut n) : readsRequest n = true := by
  obtain ⟨m, above, hway, hrequest, _⟩ := h
  exact List.any_eq_true.2
    ⟨m, Walk.mem_walk_iff.2 ⟨above, hway⟩, isRequestVariable_iff.2 hrequest⟩

/-! ### The search -/

/-- A node is a call of one of the sanitizers, or one of some casts. -/
def Sanitizer (sanitizers : List String) (casts : Node → Prop) (k : Node) : Prop :=
  (isCall k = true ∧ callName k ∈ sanitizers) ∨ casts k

/-- The nodes that the search takes for sanitizers. -/
abbrev Recognised (sanitizers : List String) : Node → Prop :=
  Sanitizer sanitizers fun k => isPlainCast k = true

theorem sanitizes_eq_false_iff {k : Node} :
    sanitizes sanitizers k = false ↔ ¬Recognised sanitizers k := by
  rw [← Bool.not_eq_true, sanitizes, Recognised, Sanitizer, Bool.or_eq_true, Bool.and_eq_true,
    List.contains_iff_mem]

/-- **What the search finds from a stack**: an open way from a node of the stack that has no
sanitizer above it. -/
theorem taintedStack_iff (stack : List (Node × Bool)) :
    taintedStack sanitizers stack = true ↔
      ∃ n, (n, false) ∈ stack ∧ OpenWay (Recognised sanitizers) n := by
  fun_induction taintedStack sanitizers stack with
  | case1 => simp
  | case2 n above rest sanitized hfound =>
      -- the node on top is request data with no sanitizer at it or above it
      obtain ⟨hvariable, hopen⟩ := Bool.and_eq_true_iff.1 hfound
      obtain ⟨rfl, hn⟩ : above = false ∧ sanitizes sanitizers n = false := by
        simpa [sanitized] using hopen
      exact iff_of_true rfl ⟨n, List.mem_cons_self,
        openWay_iff_child.2 ⟨sanitizes_eq_false_iff.1 hn, .inl (isRequestVariable_iff.1 hvariable)⟩⟩
  | case3 n above rest sanitized hpassed ih =>
      rw [ih]
      have hchild : ∀ c, (c, false) ∈ marked sanitized n ↔
          c ∈ n.children ∧ above = false ∧ ¬Recognised sanitizers n := by
        intro c
        rw [mem_marked, Bool.or_eq_false_iff, sanitizes_eq_false_iff]
      constructor
      · rintro ⟨c, hc, hway⟩
        rcases List.mem_append.1 hc with hc | hc
        · obtain ⟨hmem, rfl, hn⟩ := (hchild c).1 hc
          exact ⟨n, List.mem_cons_self, openWay_iff_child.2 ⟨hn, .inr ⟨c, hmem, hway⟩⟩⟩
        · exact ⟨c, List.mem_cons_of_mem _ hc, hway⟩
      · rintro ⟨m, hm, hway⟩
        rcases List.mem_cons.1 hm with heq | hm
        · obtain ⟨rfl, rfl⟩ := Prod.mk.inj heq
          obtain ⟨hn, hvariable | ⟨c, hc, hbelow⟩⟩ := openWay_iff_child.1 hway
          · refine absurd ?_ hpassed
            simp [isRequestVariable_iff.2 hvariable, sanitized, sanitizes_eq_false_iff.2 hn]
          · exact ⟨c, List.mem_append_left _ ((hchild c).2 ⟨hc, rfl, hn⟩), hbelow⟩
        · exact ⟨m, List.mem_append_right _ hm, hway⟩

/-- What the search finds from an expression. -/
theorem tainted_iff_openWay {n : Node} :
    tainted sanitizers n = true ↔ OpenWay (Recognised sanitizers) n := by
  rw [tainted, taintedStack_iff]
  simp

/-! ### Casts -/

/-- A cast as it is written: parentheses around the name of a type, in letters of either case and
with spaces or tabs on both sides of it, and an operand behind them. -/
structure WrittenCast (k : Node) (before name after : List Char) : Prop where
  kind : k.kind = "cast_expression"
  text : ∃ operand, k.text.toList = '(' :: (before ++ (name ++ (after ++ ')' :: operand)))
  blank : ∀ c ∈ before ++ after, c = ' ' ∨ c = '\t'
  letters : ∀ c ∈ name, c.isAlpha = true

/-- The type that the name in a cast stands for. -/
def typeNamed (name : List Char) : String :=
  String.ofList (name.map Char.toLower)

/-- The names of the types of whole numbers, other numbers and truth values. -/
def scalarTypes : List String :=
  ["int", "integer", "float", "double", "real", "bool", "boolean"]

/-- A cast to a number or a truth value. -/
def IsScalarCast (k : Node) : Prop :=
  ∃ before name after, WrittenCast k before name after ∧ typeNamed name ∈ scalarTypes

/-- The names that are looked for. -/
def plainTypes : List String :=
  ["int", "integer", "float", "bool"]

/-- A text without its spaces. -/
theorem toList_replace_space (text : String) :
    (Text.replace text " " "").toList = text.toList.filter (· != ' ') := by
  have hchars : ∀ cs : List Char,
      (cs.flatMap fun c => if c == ' ' then [] else [c]) = cs.filter (· != ' ') := by
    intro cs
    induction cs with
    | nil => rfl
    | cons c cs ih =>
        rw [List.flatMap_cons, ih, List.filter_cons]
        cases h : c == ' ' <;> simp [bne, h]
  rw [Text.replace, String.toList_ofList]
  exact (Text.replaceFrom_singleton ' ' [] _).trans (hchars _)

/-- Up to the first closing parenthesis, one text begins like another only if they agree. -/
theorem closed_prefix_iff {xs ys more : List Char} (hx : ')' ∉ xs) (hy : ')' ∉ ys) :
    (xs ++ [')']).isPrefixOf (ys ++ ')' :: more) = true ↔ xs = ys := by
  induction xs generalizing ys with
  | nil =>
      cases ys with
      | nil => simp
      | cons y ys => simpa using fun h : ')' = y => hy (h ▸ List.mem_cons_self)
  | cons x xs ih =>
      cases ys with
      | nil => simpa using fun h : x = ')' => absurd (h ▸ List.mem_cons_self) hx
      | cons y ys =>
          have hrest := @ih ys (fun h => hx (List.mem_cons_of_mem _ h))
            (fun h => hy (List.mem_cons_of_mem _ h))
          rw [List.cons_append, List.cons_append, List.isPrefixOf, Bool.and_eq_true, beq_iff_eq,
            hrest, List.cons.injEq]

/-- Letters are ASCII characters, no blanks, and no parentheses even when they are lowered. -/
theorem of_isAlpha {c : Char} (h : c.isAlpha = true) :
    c.toNat < 128 ∧ c ≠ ' ' ∧ c.toLower ≠ ')' := by
  have hascii : c.toNat < 128 := by
    rcases Bool.or_eq_true_iff.1 h with h | h
    · have hupper : c.toNat ≤ 'Z'.toNat := (of_decide_eq_true h).2
      exact Nat.lt_of_le_of_lt hupper (by decide)
    · have hlower : c.toNat ≤ 'z'.toNat := of_decide_eq_true (Bool.and_eq_true_iff.1 h).2
      exact Nat.lt_of_le_of_lt hlower (by decide)
  have hall : ∀ n < 128, (Char.ofNat n).isAlpha = true →
      Char.ofNat n ≠ ' ' ∧ (Char.ofNat n).toLower ≠ ')' := by decide
  have hc := hall c.toNat hascii
  rw [Char.ofNat_toNat] at hc
  exact ⟨hascii, hc h⟩

/-- The tabs among some blanks. -/
def tabsOf (blanks : List Char) : List Char :=
  blanks.filter (· != ' ')

theorem eq_tab_of_mem_tabsOf {blanks : List Char} (h : ∀ c ∈ blanks, c = ' ' ∨ c = '\t') {c : Char}
    (hc : c ∈ tabsOf blanks) : c = '\t' := by
  obtain ⟨hmem, hne⟩ := List.mem_filter.1 hc
  exact (h c hmem).resolve_left (by simpa using hne)

theorem tabsOf_eq_nil_iff {blanks : List Char} (h : ∀ c ∈ blanks, c = ' ' ∨ c = '\t') :
    tabsOf blanks = [] ↔ '\t' ∉ blanks := by
  constructor
  · intro hnil hmem
    have htab : '\t' ∈ tabsOf blanks := List.mem_filter.2 ⟨hmem, rfl⟩
    rw [hnil] at htab
    cases htab
  · intro hnot
    refine List.eq_nil_iff_forall_not_mem.2 fun c hc => hnot ?_
    rw [← eq_tab_of_mem_tabsOf h hc]
    exact (List.mem_filter.1 hc).1

namespace WrittenCast

variable {k : Node} {before name after : List Char}

/-- What is left between the parentheses of a cast without spaces and in lower case. -/
theorem exists_lowered (h : WrittenCast k before name after) :
    ∃ more, (Text.lower (Text.replace k.text " " "")).toList =
      '(' :: (tabsOf before ++ (name.map Char.toLower ++ (tabsOf after ++ ')' :: more))) := by
  obtain ⟨operand, htext⟩ := h.text
  have hblank : ∀ c, c ∈ tabsOf before ∨ c ∈ tabsOf after → c = '\t' := by
    rintro c (hc | hc)
    · exact eq_tab_of_mem_tabsOf (fun d hd => h.blank d (List.mem_append_left _ hd)) hc
    · exact eq_tab_of_mem_tabsOf (fun d hd => h.blank d (List.mem_append_right _ hd)) hc
  have hname : name.filter (· != ' ') = name :=
    List.filter_eq_self.2 fun c hc => by simp [(of_isAlpha (h.letters c hc)).2.1]
  have hspaceless : Text.replace k.text " " "" = String.ofList
      ('(' :: (tabsOf before ++ (name ++ (tabsOf after ++ [')']))) ++
        operand.filter (· != ' ')) := by
    rw [← String.toList_inj, toList_replace_space, htext]
    simp [tabsOf, hname]
  obtain ⟨more, hlower⟩ := Text.exists_lower_append
    ('(' :: (tabsOf before ++ (name ++ (tabsOf after ++ [')'])))) (operand.filter (· != ' ')) (by
      intro c hc
      simp only [List.mem_cons, List.mem_append, List.not_mem_nil, or_false] at hc
      rcases hc with rfl | hc | hc | hc | rfl
      · decide
      · rw [hblank c (.inl hc)]
        decide
      · exact (of_isAlpha (h.letters c hc)).1
      · rw [hblank c (.inr hc)]
        decide
      · decide)
  have htabs : ∀ blanks : List Char, (∀ c ∈ blanks, c = '\t') →
      blanks.map Char.toLower = blanks := by
    intro blanks hall
    exact (List.map_congr_left fun c hc => by rw [hall c hc]; rfl).trans (List.map_id _)
  refine ⟨more, ?_⟩
  rw [hspaceless, hlower]
  simp [htabs _ fun c hc => hblank c (.inl hc), htabs _ fun c hc => hblank c (.inr hc)]

/-- **Which casts are recognised**: those with one of the names that are looked for, and no tab
beside it. -/
theorem isPlainCast_iff (h : WrittenCast k before name after) :
    isPlainCast k = true ↔ typeNamed name ∈ plainTypes ∧ '\t' ∉ before ++ after := by
  obtain ⟨more, hlowered⟩ := h.exists_lowered
  have hbefore : ∀ c ∈ before, c = ' ' ∨ c = '\t' :=
    fun c hc => h.blank c (List.mem_append_left _ hc)
  have hafter : ∀ c ∈ after, c = ' ' ∨ c = '\t' :=
    fun c hc => h.blank c (List.mem_append_right _ hc)
  have hplain : ∀ type ∈ plainTypes, ')' ∉ type.toList ∧ '\t' ∉ type.toList := by decide
  have hinside : ')' ∉ tabsOf before ++ (name.map Char.toLower ++ tabsOf after) := by
    intro hmem
    rcases List.mem_append.1 hmem with hc | hc
    · cases eq_tab_of_mem_tabsOf hbefore hc
    · rcases List.mem_append.1 hc with hc | hc
      · obtain ⟨c, hc, hclose⟩ := List.mem_map.1 hc
        exact (of_isAlpha (h.letters c hc)).2.2 hclose
      · cases eq_tab_of_mem_tabsOf hafter hc
  -- a name is found if it is all that stands between the parentheses
  have hstarts : ∀ type ∈ plainTypes,
      Text.startsWith (Text.lower (Text.replace k.text " " "")) ("(" ++ type ++ ")") = true ↔
        type.toList = tabsOf before ++ (name.map Char.toLower ++ tabsOf after) := by
    intro type htype
    rw [← @closed_prefix_iff _ _ more (hplain type htype).1 hinside, Text.startsWith, hlowered]
    simp [String.toList_append]
  have hparts : ["(int)", "(integer)", "(float)", "(bool)"] =
      plainTypes.map fun type => "(" ++ type ++ ")" := by decide
  rw [isPlainCast, h.kind, hparts, List.any_map, beq_self_eq_true, Bool.true_and, List.any_eq_true]
  simp only [List.mem_append, not_or, ← tabsOf_eq_nil_iff hbefore, ← tabsOf_eq_nil_iff hafter]
  constructor
  · rintro ⟨type, htype, hfound⟩
    have hall := (hstarts type htype).1 hfound
    have hnone : ∀ blanks : List Char, (∀ c ∈ blanks, c = ' ' ∨ c = '\t') →
        tabsOf blanks ⊆ type.toList → tabsOf blanks = [] := by
      intro blanks hblanks hsub
      refine List.eq_nil_iff_forall_not_mem.2 fun c hc => (hplain type htype).2 ?_
      exact eq_tab_of_mem_tabsOf hblanks hc ▸ hsub hc
    have hb : tabsOf before = [] := hnone before hbefore (by simp [hall])
    have ha : tabsOf after = [] := hnone after hafter (by simp [hall])
    refine ⟨?_, hb, ha⟩
    have hname : type = typeNamed name := by
      rw [← String.toList_inj, hall, hb, ha, typeNamed, String.toList_ofList, List.append_nil,
        List.nil_append]
    rwa [← hname]
  · rintro ⟨htype, hb, ha⟩
    exact ⟨_, htype, (hstarts _ htype).2 (by simp [typeNamed, hb, ha])⟩

end WrittenCast

/-- A cast that is recognised, as it is written. -/
def SpelledPlainly (k : Node) : Prop :=
  ∃ before name after, WrittenCast k before name after ∧ typeNamed name ∈ plainTypes ∧
    '\t' ∉ before ++ after

/-- The casts of an expression are all written as the language has it. -/
def CastsWritten (n : Node) : Prop :=
  ∀ k ∈ n.walk, k.kind = "cast_expression" →
    ∃ before name after, WrittenCast k before name after

theorem SpelledPlainly.isScalarCast {k : Node} (h : SpelledPlainly k) : IsScalarCast k := by
  obtain ⟨before, name, after, hcast, htype, _⟩ := h
  have hscalar : ∀ type ∈ plainTypes, type ∈ scalarTypes := by decide
  exact ⟨before, name, after, hcast, hscalar _ htype⟩

theorem CastsWritten.isPlainCast_iff {n k : Node} (h : CastsWritten n) (hk : k ∈ n.walk) :
    isPlainCast k = true ↔ SpelledPlainly k := by
  constructor
  · intro hplain
    obtain ⟨before, name, after, hcast⟩ := h k hk (beq_iff_eq.1 (Bool.and_eq_true_iff.1 hplain).1)
    exact ⟨before, name, after, hcast, hcast.isPlainCast_iff.1 hplain⟩
  · rintro ⟨before, name, after, hcast, hspelled⟩
    exact hcast.isPlainCast_iff.2 hspelled

/-- Where all casts are written as the language has it, the search goes by their spelling. -/
theorem CastsWritten.tainted_iff {n : Node} (h : CastsWritten n) :
    tainted sanitizers n = true ↔ OpenWay (Sanitizer sanitizers SpelledPlainly) n := by
  rw [tainted_iff_openWay]
  constructor <;> intro hway
  · exact hway.mono fun k hk => Or.imp_right (h.isPlainCast_iff hk).2
  · exact hway.mono fun k hk => Or.imp_right (h.isPlainCast_iff hk).1

/-! ### When request data reaches an expression -/

/-- **When request data reaches an expression unsanitized**: if a way down to request data is open,
where calls of the sanitizers and the recognised casts shut it.  In an expression whose casts are
written as the language has it these are the casts to `int`, `integer`, `float` and `bool` with no
tabs beside the name.  So an expression that no cast to a number or a truth value makes harmless is
always found, and nothing else is if all such casts are spelled so.  More sanitizers taint no more
expressions, and what is tainted reads request data. -/
theorem tainted_exactly (sanitizers : List String) (n : Node) :
    (tainted sanitizers n = true ↔ OpenWay (Recognised sanitizers) n) ∧
    (CastsWritten n →
      (tainted sanitizers n = true ↔ OpenWay (Sanitizer sanitizers SpelledPlainly) n) ∧
      (OpenWay (Sanitizer sanitizers IsScalarCast) n → tainted sanitizers n = true) ∧
      ((∀ k ∈ n.walk, IsScalarCast k → SpelledPlainly k) →
        (tainted sanitizers n = true ↔ OpenWay (Sanitizer sanitizers IsScalarCast) n))) ∧
    (∀ more : List String, (∀ name ∈ sanitizers, name ∈ more) →
      tainted more n = true → tainted sanitizers n = true) ∧
    (tainted sanitizers n = true → readsRequest n = true) := by
  refine ⟨tainted_iff_openWay, fun hwritten => ?_, ?_,
    fun h => (tainted_iff_openWay.1 h).readsRequest⟩
  · have hfound : OpenWay (Sanitizer sanitizers IsScalarCast) n → tainted sanitizers n = true :=
      fun hway => hwritten.tainted_iff.2
        (hway.mono fun k _ => Or.imp_right SpelledPlainly.isScalarCast)
    refine ⟨hwritten.tainted_iff, hfound, fun hspelled => ⟨fun h => ?_, hfound⟩⟩
    exact (hwritten.tainted_iff.1 h).mono fun k hk => Or.imp_right (hspelled k hk)
  · intro more hmore h
    refine tainted_iff_openWay.2 ((tainted_iff_openWay.1 h).mono fun k _ => ?_)
    exact Or.imp_left (And.imp_right (hmore _))

/-- The expression `$_GET['x']` behind a cast. -/
def castRequest (cast : String) : Node :=
  { kind := "cast_expression"
    span := { startLine := 2 }
    text := cast ++ "$_GET['x']"
    children :=
      [{ kind := "cast_type", span := { startLine := 2 }, field := some "type" },
       { kind := "subscript_expression", span := { startLine := 2 }, field := some "value"
         text := "$_GET['x']"
         children := [{ kind := "variable_name", span := { startLine := 2 }, text := "$_GET" }] }] }

theorem eq_castRequest_of_mem_walk {cast : String} {k : Node} (hk : k ∈ (castRequest cast).walk)
    (hkind : k.kind = "cast_expression") : k = castRequest cast := by
  simp only [castRequest, Node.walk, Node.walkStack, List.cons_append, List.nil_append,
    List.mem_cons, List.not_mem_nil, or_false] at hk
  rcases hk with rfl | rfl | rfl | rfl
  · rfl
  all_goals simp at hkind

theorem writtenCast_int : WrittenCast (castRequest "(Int )") [] ['I', 'n', 't'] [' '] where
  kind := rfl
  text := ⟨"$_GET['x']".toList, by decide⟩
  blank := by simp
  letters := List.all_eq_true.1 (by decide)

theorem writtenCast_boolean :
    WrittenCast (castRequest "(boolean)") [] "boolean".toList [] where
  kind := rfl
  text := ⟨"$_GET['x']".toList, by decide⟩
  blank := List.forall_mem_nil _
  letters := List.all_eq_true.1 (by decide)

/-- Request data behind a cast to `int` is not found. -/
theorem int_cast_is_recognised :
    CastsWritten (castRequest "(Int )") ∧
    (∀ k ∈ (castRequest "(Int )").walk, IsScalarCast k → SpelledPlainly k) ∧
    tainted ["intval"] (castRequest "(Int )") = false ∧
    ¬OpenWay (Sanitizer ["intval"] IsScalarCast) (castRequest "(Int )") := by
  have hwritten : CastsWritten (castRequest "(Int )") :=
    fun k hk hkind => ⟨_, _, _, eq_castRequest_of_mem_walk hk hkind ▸ writtenCast_int⟩
  have hspelled : ∀ k ∈ (castRequest "(Int )").walk, IsScalarCast k → SpelledPlainly k := by
    rintro k hk ⟨_, _, _, hcast, _⟩
    rw [eq_castRequest_of_mem_walk hk hcast.kind]
    exact ⟨_, _, _, writtenCast_int, by decide, by decide⟩
  have hfalse : tainted ["intval"] (castRequest "(Int )") = false := by decide +kernel
  refine ⟨hwritten, hspelled, hfalse, fun hway => ?_⟩
  have htrue := (((tainted_exactly ["intval"] _).2.1 hwritten).2.2 hspelled).2 hway
  rw [hfalse] at htrue
  cases htrue

/-- **A cast to a truth value is overlooked**: `(boolean)$_GET['x']` counts as tainted although the
cast stands on the only way to the request data. -/
theorem boolean_cast_is_overlooked :
    IsScalarCast (castRequest "(boolean)") ∧
    ¬OpenWay (Sanitizer [] IsScalarCast) (castRequest "(boolean)") ∧
    tainted [] (castRequest "(boolean)") = true := by
  have hscalar : IsScalarCast (castRequest "(boolean)") :=
    ⟨_, _, _, writtenCast_boolean, by decide⟩
  exact ⟨hscalar, fun hway => hway.not_shut (.inr hscalar), by decide +kernel⟩

end PhpAudit.Php
