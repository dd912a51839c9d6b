/-
**The words of a batch stand on its page, and none can be taken for markup.**

Tags and attributes begin and end with one of four characters.  None of them is left in escaped
text, and no text is lost by escaping, since the entities can be read back.  So on a page all such
characters come from its markup.

Titles, descriptions, rules and suggestions are listed with the findings of each file, places and
snippets with the security findings of each category, and the files that could not be analyzed with
the reason.  Each of these words is a piece of text of the page, so it stands there escaped.

Main definitions:

* `Page.isDelimiter`, `Page.delimiters` — the four characters, and those of a text in order;
* `Page.entities` — the characters that are replaced, and what stands for them;
* `Page.unescape` — reading entities back;
* `Page.Piece.markup?`, `Page.template` — the markup of a page without the text in it;
* `Page.fileTexts`, `Page.classifiedTexts`, `Page.shownTexts` — the words of a finding in the two
  lists, and those of a batch.

Main results:

* `Page.escapeChar_cases` — which characters are replaced;
* `Page.delimiters_escape` — escaped text has no delimiters;
* `Page.unescape_escape` — escaped text can be read back;
* `Page.delimiters_render` — **the delimiters of a page are those of its markup**;
* `Page.exists_group_of_groupsOf` — every classified finding is in a group;
* `Page.text_mem_report` — **every word of a batch is on its page**;
* `Page.escape_infix_render` — what becomes of a piece of text.
-/

import PhpAudit.Page.Sections
import PhpAudit.Proofs.Except

set_option autoImplicit false

namespace PhpAudit.Page

/-! ### Delimiters -/

/-- The characters with which tags and attributes begin and end. -/
def isDelimiter (c : Char) : Bool :=
  c == '<' || c == '>' || c == '\x22' || c == '\x27'

/-- The delimiters in a text, in order. -/
def delimiters (s : String) : List Char :=
  s.toList.filter isDelimiter

/-- The characters that are replaced in text, with what stands for them. -/
def entities : List (Char × List Char) :=
  [('&', "&amp;".toList), ('<', "&lt;".toList), ('>', "&gt;".toList), ('\x27', "&#39;".toList),
    ('\x22', "&#34;".toList)]

/-- Five characters are replaced, and all others stay. -/
theorem escapeChar_cases (c : Char) :
    (c, escapeChar c) ∈ entities ∨ c ≠ '&' ∧ isDelimiter c = false ∧ escapeChar c = [c] := by
  by_cases hamp : c = '&'
  · subst hamp
    decide
  by_cases hlt : c = '<'
  · subst hlt
    decide
  by_cases hgt : c = '>'
  · subst hgt
    decide
  by_cases hquote : c = '\x27'
  · subst hquote
    decide
  by_cases hdouble : c = '\x22'
  · subst hdouble
    decide
  · right
    simp [escapeChar, isDelimiter, hamp, hlt, hgt, hquote, hdouble]

theorem filter_escapeChar (c : Char) : (escapeChar c).filter isDelimiter = [] := by
  rcases escapeChar_cases c with hentity | ⟨-, hplain, hkept⟩
  · have hnone : ∀ e ∈ entities, e.2.filter isDelimiter = [] := by decide
    exact hnone _ hentity
  · simp [hkept, hplain]

/-- **Escaped text has no delimiters.** -/
@[simp] theorem delimiters_escape (s : String) : delimiters (escape s) = [] := by
  unfold delimiters escape
  rw [String.toList_ofList, List.filter_flatMap]
  exact List.flatMap_eq_nil_iff.2 fun c _ => filter_escapeChar c

/-! ### Reading back -/

/-- Characters with the five entities read back. -/
def unescapeChars : List Char → List Char
  | [] => []
  | '&' :: 'a' :: 'm' :: 'p' :: ';' :: cs => '&' :: unescapeChars cs
  | '&' :: 'l' :: 't' :: ';' :: cs => '<' :: unescapeChars cs
  | '&' :: 'g' :: 't' :: ';' :: cs => '>' :: unescapeChars cs
  | '&' :: '#' :: '3' :: '9' :: ';' :: cs => '\x27' :: unescapeChars cs
  | '&' :: '#' :: '3' :: '4' :: ';' :: cs => '\x22' :: unescapeChars cs
  | c :: cs => c :: unescapeChars cs

/-- Text with the five entities read back. -/
def unescape (s : String) : String :=
  String.ofList (unescapeChars s.toList)

theorem unescapeChars_cons {c : Char} (h : c ≠ '&') (cs : List Char) :
    unescapeChars (c :: cs) = c :: unescapeChars cs := by
  rw [unescapeChars] <;> simp [h]

theorem unescapeChars_escapeChar (c : Char) (cs : List Char) :
    unescapeChars (escapeChar c ++ cs) = c :: unescapeChars cs := by
  rcases escapeChar_cases c with hentity | ⟨hplain, -, hkept⟩
  · have hread : ∀ e ∈ entities, unescapeChars (e.2 ++ cs) = e.1 :: unescapeChars cs := by
      simp [entities, unescapeChars]
    exact hread _ hentity
  · rw [hkept]
    exact unescapeChars_cons hplain cs

/-- **Escaped text can be read back.** -/
@[simp] theorem unescape_escape (s : String) : unescape (escape s) = s := by
  have hchars : ∀ cs : List Char, unescapeChars (cs.flatMap escapeChar) = cs := by
    intro cs
    induction cs with
    | nil => rfl
    | cons c cs ih => rw [List.flatMap_cons, unescapeChars_escapeChar, ih]
  unfold unescape escape
  rw [String.toList_ofList, hchars, String.ofList_toList]

/-! ### Pages -/

/-- The markup of a piece. -/
def Piece.markup? : Piece → Option String
  | markup s => some s
  | text _ => none

/-- The markup of a page without the text in it. -/
def template (page : List Piece) : String :=
  String.join (page.filterMap Piece.markup?)

theorem delimiters_join (l : List String) :
    delimiters (String.join l) = l.flatMap delimiters := by
  unfold delimiters
  rw [String.toList_join, List.filter_flatMap]

/-- **The delimiters of a page are those of its markup.** -/
theorem delimiters_render (page : List Piece) :
    delimiters (render page) = delimiters (template page) := by
  unfold render template
  rw [delimiters_join, delimiters_join]
  induction page with
  | nil => rfl
  | cons p page ih =>
      cases p with
      | markup s => simp [Piece.render, Piece.markup?, ih]
      | text s => simp [List.filterMap_cons, Piece.render, Piece.markup?, ih]

/-! ### Words -/

/-- The words of a finding in the list of its file. -/
def fileTexts (f : Finding) : List String :=
  [f.title.plain, f.description.plain, f.ruleId.plain] ++ f.suggestions.map Value.plain

/-- The words of a finding in the list of its category. -/
def classifiedTexts (e : Value × Finding) : List String :=
  [e.2.title.plain, e.2.description.plain, placeOf e.1 e.2] ++
    if e.2.codeSnippet.truthy then [e.2.codeSnippet.plain] else []

/-- The words of a batch that a page shows. -/
def shownTexts (b : Batch) : List String :=
  (b.successful.flatMap fun r => r.path.plain :: r.findings.flatMap fileTexts) ++
    (classified b).flatMap classifiedTexts ++
    b.failures.flatMap fun r => [r.path.plain, r.status.plain, r.reason.plain]

/-! ### Sections -/

theorem mem_repeated (blanks : String) {α : Type} {f : α → List Piece} {as : List α} {a : α}
    (ha : a ∈ as) {p : Piece} (hp : p ∈ f a) : p ∈ repeated blanks (as.map f) := by
  refine List.mem_cons_of_mem _ (List.mem_flatMap.2 ⟨f a, List.mem_map_of_mem ha, ?_⟩)
  exact List.mem_append_left _ (List.mem_cons_of_mem _ hp)

theorem text_mem_fileFinding {f : Finding} {s : String} (h : s ∈ fileTexts f) :
    Piece.text s ∈ fileFinding f := by
  rcases List.mem_append.1 h with h | h
  · simp only [List.mem_cons, List.not_mem_nil, or_false] at h
    rcases h with rfl | rfl | rfl <;> simp [fileFinding, shown]
  · obtain ⟨v, hv, rfl⟩ := List.mem_map.1 h
    refine List.mem_append_left _ (List.mem_append_right _ ?_)
    refine List.mem_flatMap.2 ⟨v, hv, ?_⟩
    simp [shown]

theorem text_mem_fileSection {r : Report} {f : Finding} (hf : f ∈ r.findings) {s : String}
    (hs : s ∈ fileTexts f) : Piece.text s ∈ fileSection r := by
  have hsome : ¬r.findings.isEmpty = true := by
    rw [List.isEmpty_iff]
    exact List.ne_nil_of_mem hf
  rw [fileSection, if_neg hsome]
  refine List.mem_append_right _ (List.mem_append_left _ (List.mem_append_right _ ?_))
  exact mem_repeated level3 hf (text_mem_fileFinding hs)

theorem text_mem_files {b : Batch} {r : Report} (hr : r ∈ b.successful) {s : String}
    (hs : s ∈ r.path.plain :: r.findings.flatMap fileTexts) : Piece.text s ∈ files b := by
  have hranked : r ∈ b.ascending := List.mem_mergeSort.2 hr
  rcases List.mem_cons.1 hs with rfl | hs
  · have hrow : Piece.text r.path.plain ∈ repeated level4 (b.ascending.map fileRow) :=
      mem_repeated level4 hranked (by simp [fileRow, shown])
    simp [files, hrow]
  · obtain ⟨f, hf, hs⟩ := List.mem_flatMap.1 hs
    have hsection : Piece.text s ∈ repeated level3 (b.ascending.map fileSection) :=
      mem_repeated level3 hranked (text_mem_fileSection hf hs)
    simp [files, hsection]

theorem text_mem_failures {b : Batch} {r : Report} (hr : r ∈ b.failures) {s : String}
    (hs : s ∈ [r.path.plain, r.status.plain, r.reason.plain]) : Piece.text s ∈ failures b := by
  have hsome : ¬b.failures.isEmpty = true := by
    rw [List.isEmpty_iff]
    exact List.ne_nil_of_mem hr
  have hrow : Piece.text s ∈ repeated level4 (b.failures.map failureRow) := by
    refine mem_repeated level4 hr ?_
    simp only [List.mem_cons, List.not_mem_nil, or_false] at hs
    rcases hs with rfl | rfl | rfl <;> simp [failureRow, shown]
  simp [failures, hsome, hrow]

theorem text_mem_classifiedFinding {e : Value × Finding} {s : String} (h : s ∈ classifiedTexts e) :
    Piece.text s ∈ classifiedFinding e := by
  rcases List.mem_append.1 h with h | h
  · simp only [List.mem_cons, List.not_mem_nil, or_false] at h
    rcases h with rfl | rfl | rfl <;> simp [classifiedFinding, shown]
  · split at h
    · rename_i hsnippet
      rw [List.mem_singleton.1 h]
      simp [classifiedFinding, hsnippet, shown]
    · exact absurd h List.not_mem_nil

theorem text_mem_categories {groups : List Group} {g : Group} (hg : g ∈ groups)
    {e : Value × Finding} (he : e ∈ g.members) {s : String} (hs : s ∈ classifiedTexts e) :
    Piece.text s ∈ categories groups := by
  have hsome : ¬g.members.isEmpty = true := by
    rw [List.isEmpty_iff]
    exact List.ne_nil_of_mem he
  have hmembers : Piece.text s ∈ repeated level3 (g.members.map classifiedFinding) :=
    mem_repeated level3 he (text_mem_classifiedFinding hs)
  have hgroup : Piece.text s ∈ groupSection g := by
    simp [groupSection, hsome, hmembers]
  simp [categories, mem_repeated level3 hg hgroup]

/-! ### Groups -/

/-- A finding is in one of the groups. -/
def Holds (groups : Assoc Key Group) (e : Value × Finding) : Prop :=
  ∃ x ∈ groups, e ∈ x.2.members

theorem holds_put_self (groups : Assoc Key Group) (code : Key) {g : Group} {e : Value × Finding}
    (he : e ∈ g.members) : Holds (Assoc.put groups code g) e := by
  induction groups with
  | nil => exact ⟨(code, g), List.mem_cons_self, he⟩
  | cons x groups ih =>
      unfold Assoc.put
      split
      · exact ⟨_, List.mem_cons_self, he⟩
      · obtain ⟨y, hy, hey⟩ := ih
        exact ⟨y, List.mem_cons_of_mem _ hy, hey⟩

/-- A group can be replaced by a larger one under its code. -/
theorem Holds.put {groups : Assoc Key Group} {e : Value × Finding} (h : Holds groups e) {code : Key}
    {g : Group} (hlarger : ∀ old, Assoc.get? groups code = some old → e ∈ old.members →
      e ∈ g.members) : Holds (Assoc.put groups code g) e := by
  induction groups with
  | nil =>
      obtain ⟨x, hx, -⟩ := h
      exact absurd hx List.not_mem_nil
  | cons x groups ih =>
      obtain ⟨y, hy, he⟩ := h
      unfold Assoc.put
      unfold Assoc.get? at hlarger
      split
      · rename_i hcode
        rcases List.mem_cons.1 hy with rfl | hy
        · exact ⟨_, List.mem_cons_self, hlarger y.2 (if_pos hcode) he⟩
        · exact ⟨y, List.mem_cons_of_mem _ hy, he⟩
      · rename_i hcode
        simp only [if_neg hcode] at hlarger
        rcases List.mem_cons.1 hy with rfl | hy
        · exact ⟨_, List.mem_cons_self, he⟩
        · obtain ⟨z, hz, hez⟩ := ih ⟨y, hy, he⟩ hlarger
          exact ⟨z, List.mem_cons_of_mem _ hz, hez⟩

/-- Entering a finding keeps those that are there. -/
theorem holds_of_enterGroup {groups later : Assoc Key Group} {new : Value × Finding}
    (h : enterGroup groups new.1 new.2 = .ok later) :
    Holds later new ∧ ∀ e, Holds groups e → Holds later e := by
  obtain ⟨title, -, h⟩ := of_bind_eq_ok h
  obtain ⟨code, -, h⟩ := of_bind_eq_ok h
  cases h
  constructor
  · exact holds_put_self groups code (List.mem_append_right _ List.mem_cons_self)
  · intro e he
    refine he.put fun old hold heold => List.mem_append_left _ ?_
    rw [Assoc.getD, hold]
    exact heold

theorem holds_of_foldlM {es : List (Value × Finding)} {groups later : Assoc Key Group}
    (h : es.foldlM (fun gs e => enterGroup gs e.1 e.2) groups = .ok later) {e : Value × Finding}
    (he : e ∈ es ∨ Holds groups e) : Holds later e := by
  induction es generalizing groups with
  | nil =>
      cases h
      exact he.resolve_left List.not_mem_nil
  | cons new es ih =>
      rw [List.foldlM_cons] at h
      obtain ⟨next, hnext, h⟩ := of_bind_eq_ok h
      obtain ⟨hnew, hkept⟩ := holds_of_enterGroup hnext
      refine ih h ?_
      rcases he with he | he
      · rcases List.mem_cons.1 he with rfl | he
        · exact .inr hnew
        · exact .inl he
      · exact .inr (hkept e he)

/-- Every classified finding is in a group. -/
theorem exists_group_of_groupsOf {b : Batch} {groups : List Group} (h : groupsOf b = .ok groups)
    {e : Value × Finding} (he : e ∈ classified b) : ∃ g ∈ groups, e ∈ g.members := by
  obtain ⟨entered, hentered, h⟩ := of_bind_eq_ok h
  cases h
  obtain ⟨x, hx, hex⟩ := holds_of_foldlM hentered (.inl he)
  exact ⟨x.2, List.mem_map_of_mem hx, hex⟩

/-! ### The page -/

/-- **Every word of a batch is on its page.** -/
theorem text_mem_report {b : Batch} {now : Stamp} {page : List Piece}
    (h : report b now = .ok page) {s : String} (hs : s ∈ shownTexts b) : Piece.text s ∈ page := by
  obtain ⟨counts, -, h⟩ := of_bind_eq_ok h
  obtain ⟨summary, -, h⟩ := of_bind_eq_ok h
  obtain ⟨groups, hgroups, h⟩ := of_bind_eq_ok h
  cases h
  simp only [shownTexts, List.mem_append, List.mem_flatMap] at hs
  simp only [List.mem_append]
  obtain (⟨r, hr, hs⟩ | ⟨e, he, hs⟩) | ⟨r, hr, hs⟩ := hs
  · exact .inl (.inl (.inr (text_mem_files hr hs)))
  · obtain ⟨g, hg, heg⟩ := exists_group_of_groupsOf hgroups he
    exact .inl (.inl (.inl (.inr (text_mem_categories hg heg hs))))
  · exact .inl (.inr (text_mem_failures hr hs))

/-- A piece of text stands escaped in what is written. -/
theorem escape_infix_render {page : List Piece} {s : String} (h : Piece.text s ∈ page) :
    (escape s).toList <:+: (render page).toList := by
  obtain ⟨before, after, rfl⟩ := List.append_of_mem h
  refine ⟨(render before).toList, (render after).toList, ?_⟩
  simp [render, Piece.render]

end PhpAudit.Page
