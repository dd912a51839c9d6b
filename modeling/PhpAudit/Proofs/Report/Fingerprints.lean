/-
**Fingerprints of findings, and what is kept of findings that share one.**

A fingerprint joins six texts by colons: category, severity, rule, line and the digests of title and
description.  Only the rule may hold colons itself.  So the first two pieces can be told from the
front and the last three from the back, and what is left is the rule: two findings have one
fingerprint exactly if they agree on all six.

Of findings with one fingerprint a report keeps the first.  What is kept has pairwise different
fingerprints, among them that of every finding, and is not thinned out further by doing it again;
the findings that were kept and those that were dropped add up to all findings of all outcomes.

Main definitions:

* `Finding.Reads` — the texts and the line that a finding holds;
* `Finding.effectiveRule` — the rule as it stands in a fingerprint;
* `Report.repeated` — how many findings have an earlier one of the same fingerprint;
* `Report.Sifted` — what is kept of findings, and how many are dropped.

Main results:

* `splitOn_intercalate_around` — pieces around one that may hold the separator;
* `Finding.fingerprint_eq_iff` — **what fingerprints tell apart**;
* `Report.sifted_of_fingerprints` — findings are sifted by their fingerprints;
* `Report.collect_keeps_one_per_fingerprint` — **a report holds one finding of each fingerprint, and
  counts the others**.
-/

import Mathlib
import PhpAudit.Proofs.Audit.Order

set_option autoImplicit false

namespace PhpAudit

/-! ### Pieces joined by a separator -/

/-- If all pieces but one are free of the separator, splitting gives them back, and cuts the one. -/
theorem splitOn_intercalate_around {c : Char} {before after : List (List Char)} (piece : List Char)
    (hbefore : ∀ l ∈ before, c ∉ l) (hafter : ∀ l ∈ after, c ∉ l) :
    ([c].intercalate (before ++ piece :: after)).splitOn c =
      before ++ (piece.splitOn c ++ after) := by
  induction before with
  | nil =>
      by_cases hnil : after = []
      · simp [hnil]
      · rw [List.nil_append, List.intercalate_cons_of_ne_nil hnil, List.append_assoc,
          List.singleton_append, List.splitOn_append_cons_self,
          List.splitOn_intercalate c hafter hnil]
        rfl
  | cons first before ih =>
      obtain ⟨hfirst, hrest⟩ := List.forall_mem_cons.1 hbefore
      rw [List.cons_append, List.intercalate_cons_of_ne_nil (by simp), List.append_assoc,
        List.singleton_append, List.splitOn_append_cons_self_of_not_mem hfirst, ih hrest]
      rfl

/-- So all texts that were joined can be told from the whole, if it is known how many stand on each
side of the one. -/
theorem pieces_of_intercalate_eq {before before' after after' : List String}
    {piece piece' : String}
    (h : ":".intercalate (before ++ piece :: after) =
      ":".intercalate (before' ++ piece' :: after'))
    (hfront : before.length = before'.length) (hback : after.length = after'.length)
    (hbefore : ∀ s ∈ before ++ before', ':' ∉ s.toList)
    (hafter : ∀ s ∈ after ++ after', ':' ∉ s.toList) :
    before = before' ∧ piece = piece' ∧ after = after' := by
  have hsplit : ∀ {xs ys : List String} (x : String), (∀ s ∈ xs, ':' ∉ s.toList) →
      (∀ s ∈ ys, ':' ∉ s.toList) → (":".intercalate (xs ++ x :: ys)).toList.splitOn ':' =
        xs.map String.toList ++ (x.toList.splitOn ':' ++ ys.map String.toList) := by
    intro xs ys x hxs hys
    rw [String.toList_intercalate, List.map_append, List.map_cons]
    exact splitOn_intercalate_around _ (List.forall_mem_map.2 hxs) (List.forall_mem_map.2 hys)
  obtain ⟨hb, hb'⟩ := List.forall_mem_append.1 hbefore
  obtain ⟨ha, ha'⟩ := List.forall_mem_append.1 hafter
  -- both wholes are cut at every colon; counting from the front and from the back leaves the one
  have hpieces := congrArg (fun s => s.toList.splitOn ':') h
  simp only [hsplit piece hb ha, hsplit piece' hb' ha'] at hpieces
  obtain ⟨hfirst, hrest⟩ := List.append_inj hpieces (by simpa using hfront)
  obtain ⟨hmiddle, hlast⟩ := List.append_inj' hrest (by simpa using hback)
  have htexts : Function.Injective (List.map String.toList) :=
    List.map_injective_iff.2 fun _ _ => String.toList_injective
  refine ⟨htexts hfirst, String.toList_injective ?_, htexts hlast⟩
  calc piece.toList = [':'].intercalate (piece.toList.splitOn ':') :=
        (List.intercalate_splitOn ':').symm
    _ = [':'].intercalate (piece'.toList.splitOn ':') := by rw [hmiddle]
    _ = piece'.toList := List.intercalate_splitOn ':'

/-! ### Pieces without colons -/

namespace Digest

/-- The digits of a digest. -/
def digits : List Char :=
  "0123456789abcdef".toList

theorem digitChar_mem_digits {n : Nat} (h : n < 16) : Nat.digitChar n ∈ digits := by
  interval_cases n <;> decide

theorem mem_digits_of_mem_hexWord {w : UInt32} {c : Char} (h : c ∈ hexWord w) : c ∈ digits := by
  obtain ⟨k, -, hk⟩ := List.mem_flatMap.1 h
  simp only [hexByte, List.mem_cons, List.not_mem_nil, or_false] at hk
  rcases hk with rfl | rfl <;> exact digitChar_mem_digits (Nat.mod_lt _ (by decide))

theorem mem_digits_of_mem_ofText {s : String} {c : Char} (h : c ∈ (ofText s).toList) :
    c ∈ digits := by
  rw [ofText, md5, String.toList_ofList] at h
  simp only [List.mem_append] at h
  rcases h with ((h | h) | h) | h <;> exact mem_digits_of_mem_hexWord h

theorem colon_not_mem_short (s : String) : ':' ∉ (short s).toList := by
  intro h
  rw [short, String.toList_ofList] at h
  exact absurd (mem_digits_of_mem_ofText (List.mem_of_mem_take h)) (by decide)

end Digest

theorem colon_not_mem_repr (n : Int) : ':' ∉ n.repr.toList := by
  have hnat : ∀ m : Nat, ':' ∉ m.repr.toList := by
    intro m h
    rw [Nat.repr_eq_ofList_toDigits, String.toList_ofList] at h
    exact absurd (Nat.isDigit_of_mem_toDigits (by decide) (by decide) h) (by decide)
  rw [Int.repr_eq_if]
  split
  · exact hnat _
  · rw [String.toList_append]
    exact List.not_mem_append (by decide) (hnat _)

theorem Severity.colon_not_mem_name (s : Severity) : ':' ∉ s.name.toList := by
  cases s <;> decide

theorem Category.colon_not_mem_name (c : Category) : ':' ∉ c.name.toList := by
  cases c <;> decide

theorem Category.ofName?_name (c : Category) : ofName? c.name = some c := by
  cases c <;> rfl

theorem Severity.name_injective : Function.Injective Severity.name := by
  intro s s' h
  exact Option.some.inj ((ofName?_name s).symm.trans ((congrArg ofName? h).trans (ofName?_name s')))

theorem Category.name_injective : Function.Injective Category.name := by
  intro c c' h
  exact Option.some.inj ((ofName?_name c).symm.trans ((congrArg ofName? h).trans (ofName?_name c')))

/-! ### What fingerprints tell apart -/

namespace Finding

/-- A finding holds texts for title, description and rule and a whole number for the line. -/
structure Reads (f : Finding) (title description rule : String) (line : Int) : Prop where
  title : f.title = .str title
  description : f.description = .str description
  rule : f.ruleId = .str rule
  line : f.line = .int line

/-- The rule as it stands in a fingerprint, where a missing one is spelled out. -/
def effectiveRule (rule : String) : String :=
  if rule = "" then "no-rule" else rule

theorem Reads.fingerprint {f : Finding} {title description rule : String} {line : Int}
    (h : f.Reads title description rule line) :
    f.fingerprint = .ok (":".intercalate ([f.category.name, f.severity.name] ++
      effectiveRule rule :: [toString line, Digest.short title, Digest.short description])) := by
  have hrule : f.ruleLabel = .str (effectiveRule rule) := by
    rw [ruleLabel, orElse, h.rule, effectiveRule, Value.truthy]
    by_cases hempty : rule = "" <;> simp [hempty]
  have hline : (orElse f.line (.int 0)).plain = toString line := by
    rw [orElse, h.line, Value.truthy]
    by_cases hzero : line = 0 <;> simp [hzero, Value.plain, Value.quoted]
  rw [Finding.fingerprint, h.title, h.description, hrule, hline]
  rfl

/-- **What fingerprints tell apart.**  Two findings have one fingerprint exactly if they agree on
category, severity, rule and line and the digests of their titles and descriptions are the same;
the rules may be any texts, also with colons, digits and digests in them. -/
theorem fingerprint_eq_iff {f g : Finding}
    {title title' description description' rule rule' : String} {line line' : Int}
    (hf : f.Reads title description rule line) (hg : g.Reads title' description' rule' line') :
    ∃ key key', f.fingerprint = .ok key ∧ g.fingerprint = .ok key' ∧
      (key = key' ↔ f.category = g.category ∧ f.severity = g.severity ∧
        effectiveRule rule = effectiveRule rule' ∧ line = line' ∧
        Digest.short title = Digest.short title' ∧
        Digest.short description = Digest.short description') := by
  refine ⟨_, _, hf.fingerprint, hg.fingerprint, ?_, ?_⟩
  · intro h
    obtain ⟨hfront, hrule, hback⟩ := pieces_of_intercalate_eq h (by simp) (by simp)
      (by simp [Category.colon_not_mem_name, Severity.colon_not_mem_name])
      (by simp [colon_not_mem_repr, Digest.colon_not_mem_short])
    simp only [List.cons.injEq, and_true] at hfront hback
    obtain ⟨hcategory, hseverity⟩ := hfront
    obtain ⟨hline, htitle, hdescription⟩ := hback
    rw [Int.toString_eq_repr, Int.toString_eq_repr, Int.repr_inj] at hline
    exact ⟨Category.name_injective hcategory, Severity.name_injective hseverity, hrule, hline,
      htitle, hdescription⟩
  · rintro ⟨hcategory, hseverity, hrule, rfl, htitle, hdescription⟩
    rw [hcategory, hseverity, hrule, htitle, hdescription]

/-- A finding of a rule at a line. -/
def marked (rule : String) (line : Int) : Finding :=
  { title := .str "Query", description := .str "", severity := .high, category := .security
    line := .int line, ruleId := .str rule }

theorem marked_reads (rule : String) (line : Int) :
    (marked rule line).Reads "Query" "" rule line :=
  ⟨rfl, rfl, rfl, rfl⟩

/-- A colon and digits in a rule do not pass for a line; a missing rule is like the word for it. -/
theorem marked_fingerprints :
    (∃ key key', (marked "sql:7" 12).fingerprint = .ok key ∧
      (marked "sql" 7).fingerprint = .ok key' ∧ key ≠ key') ∧
    ∃ key, (marked "" (-3)).fingerprint = .ok key ∧
      (marked "no-rule" (-3)).fingerprint = .ok key := by
  obtain ⟨key, key', hkey, hkey', hiff⟩ :=
    fingerprint_eq_iff (marked_reads "sql:7" 12) (marked_reads "sql" 7)
  refine ⟨⟨key, key', hkey, hkey', fun h => absurd (hiff.1 h).2.2.2.1 (by decide)⟩, ?_⟩
  obtain ⟨key, key', hkey, hkey', hiff⟩ :=
    fingerprint_eq_iff (marked_reads "" (-3)) (marked_reads "no-rule" (-3))
  have heq : key = key' := hiff.2 ⟨rfl, rfl, rfl, rfl, rfl, rfl⟩
  exact ⟨key, hkey, heq ▸ hkey'⟩

end Finding

/-! ### The first of each fingerprint -/

namespace Report

section

variable {seen : List String} {keyed : List (String × Finding)}

/-- Every finding is kept or counted. -/
theorem length_distinctFrom (seen : List String) (keyed : List (String × Finding)) :
    (distinctFrom seen keyed).1.length + (distinctFrom seen keyed).2 = keyed.length := by
  fun_induction distinctFrom seen keyed with
  | case1 seen => rfl
  | case2 seen key f rest hknown _ ih => exact congrArg (· + 1) ih
  | case3 seen key f rest hnew _ ih =>
      rw [List.length_cons, List.length_cons, ← ih, Nat.add_right_comm]

theorem sublist_distinctFrom (seen : List String) (keyed : List (String × Finding)) :
    (distinctFrom seen keyed).1.Sublist (keyed.map Prod.snd) := by
  fun_induction distinctFrom seen keyed with
  | case1 seen => exact .slnil
  | case2 seen key f rest hknown _ ih => exact ih.cons f
  | case3 seen key f rest hnew _ ih => exact ih.cons_cons f

/-- What is kept has a fingerprint that was not seen. -/
theorem new_of_mem_distinctFrom (hkeys : ∀ e ∈ keyed, e.2.fingerprint = .ok e.1) :
    ∀ f ∈ (distinctFrom seen keyed).1, ∃ key, f.fingerprint = .ok key ∧ key ∉ seen := by
  fun_induction distinctFrom seen keyed with
  | case1 seen => exact List.forall_mem_nil _
  | case2 seen key f rest hknown _ ih => exact ih (List.forall_mem_cons.1 hkeys).2
  | case3 seen key f rest hnew _ ih =>
      obtain ⟨hkey, hrest⟩ := List.forall_mem_cons.1 hkeys
      refine List.forall_mem_cons.2 ⟨⟨key, hkey, by simpa using hnew⟩, fun g hg => ?_⟩
      obtain ⟨key', hkey', hnew'⟩ := ih hrest g hg
      exact ⟨key', hkey', fun hseen => hnew' (List.mem_cons_of_mem key hseen)⟩

theorem nodup_distinctFrom (hkeys : ∀ e ∈ keyed, e.2.fingerprint = .ok e.1) :
    ((distinctFrom seen keyed).1.map Finding.fingerprint).Nodup := by
  fun_induction distinctFrom seen keyed with
  | case1 seen => exact .nil
  | case2 seen key f rest hknown _ ih => exact ih (List.forall_mem_cons.1 hkeys).2
  | case3 seen key f rest hnew _ ih =>
      obtain ⟨hkey, hrest⟩ := List.forall_mem_cons.1 hkeys
      refine List.nodup_cons.2 ⟨fun hmem => ?_, ih hrest⟩
      obtain ⟨g, hg, heq⟩ := List.mem_map.1 hmem
      obtain ⟨key', hkey', hnew'⟩ := new_of_mem_distinctFrom hrest g hg
      rw [hkey, hkey'] at heq
      exact hnew' (Except.ok.inj heq ▸ List.mem_cons_self)

/-- Every fingerprint that was not seen is among those of what is kept. -/
theorem distinctFrom_covers (hkeys : ∀ e ∈ keyed, e.2.fingerprint = .ok e.1) :
    ∀ e ∈ keyed, e.1 ∉ seen → ∃ g ∈ (distinctFrom seen keyed).1, g.fingerprint = .ok e.1 := by
  fun_induction distinctFrom seen keyed with
  | case1 seen => exact List.forall_mem_nil _
  | case2 seen key f rest hknown _ ih =>
      refine List.forall_mem_cons.2 ⟨fun hnew => ?_, ih (List.forall_mem_cons.1 hkeys).2⟩
      exact absurd (by simpa using hknown) hnew
  | case3 seen key f rest hnew _ ih =>
      obtain ⟨hkey, hrest⟩ := List.forall_mem_cons.1 hkeys
      refine List.forall_mem_cons.2 ⟨fun _ => ⟨f, List.mem_cons_self, hkey⟩, fun e he hunseen => ?_⟩
      -- from here on the fingerprint just kept counts as seen, so it is covered now or never
      by_cases hsame : e.1 = key
      · exact ⟨f, List.mem_cons_self, hsame ▸ hkey⟩
      · obtain ⟨g, hg, hgkey⟩ := ih hrest e he (by simpa [hsame] using hunseen)
        exact ⟨g, List.mem_cons_of_mem f hg, hgkey⟩

/-- Nothing is dropped where no fingerprint was seen and none comes twice. -/
theorem distinctFrom_of_pairwise (hseen : ∀ e ∈ keyed, e.1 ∉ seen)
    (hapart : keyed.Pairwise fun e e' => e.1 ≠ e'.1) :
    distinctFrom seen keyed = (keyed.map Prod.snd, 0) := by
  fun_induction distinctFrom seen keyed with
  | case1 seen => rfl
  | case2 seen key f rest hknown _ ih =>
      exact absurd (by simpa using hknown) (List.forall_mem_cons.1 hseen).1
  | case3 seen key f rest hnew later ih =>
      obtain ⟨hother, hrest⟩ := List.pairwise_cons.1 hapart
      have hlater : later = (rest.map Prod.snd, 0) := by
        refine ih (fun e he hmem => ?_) hrest
        rcases List.mem_cons.1 hmem with heq | hmem
        · exact hother e he heq.symm
        · exact (List.forall_mem_cons.1 hseen).2 e he hmem
      rw [hlater, List.map_cons]

end

/-- Findings with pairwise different fingerprints are all kept. -/
theorem distinct_of_nodup {kept : List Finding}
    (h : ∀ f ∈ kept, ∃ key, f.fingerprint = .ok key)
    (hapart : (kept.map Finding.fingerprint).Nodup) : distinct kept = .ok (kept, 0) := by
  obtain ⟨⟨again, dropped⟩, hagain⟩ := distinct_ok h
  obtain ⟨keyed, rfl, hkeys, rfl, rfl⟩ := distinct_eq_firsts hagain
  rw [hagain, firsts_eq_distinctFrom, distinctFrom_of_pairwise (fun _ _ => List.not_mem_nil)]
  refine (List.pairwise_map.1 (List.pairwise_map.1 hapart)).imp_of_mem ?_
  intro e e' he he' hne heq
  exact hne ((hkeys e he).trans (heq ▸ (hkeys e' he').symm))

/-- How many findings have an earlier finding of the same fingerprint. -/
def repeated (keyed : List (String × Finding)) : Nat :=
  keyed.zipIdx.countP fun x => (keyed.take x.2).any fun y => y.1 == x.1.1

theorem length_firsts (keyed : List (String × Finding)) :
    (firsts keyed).length + repeated keyed = keyed.length := by
  -- a finding is kept or repeated, as there is none or one before it
  have hother : ∀ x : (String × Finding) × Nat, ((keyed.take x.2).any fun y => y.1 == x.1.1) =
      decide ¬ ((keyed.take x.2).all fun y => y.1 != x.1.1) = true := by
    intro x
    rw [Bool.eq_iff_iff]
    simp
  rw [firsts, List.length_map, ← List.countP_eq_length_filter, repeated, funext hother,
    ← List.length_eq_countP_add_countP, List.length_zipIdx]

/-- What is kept of some findings, and how many are dropped. -/
structure Sifted (all kept : List Finding) (dropped : Nat) : Prop where
  /-- Kept are the findings without an earlier one of the same fingerprint, dropped the others. -/
  first : ∃ keyed : List (String × Finding), keyed.map Prod.snd = all ∧
    (∀ e ∈ keyed, e.2.fingerprint = .ok e.1) ∧ kept = firsts keyed ∧ dropped = repeated keyed
  sublist : kept.Sublist all
  apart : (kept.map Finding.fingerprint).Nodup
  covers : ∀ f ∈ all, ∃ g ∈ kept, g.fingerprint = f.fingerprint
  count : kept.length + dropped = all.length
  again : distinct kept = .ok (kept, 0)

/-- Findings are sifted by their fingerprints. -/
theorem sifted_of_fingerprints {all : List Finding}
    (h : ∀ f ∈ all, ∃ key, f.fingerprint = .ok key) :
    ∃ kept dropped, distinct all = .ok (kept, dropped) ∧ Sifted all kept dropped := by
  obtain ⟨⟨kept, dropped⟩, hkept⟩ := distinct_ok h
  obtain ⟨keyed, rfl, hkeys, hfirsts, hdropped⟩ := distinct_eq_firsts hkept
  have heq : kept = (distinctFrom [] keyed).1 := hfirsts.trans (firsts_eq_distinctFrom keyed)
  have hcount : kept.length + dropped = keyed.length := by
    rw [heq, hdropped, length_distinctFrom]
  have hrepeated : dropped = repeated keyed := by
    have hfirst := length_firsts keyed
    rw [← hfirsts] at hfirst
    omega
  have hsublist : kept.Sublist (keyed.map Prod.snd) := heq ▸ sublist_distinctFrom [] keyed
  have hapart : (kept.map Finding.fingerprint).Nodup := heq ▸ nodup_distinctFrom hkeys
  refine ⟨kept, dropped, hkept, ⟨keyed, rfl, hkeys, hfirsts, hrepeated⟩, hsublist, hapart, ?_,
    by rwa [List.length_map], distinct_of_nodup (fun f hf => h f (hsublist.subset hf)) hapart⟩
  intro f hf
  obtain ⟨e, he, rfl⟩ := List.mem_map.1 hf
  rw [heq, hkeys e he]
  exact distinctFrom_covers hkeys e he List.not_mem_nil

/-- Where a finding is does not show in its fingerprint. -/
theorem fingerprint_placed (path : Value) (f : Finding) :
    (placed path f).fingerprint = f.fingerprint := by
  unfold placed
  split <;> rfl

theorem length_allFindings (path : Value) (outcomes : List Outcome) :
    (allFindings path outcomes).length = (outcomes.map fun o => o.findings.length).sum := by
  simp [allFindings, List.length_flatMap]

/-- **A report holds one finding of each fingerprint, and counts the others.**  Findings are sifted
by their fingerprints, in whatever list they come; so are those of all outcomes about a file.  For
each of them the report holds exactly one finding of the same fingerprint, and the number of
duplicates and the findings of the report add up to all findings of all outcomes. -/
theorem collect_keeps_one_per_fingerprint :
    (∀ all : List Finding, (∀ f ∈ all, ∃ key, f.fingerprint = .ok key) →
      ∃ kept dropped, distinct all = .ok (kept, dropped) ∧ Sifted all kept dropped) ∧
    ∀ (path : Value) (outcomes : List Outcome) (parseErrors : List Value) (isPartial time : Value),
      (∀ o ∈ outcomes, ∀ f ∈ o.findings, ∃ key, f.fingerprint = .ok key) →
      ∃ r dropped, collect path outcomes parseErrors isPartial time = .ok r ∧
        Sifted (allFindings path outcomes) r.findings dropped ∧ r.duplicates = .nat dropped ∧
        (∀ o ∈ outcomes, ∀ f ∈ o.findings,
          ∃! g, g ∈ r.findings ∧ g.fingerprint = f.fingerprint) ∧
        dropped + r.findings.length = (outcomes.map fun o => o.findings.length).sum := by
  refine ⟨fun all => sifted_of_fingerprints, ?_⟩
  intro path outcomes parseErrors isPartial time h
  have hplaced : ∀ o ∈ outcomes, ∀ f ∈ o.findings, placed path f ∈ allFindings path outcomes :=
    fun o ho f hf => List.mem_flatMap.2 ⟨o, ho, List.mem_map_of_mem hf⟩
  have hall : ∀ f ∈ allFindings path outcomes, ∃ key, f.fingerprint = .ok key := by
    intro f hf
    obtain ⟨o, ho, hmem⟩ := List.mem_flatMap.1 hf
    obtain ⟨g, hg, rfl⟩ := List.mem_map.1 hmem
    rw [fingerprint_placed]
    exact h o ho g hg
  obtain ⟨kept, dropped, hkept, hsifted⟩ := sifted_of_fingerprints hall
  have hcollect : collect path outcomes parseErrors isPartial time =
      .ok { path, findings := kept, outcomes, parseErrors, isPartial, time
            duplicates := .nat dropped } := by
    rw [collect, hkept]
    rfl
  have hcount := hsifted.count
  refine ⟨_, dropped, hcollect, hsifted, rfl, ?_, ?_⟩
  · intro o ho f hf
    obtain ⟨g, hg, hkey⟩ := hsifted.covers _ (hplaced o ho f hf)
    rw [fingerprint_placed] at hkey
    refine ⟨g, ⟨hg, hkey⟩, ?_⟩
    rintro g' ⟨hg', hkey'⟩
    exact List.inj_on_of_nodup_map hsifted.apart hg' hg (hkey'.trans hkey.symm)
  · rw [← length_allFindings path, ← hcount, Nat.add_comm]

/-- Two outcomes about a file that share a finding. -/
def overlapping : List Outcome :=
  [{ analyzer := "quality", filePath := "a.php", findings := [.marked "sql" 1] },
   { analyzer := "security", filePath := "a.php"
     findings := [.marked "sql" 1, .marked "sql:1" 2] }]

/-- Of their three findings the report holds each fingerprint once, and counts the rest. -/
theorem overlapping_is_collected :
    ∃ r dropped, collect "a.php" overlapping [] (.bool false) (.float 0.0) = .ok r ∧
      r.duplicates = .nat dropped ∧ dropped + r.findings.length = 3 ∧
      (∃! g, g ∈ r.findings ∧ g.fingerprint = (Finding.marked "sql" 1).fingerprint) ∧
      distinct r.findings = .ok (r.findings, 0) := by
  have htexts : ∀ o ∈ overlapping, ∀ f ∈ o.findings, ∃ key, f.fingerprint = .ok key := by
    have hmarked : ∀ rule line, ∃ key, (Finding.marked rule line).fingerprint = .ok key :=
      fun rule line => ⟨_, (Finding.marked_reads rule line).fingerprint⟩
    simp [overlapping, hmarked]
  obtain ⟨r, dropped, hcollect, hsifted, hdropped, hone, hcount⟩ :=
    collect_keeps_one_per_fingerprint.2 "a.php" overlapping [] (.bool false) (.float 0.0) htexts
  exact ⟨r, dropped, hcollect, hdropped, hcount, hone _ List.mem_cons_self _ List.mem_cons_self,
    hsifted.again⟩

end Report

end PhpAudit
