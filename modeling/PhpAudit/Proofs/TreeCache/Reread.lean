/-
**Parsing a content twice in a row.**

A parse that is not found is stored behind all other entries, and then a batch of the oldest goes if
there are too many.  The batch has no bound of its own: it can be larger than the cache, and then
the entry that was just stored goes too.  So the second of two parses is a hit unless the first one
filled the cache beyond its capacity and the batch takes in all that the cache holds.

Main definitions:

* `TreeCache.others` — how many entries are stored under other keys.

Main results:

* `TreeCache.finds_after_parse_iff` — when a parse is found again;
* `Audit.reparse_from_cache_iff` — **the same for every cache that settings can give**, and it is
  always found when the batch is at most the capacity.
-/

import PhpAudit.Audit.Basic
import PhpAudit.Proofs.Number.Nearest
import PhpAudit.Proofs.Settings.Admitted
import PhpAudit.Proofs.TreeCache.Recency
import PhpAudit.Proofs.TreeCache.Transparency
import PhpAudit.Proofs.WorkPool.Verdict

set_option autoImplicit false

namespace PhpAudit

variable {τ : Type}

theorem Assoc.erase_erase {α : Type} (m : Assoc String α) (key : String) :
    erase (erase m key) key = erase m key := by
  rw [erase, erase, List.filter_filter]
  simp

/-- What stands behind all other entries is found unless it is cut off with them. -/
theorem Assoc.get?_drop_erase {α : Type} (m : Assoc String α) (key : String) (v : α) (n : Nat) :
    get? ((erase m key ++ [(key, v)]).drop n) key =
      if n ≤ (erase m key).length then some v else none := by
  have hlast : ∀ front : Assoc String α, (∀ e ∈ front, e.1 ≠ key) →
      get? (front ++ [(key, v)]) key = some v := by
    intro front hfront
    induction front with
    | nil => simp [get?]
    | cons e front ih =>
        have hne : e.1 ≠ key := hfront e List.mem_cons_self
        rw [List.cons_append, get?, if_neg (by simpa using hne)]
        exact ih fun e' he' => hfront e' (List.mem_cons_of_mem _ he')
  have hother : ∀ e ∈ erase m key, e.1 ≠ key := by
    intro e he
    simpa using (List.mem_filter.1 he).2
  split
  · rename_i hin
    rw [List.drop_append_of_le_length hin]
    exact hlast _ fun e he => hother e (List.mem_of_mem_drop he)
  · rename_i hout
    rw [List.drop_eq_nil_of_le (by simp; omega)]
    rfl

namespace TreeCache

/-- How many entries are stored under other keys. -/
def others (c : TreeCache τ) (key : String) : Nat :=
  (Assoc.erase c.entries key).length

/-- The entries with one put behind all others. -/
def behind (c : TreeCache τ) (key : String) (e : Entry τ) : Assoc String (Entry τ) :=
  Assoc.erase c.entries key ++ [(key, e)]

variable {c : TreeCache τ}

/-- A new entry goes too if the batch takes in all others and there is no room. -/
theorem surplus_le_iff (hcapacity : 1 ≤ c.capacity) (count : Nat) :
    c.surplus (count + 1) ≤ count ↔ (count : Int) < c.capacity ∨ c.batch ≤ count := by
  rw [surplus]
  split
  · omega
  · omega

theorem put_entries (c : TreeCache τ) (now : τ) (path digest : String) (file : SourceFile) :
    (c.put now path digest file).entries =
      (c.behind (key path digest) ⟨file, now⟩).drop
        (c.surplus (c.others (key path digest) + 1)) := by
  simp only [put, others]
  rw [List.length_append, List.length_singleton]
  split
  · rename_i hover
    rw [surplus, if_neg (by omega), evict]
    simp only [List.length_append, List.length_singleton]
    rfl
  · rename_i hroom
    rw [surplus_of_le (by omega), List.drop_zero]
    rfl

variable [Timeline τ]

theorem finds_iff {now : τ} {path digest : String} :
    c.finds now path digest = true ↔ ∃ e, Assoc.get? c.entries (key path digest) = some e ∧
      c.expired now e = false ∧ e.file.digest = digest ∧ e.file.path = path := by
  obtain ⟨hnone, hget⟩ | ⟨e, he, hold, hget⟩ | ⟨e, he, hnew, hwrong, hget⟩ |
    ⟨e, he, hnew, hdigest, hpath, hget⟩ := c.get_cases now path digest
  · simp [finds, hget, hnone]
  · simp [finds, hget, he, hold]
  · have hwrong' : ¬ (e.file.digest = digest ∧ e.file.path = path) := by
      rintro ⟨rfl, rfl⟩
      exact hwrong.elim (fun h => h rfl) fun h => h rfl
    simp [finds, hget, he, hnew, hwrong']
  · simp [finds, hget, he, hnew, hdigest, hpath]

theorem fromCache_parse (c : TreeCache τ) (now : τ) (path content encoding : String) :
    (c.parse now path content encoding).1.fromCache = c.finds now path (digest content) := by
  cases hget : c.get now path (digest content) with
  | mk found c' =>
      cases found with
      | hit file => simp [parse, finds, hget]
      | miss => simp [parse, finds, hget, parseAndStore, parseDirect]
      | mismatch k => simp [parse, finds, hget, parseAndStore, parseDirect]

/-- A lookup that finds nothing leaves the other entries and the limits as they are. -/
theorem parse_of_not_finds {now : τ} {path content : String}
    (h : c.finds now path (digest content) = false) (encoding : String) :
    ∃ c' : TreeCache τ,
      c.parse now path content encoding = c'.parseAndStore now path content encoding ∧
      Assoc.erase c'.entries (key path (digest content)) =
        Assoc.erase c.entries (key path (digest content)) ∧
      c'.capacity = c.capacity ∧ c'.batch = c.batch ∧ c'.ttl = c.ttl ∧
      c'.storeFails = c.storeFails := by
  obtain ⟨hnone, hget⟩ | ⟨e, he, hold, hget⟩ | ⟨e, he, hnew, hwrong, hget⟩ |
    ⟨e, he, hnew, hdigest, hpath, hget⟩ := c.get_cases now path (digest content)
  · refine ⟨(c.get now path (digest content)).2, by simp only [parse, hget], ?_⟩
    rw [hget]
    exact ⟨rfl, rfl, rfl, rfl, rfl⟩
  · refine ⟨(c.get now path (digest content)).2, by simp only [parse, hget], ?_⟩
    rw [hget]
    exact ⟨Assoc.erase_erase _ _, rfl, rfl, rfl, rfl⟩
  · refine ⟨(c.get now path (digest content)).2.bypass, by simp only [parse, hget], ?_⟩
    rw [hget]
    exact ⟨Assoc.erase_erase _ _, rfl, rfl, rfl, rfl⟩
  · simp [finds, hget] at h

/-- What a parse leaves when the lookup has found nothing and stores do not fail. -/
theorem parse_entries_of_not_finds {now : τ} {path content : String}
    (h : c.finds now path (digest content) = false) (hstores : c.storeFails = false)
    (encoding : String) :
    (c.parse now path content encoding).2.ttl = c.ttl ∧
    ∃ file : SourceFile, file.path = path ∧ file.digest = digest content ∧
      (c.parse now path content encoding).2.entries =
        (c.behind (key path (digest content)) ⟨file, now⟩).drop
          (c.surplus (c.others (key path (digest content)) + 1)) := by
  obtain ⟨c', hparse, herase, hcapacity, hbatch, httl, hfails⟩ := parse_of_not_finds h encoding
  have hsurplus : (c'.parseDirect path content encoding).2.surplus = c.surplus := by
    funext count
    simp only [surplus, parseDirect, hcapacity, hbatch]
  have hstore : (c.parse now path content encoding).2 =
      (c'.parseDirect path content encoding).2.put now path (digest content)
        (c'.parseDirect path content encoding).1 := by
    rw [hparse, parseAndStore]
    exact if_neg (by simp [parseDirect, hfails, hstores])
  rw [hstore]
  constructor
  · simp only [put]
    split <;> exact httl
  · refine ⟨(c'.parseDirect path content encoding).1, rfl, rfl, ?_⟩
    have hbehind : ∀ e, (c'.parseDirect path content encoding).2.behind
        (key path (digest content)) e = c.behind (key path (digest content)) e := by
      intro e
      simp only [behind, parseDirect, herase]
    have hothers : (c'.parseDirect path content encoding).2.others (key path (digest content)) =
        c.others (key path (digest content)) := by
      simp only [others, parseDirect, herase]
    rw [put_entries, hsurplus, hbehind, hothers]

/-- A file that is stored now is found now, unless it is cut off at once. -/
theorem finds_behind_iff {c' : TreeCache τ} {now : τ} {path digest : String} {e : Entry τ}
    {n : Nat} (hentries : c'.entries = (c.behind (key path digest) e).drop n)
    (hfresh : c'.expired now e = false) (hdigest : e.file.digest = digest)
    (hpath : e.file.path = path) :
    c'.finds now path digest = true ↔ n ≤ c.others (key path digest) := by
  rw [finds_iff, hentries, behind, Assoc.get?_drop_erase, others]
  split
  · rename_i hin
    exact ⟨fun _ => hin, fun _ => ⟨e, rfl, hfresh, hdigest, hpath⟩⟩
  · rename_i hout
    exact ⟨fun ⟨_, h, _⟩ => (by cases h), fun h => absurd h hout⟩

/-- **When a parse is found again at once.** -/
theorem finds_after_parse_iff (hcapacity : 1 ≤ c.capacity) (hstores : c.storeFails = false)
    {now : τ} (hnow : ∀ ttl ∈ c.ttl, Timeline.exceeds (Timeline.since now now) ttl = false)
    (path content encoding : String) :
    (c.parse now path content encoding).2.finds now path (digest content) = true ↔
      c.finds now path (digest content) = true ∨
      (c.others (key path (digest content)) : Int) < c.capacity ∨
      c.batch ≤ c.others (key path (digest content)) := by
  cases hfound : c.finds now path (digest content) with
  | true =>
      rw [parse_of_finds hfound]
      obtain ⟨_, hget⟩ | ⟨_, _, _, hget⟩ | ⟨_, _, _, _, hget⟩ |
        ⟨e, _, hnew, hdigest, hpath, hget⟩ := c.get_cases now path (digest content)
      · simp [finds, hget] at hfound
      · simp [finds, hget] at hfound
      · simp [finds, hget] at hfound
      · have hentries : (c.get now path (digest content)).2.entries =
            (c.behind (key path (digest content)) e).drop 0 := by
          rw [hget]
          rfl
        have hfresh : (c.get now path (digest content)).2.expired now e = false := by
          rw [hget]
          exact hnew
        rw [finds_behind_iff hentries hfresh hdigest hpath]
        simp
  | false =>
      obtain ⟨httl, file, hpath, hdigest, hentries⟩ :=
        parse_entries_of_not_finds hfound hstores encoding
      have hfresh : (c.parse now path content encoding).2.expired now ⟨file, now⟩ = false := by
        rw [expired, httl]
        cases hlimit : c.ttl with
        | none => rfl
        | some ttl => exact hnow ttl hlimit
      rw [finds_behind_iff hentries hfresh hdigest hpath, surplus_le_iff hcapacity]
      simp

end TreeCache

namespace Audit

open TreeCache (key digest others)

/-- The cache that settings give. -/
theorem make_cache {settings : Settings} (h : settings.Admitted) (grammar : Grammar) :
    ∃ a, make settings grammar = .ok a ∧ settings.cacheCapacity = .ok (.int a.cache.capacity) ∧
      1 ≤ a.cache.capacity ∧ a.cache.storeFails = false ∧
      (∀ ttl ∈ a.cache.ttl, ¬ ttl < 0.0) ∧
      (settings.cacheEvictionBatch = .ok .null → a.cache.batch ≤ a.cache.capacity) := by
  obtain ⟨capacity, batch, ttl, hcapacity, hbatch, httl, hlimits⟩ := h.cache
  let shown := if batch.truthy then batch else .int (max 1 (capacity / 10))
  refine ⟨{ settings, cache := { grammar, capacity, batch := shown.int?.getD 1, batchShown := shown
                                 ttl := ttl.number?.map Number.nearFloat } }, ?_, hcapacity,
    hlimits.capacity, rfl, ?_, ?_⟩
  · rw [make, hcapacity, hbatch, httl]
    rfl
  · intro t ht
    obtain ⟨n, hn, rfl⟩ := Option.map_eq_some_iff.1 ht
    rcases hlimits.ttl with rfl | hpositive
    · cases hn
    · rw [Settings.isPositive, hn] at hpositive
      exact Number.not_nearFloat_lt_zero (by simpa using hpositive)
  · intro hnull
    obtain rfl : batch = .null := Except.ok.inj (hbatch.symm.trans hnull)
    have hleast := hlimits.capacity
    show max 1 (capacity / 10) ≤ capacity
    omega

/-- **When the second of two parses in a row is a hit**, with any settings that pass the check and
any entries in the cache: when the first was one, when there was room, or when the batch does not
take in all other entries.  A batch of at most the capacity never does, and without a batch in the
settings it is as small. -/
theorem reparse_from_cache_iff {settings : Settings} (h : settings.Admitted) (grammar : Grammar) :
    ∃ a, make settings grammar = .ok a ∧
      (settings.cacheEvictionBatch = .ok .null → a.cache.batch ≤ a.cache.capacity) ∧
      ∀ (entries : Assoc String (TreeCache.Entry Float)) (counts : TreeCache.Counts) (now : Float)
        (path content encoding encoding' : String),
        let cache := { a.cache with entries, counts }
        let first := cache.parse now path content encoding
        let second := first.2.parse now path content encoding'
        (second.1.fromCache = true ↔ first.1.fromCache = true ∨
          (cache.others (key path (digest content)) : Int) < a.cache.capacity ∨
          a.cache.batch ≤ cache.others (key path (digest content))) ∧
        (a.cache.batch ≤ a.cache.capacity → second.1.fromCache = true) := by
  obtain ⟨a, hmake, _, hcapacity, hstores, httl, hnull⟩ := make_cache h grammar
  refine ⟨a, hmake, hnull, ?_⟩
  intro entries counts now path content encoding encoding' cache first second
  have hiff : second.1.fromCache = true ↔ first.1.fromCache = true ∨
      (cache.others (key path (digest content)) : Int) < a.cache.capacity ∨
      a.cache.batch ≤ cache.others (key path (digest content)) := by
    rw [TreeCache.fromCache_parse, TreeCache.fromCache_parse]
    exact TreeCache.finds_after_parse_iff (c := cache) hcapacity hstores
      (fun ttl ht => WorkPool.not_exceeds_since_self (httl ttl ht) now) path content encoding
  refine ⟨hiff, fun hbatch => hiff.2 ?_⟩
  omega

/-- Settings for a cache of one file from which two go at once. -/
def oneFileSettings : Settings :=
  Settings.defaults.merge
    [("analysis", .dict [("cache_capacity", .int 1), ("cache_eviction_batch", .int 2)])]

theorem oneFileSettings_admitted : oneFileSettings.Admitted :=
  .made (show Settings.ofParts [("analysis", .dict [("cache_capacity", .int 1),
    ("cache_eviction_batch", .int 2)])] .null = .ok oneFileSettings from rfl)

/-- As long as the cache has room, the second parse is a hit. -/
theorem oneFileSettings_reparse_from_cache :
    oneFileSettings.Admitted ∧ ∃ a, make oneFileSettings TreeCache.wordGrammar = .ok a ∧
      ((a.cache.parse 0.0 "a.php" "one" "utf-8").2.parse 0.0 "a.php" "one" "utf-8").1.fromCache =
        true := by
  obtain ⟨a, hmake, -, hreparse⟩ :=
    reparse_from_cache_iff oneFileSettings_admitted TreeCache.wordGrammar
  have hempty : a.cache.entries = [] ∧ a.cache.capacity = 1 := by
    cases hmake
    exact ⟨rfl, rfl⟩
  have hroom : (a.cache.others (key "a.php" (digest "one")) : Int) < a.cache.capacity := by
    rw [others, hempty.1, hempty.2]
    decide
  exact ⟨oneFileSettings_admitted, a, hmake,
    (hreparse a.cache.entries a.cache.counts 0.0 "a.php" "one" "utf-8" "utf-8").1.2
      (.inr (.inl hroom))⟩

/-- Once it is full, a parse is stored and goes at once, so that parsing again is no hit. -/
theorem oneFileSettings_evicts_own_write :
    ∃ a, make oneFileSettings TreeCache.wordGrammar = .ok a ∧
      let full := (a.cache.parse 0.0 "a.php" "one" "utf-8").2
      let first := full.parse 0.0 "b.php" "two" "utf-8"
      full.size = 1 ∧ first.2.size = 0 ∧
        (first.2.parse 0.0 "b.php" "two" "utf-8").1.fromCache = false :=
  ⟨_, rfl, by decide +kernel⟩

end Audit

end PhpAudit
