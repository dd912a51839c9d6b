/-
**The counters of a cache account for everything that was done with it.**

A cache counts hits and misses, parses, faulty parses and evictions, each at its own place in the
code, and nothing there says how the counters hang together.  This module keeps, beside a cache, a
ledger of what its callers can see: how many lookups they made and how many of these were refused,
how many parses they asked for and how many they got from the cache, which entries went and which
were new.  The counters are then compared with the ledger.

A parse is a lookup that may be followed by a parse without the cache and a store.  So what one use
does to the books is said for each of these parts, and a parse is put together from them.

Main definitions:

* `TreeCache.Ledger`, `TreeCache.Ledger.add` — what callers see in a stretch of a history;
* `TreeCache.seen` — the entry of one use in the ledger;
* `TreeCache.Balanced` — a cache whose counters agree with a ledger.

Main results:

* `TreeCache.Balanced.get`, `TreeCache.Balanced.put`, `TreeCache.Balanced.parseDirect` — the parts
  of a use keep the books balanced;
* `TreeCache.Balanced.use`, `TreeCache.Balanced.audit` — so do a use and a whole history;
* `TreeCache.counters_are_exact` — **the four laws of the counters**.
-/

import PhpAudit.Proofs.TreeCache.Recency
import PhpAudit.Proofs.TreeCache.Transparency

set_option autoImplicit false

namespace PhpAudit.TreeCache

variable {τ : Type}

/-! ### The ledger -/

/-- What callers of a cache see in a stretch of its history. -/
structure Ledger where
  /-- Lookups, those of parses among them. -/
  lookups : Nat := 0
  /-- Lookups that met an entry of another path or digest. -/
  refused : Nat := 0
  /-- Parses that were asked for. -/
  parses : Nat := 0
  /-- Parses that came from the cache. -/
  served : Nat := 0
  /-- Parses that did not, and have faults. -/
  faulty : Nat := 0
  /-- Entries that went because they were too old, did not belong to their key, were invalidated or
  were cleared. -/
  dropped : Nat := 0
  /-- Stores under a key that was not there. -/
  added : Nat := 0
  deriving DecidableEq

/-- Two stretches, one after the other. -/
def Ledger.add (a b : Ledger) : Ledger :=
  { lookups := a.lookups + b.lookups, refused := a.refused + b.refused
    parses := a.parses + b.parses, served := a.served + b.served
    faulty := a.faulty + b.faulty, dropped := a.dropped + b.dropped
    added := a.added + b.added }

theorem Ledger.add_assoc (a b c : Ledger) : (a.add b).add c = a.add (b.add c) := by
  simp only [add, Nat.add_assoc]

section Seen

variable [Timeline τ] (c : TreeCache τ)

/-- Whether a lookup is refused. -/
def refuses (now : τ) (path digest : String) : Bool :=
  match (c.get now path digest).1 with
  | .mismatch _ => true
  | _ => false

/-- The entry of a lookup. -/
def seenGet (now : τ) (path digest : String) : Ledger :=
  { lookups := 1, refused := (c.refuses now path digest).toNat
    dropped := (c.stale now path digest).toNat }

omit [Timeline τ] in
/-- The entry of a store. -/
def seenPut (path digest : String) : Ledger :=
  { added := if c.storeFails ∨ key path digest ∈ c.keys then 0 else 1 }

/-- The entry of what a parse is beyond its lookup.  A file that is not served is stored in what the
lookup leaves of the cache. -/
def seenParse (now : τ) (path content encoding : String) : Ledger :=
  let file := (c.parse now path content encoding).1
  if file.fromCache then { parses := 1, served := 1 }
  else Ledger.add { parses := 1, faulty := (!file.faults.isEmpty).toNat }
    ((c.get now path (digest content)).2.seenPut path (digest content))

/-- The entry of a use. -/
def seen : Use τ → Ledger
  | .get now path digest => c.seenGet now path digest
  | .put _ path digest _ => c.seenPut path digest
  | .parse now path content encoding =>
    (c.seenGet now path (digest content)).add (c.seenParse now path content encoding)
  | .invalidate path => { dropped := (c.invalidate path).1 }
  | .clear => { dropped := c.size }

/-- A whole history, with its ledger. -/
def audit (uses : List (Use τ)) : TreeCache τ × Ledger :=
  uses.foldl (fun s u => (s.1.use u, s.2.add (s.1.seen u))) (c, {})

end Seen

/-- A cache whose counters agree with a ledger. -/
structure Balanced (c : TreeCache τ) (d : Ledger) : Prop where
  lookups : c.counts.hits + c.counts.misses + d.refused = d.lookups
  parses : c.counts.parsed + d.served = d.parses
  faulty : c.counts.faulty = d.faulty
  recovered : c.counts.recovered ≤ c.counts.faulty
  entries : c.size + c.counts.evictions + d.dropped = d.added
  /-- So that a removal takes out one entry. -/
  distinct : c.keys.Nodup

variable {c : TreeCache τ} {d : Ledger}

/-! ### Stores -/

/-- What is left of distinct keys without one of them. -/
theorem length_others (hdistinct : c.keys.Nodup) (k : String) :
    (c.keys.filter fun k' => k' ≠ k).length + (if k ∈ c.keys then 1 else 0) = c.size := by
  have herase : (c.keys.filter fun k' => k' ≠ k) = c.keys.erase k := by
    rw [hdistinct.erase_eq_filter]
    exact List.filter_congr fun k' _ => Bool.eq_iff_iff.2 (by simp)
  rw [herase, ← keys_length]
  split
  · rename_i hmem
    have hpos := List.length_pos_of_mem hmem
    rw [List.length_erase_of_mem hmem]
    omega
  · rename_i habsent
    rw [List.erase_of_not_mem habsent, Nat.add_zero]

theorem length_erase (hdistinct : c.keys.Nodup) {k : String} {e : Entry τ}
    (he : Assoc.get? c.entries k = some e) :
    (Assoc.erase c.entries k).length + 1 = c.entries.length := by
  have hothers := length_others hdistinct k
  have hmem : k ∈ c.keys := List.mem_map.2 ⟨_, Assoc.mem_of_get? he, rfl⟩
  rw [if_pos hmem, keys, ← Assoc.keys_erase] at hothers
  simpa [Assoc.keys, size] using hothers

theorem nodup_movedLast (hdistinct : c.keys.Nodup) (k : String) : (c.movedLast k).Nodup := by
  rw [movedLast, List.nodup_append]
  refine ⟨hdistinct.filter _, by simp, ?_⟩
  simp +contextual

/-- A store counts what it evicts, and nothing else. -/
theorem put_counts (c : TreeCache τ) (now : τ) (path digest : String) (file : SourceFile) :
    (c.put now path digest file).counts =
      { c.counts with
        evictions := c.counts.evictions + c.surplus (c.movedLast (key path digest)).length } := by
  have hlength : (c.movedLast (key path digest)).length =
      (Assoc.erase c.entries (key path digest)).length + 1 := by
    rw [movedLast, keys, ← Assoc.keys_erase]
    simp [Assoc.keys]
  simp only [put, hlength, List.length_append, List.length_singleton]
  split
  · rename_i hover
    rw [surplus, if_neg (by omega), evict]
    simp
  · rename_i hroom
    rw [surplus_of_le (by omega), Nat.add_zero]

/-- **A store keeps the books balanced**: what it evicts is counted, and the other entries become
more by one if the key is new. -/
theorem Balanced.put (h : c.Balanced d) (hstores : c.storeFails = false) (now : τ)
    (path digest : String) (file : SourceFile) :
    (c.put now path digest file).Balanced (d.add (c.seenPut path digest)) := by
  have hkeys := c.put_keys now path digest file
  have hcounts := c.put_counts now path digest file
  have hle := c.surplus_le (c.movedLast (key path digest)).length
  have hsize : (c.put now path digest file).size =
      (c.movedLast (key path digest)).length -
        c.surplus (c.movedLast (key path digest)).length := by
    rw [← keys_length, hkeys, List.length_drop]
  have hlength : (c.movedLast (key path digest)).length =
      c.size + (c.seenPut path digest).added := by
    have hothers := length_others h.distinct (key path digest)
    rw [movedLast, List.length_append, List.length_singleton]
    simp only [seenPut, hstores, Bool.false_eq_true, false_or]
    split at hothers <;> split <;> first | contradiction | omega
  have hentries := h.entries
  refine ⟨?_, ?_, ?_, ?_, ?_, ?_⟩
  · rw [hcounts]
    exact h.lookups
  · rw [hcounts]
    exact h.parses
  · rw [hcounts]
    exact h.faulty
  · rw [hcounts]
    exact h.recovered
  · rw [hcounts, hsize]
    simp only [Ledger.add, seenPut] at hlength ⊢
    omega
  · rw [hkeys]
    exact (nodup_movedLast h.distinct _).sublist (List.drop_sublist _ _)

/-! ### Parses without the cache -/

/-- A parse is counted once, as faulty if it has faults, and as recovered at most then. -/
theorem parseDirect_counts (c : TreeCache τ) (path content encoding : String) :
    ∃ recovered failures : Nat,
      recovered ≤ (!(c.parseDirect path content encoding).1.faults.isEmpty).toNat ∧
      (c.parseDirect path content encoding).2.counts = c.counts.add
        { parsed := 1
          faulty := (!(c.parseDirect path content encoding).1.faults.isEmpty).toNat
          recovered, grammarFailures := failures } := by
  simp only [TreeCache.parseDirect, parseContent]
  cases hfaults : (firstAttempt c.grammar content).2.1 with
  | nil => exact ⟨0, _, Nat.zero_le _, rfl⟩
  | cons f faults =>
      have hle : ∀ b : Bool, (if b then 1 else 0) ≤ 1 := by decide
      exact ⟨_, _, hle _, rfl⟩

/-- **A parse without the cache keeps the books balanced.** -/
theorem Balanced.parseDirect (h : c.Balanced d) (path content encoding : String) :
    (c.parseDirect path content encoding).2.Balanced
      (d.add { parses := 1
               faulty := (!(c.parseDirect path content encoding).1.faults.isEmpty).toNat }) := by
  obtain ⟨recovered, failures, hle, hcounts⟩ := c.parseDirect_counts path content encoding
  have hrecovered := h.recovered
  have hparses := h.parses
  have hfaulty := h.faulty
  refine ⟨?_, ?_, ?_, ?_, ?_, h.distinct⟩
  · rw [hcounts]
    exact h.lookups
  · simp only [hcounts, Counts.add, Ledger.add]
    omega
  · simp only [hcounts, Counts.add, Ledger.add]
    omega
  · simp only [hcounts, Counts.add]
    omega
  · rw [hcounts]
    exact h.entries

/-! ### Lookups -/

variable [Timeline τ]

theorem nodup_reordered (hdistinct : c.keys.Nodup) (u : Use τ) : (c.reordered u).Nodup := by
  rw [reordered, List.nodup_append]
  refine ⟨hdistinct.filter _, ?_, ?_⟩
  · cases c.touched u <;> simp
  · intro k hk k' hk' heq
    simp only [List.mem_filter, decide_eq_true_eq] at hk
    exact hk.2.2 (heq ▸ Option.mem_toList.1 hk')

/-- A lookup counts one hit or one miss, unless it is refused. -/
theorem get_counts (c : TreeCache τ) (now : τ) (path digest : String) :
    ∃ hits misses, hits + misses + (c.refuses now path digest).toNat = 1 ∧
      (c.get now path digest).2.counts =
        { c.counts with hits := c.counts.hits + hits, misses := c.counts.misses + misses } := by
  obtain ⟨_, hget⟩ | ⟨_, _, _, hget⟩ | ⟨_, _, _, _, hget⟩ | ⟨_, _, _, _, _, hget⟩ :=
    c.get_cases now path digest
  · exact ⟨0, 1, by simp [refuses, hget], by rw [hget]; rfl⟩
  · exact ⟨0, 1, by simp [refuses, hget], by rw [hget]; rfl⟩
  · exact ⟨0, 0, by simp [refuses, hget], by rw [hget]; rfl⟩
  · exact ⟨1, 0, by simp [refuses, hget], by rw [hget]; rfl⟩

/-- A lookup takes out one entry if that is stale, and none otherwise. -/
theorem get_size (hdistinct : c.keys.Nodup) (now : τ) (path digest : String) :
    (c.get now path digest).2.size + (c.stale now path digest).toNat = c.size := by
  obtain ⟨hnone, hget⟩ | ⟨e, he, hold, hget⟩ | ⟨e, he, hnew, hwrong, hget⟩ |
    ⟨e, he, hnew, hdigest, hpath, hget⟩ := c.get_cases now path digest
  · simp [hget, stale, hnone, size]
  · have hstale : c.stale now path digest = true := by simp [stale, he, hold]
    rw [hget, hstale]
    exact length_erase hdistinct he
  · have hstale : c.stale now path digest = true := by simpa [stale, he, hnew] using hwrong
    rw [hget, hstale]
    exact length_erase hdistinct he
  · have hfresh : c.stale now path digest = false := by simp [stale, he, hnew, hdigest, hpath]
    rw [hget, hfresh]
    exact List.length_append.trans (length_erase hdistinct he)

/-- **A lookup keeps the books balanced**: it is a hit, a miss or refused, and an entry that it
takes out is gone once. -/
theorem Balanced.get (h : c.Balanced d) (now : τ) (path digest : String) :
    (c.get now path digest).2.Balanced (d.add (c.seenGet now path digest)) := by
  obtain ⟨hits, misses, hone, hcounts⟩ := c.get_counts now path digest
  have hsize := get_size h.distinct now path digest
  have hlookups := h.lookups
  have hentries := h.entries
  refine ⟨?_, ?_, ?_, ?_, ?_, ?_⟩
  · simp only [hcounts, Ledger.add, seenGet]
    omega
  · rw [hcounts]
    exact h.parses
  · rw [hcounts]
    exact h.faulty
  · rw [hcounts]
    exact h.recovered
  · simp only [hcounts, Ledger.add, seenGet]
    omega
  · rw [get_keys]
    exact nodup_reordered h.distinct _

/-! ### Parses -/

omit [Timeline τ] in
theorem Balanced.bypass (h : c.Balanced d) : c.bypass.Balanced d :=
  ⟨h.lookups, h.parses, h.faulty, h.recovered, h.entries, h.distinct⟩

omit [Timeline τ] in
theorem Balanced.serve (h : c.Balanced d) : c.Balanced (d.add { parses := 1, served := 1 }) :=
  ⟨h.lookups, congrArg (· + 1) h.parses, h.faulty, h.recovered, h.entries, h.distinct⟩

omit [Timeline τ] in
theorem Balanced.parseAndStore (h : c.Balanced d) (now : τ) (path content encoding : String) :
    (c.parseAndStore now path content encoding).2.Balanced
      (d.add (Ledger.add
        { parses := 1
          faulty := (!(c.parseAndStore now path content encoding).1.faults.isEmpty).toNat }
        (c.seenPut path (digest content)))) := by
  have hparsed := h.parseDirect path content encoding
  rw [← Ledger.add_assoc]
  simp only [TreeCache.parseAndStore]
  split
  · rename_i hfails
    have hnone : c.seenPut path (digest content) = {} := by
      rw [seenPut, if_pos (.inl hfails)]
    rw [hnone]
    exact hparsed.bypass
  · rename_i hstores
    exact hparsed.put (Bool.eq_false_iff.2 hstores) now path (digest content) _

/-- **A parse keeps the books balanced.** -/
theorem Balanced.parse (h : c.Balanced d) (now : τ) (path content encoding : String) :
    (c.parse now path content encoding).2.Balanced
      (d.add ((c.seenGet now path (digest content)).add
        (c.seenParse now path content encoding))) := by
  have hlooked := h.get now path (digest content)
  rw [← Ledger.add_assoc]
  cases hget : c.get now path (digest content) with
  | mk found c' =>
      rw [hget] at hlooked
      cases found with
      | hit file =>
          have hseen : c.seenParse now path content encoding = { parses := 1, served := 1 } := by
            simp [seenParse, TreeCache.parse, hget]
          simp only [hseen, TreeCache.parse, hget]
          exact hlooked.serve
      | miss =>
          simp only [seenParse, TreeCache.parse, hget]
          exact hlooked.parseAndStore now path content encoding
      | mismatch k =>
          simp only [seenParse, TreeCache.parse, hget]
          exact hlooked.bypass.parseAndStore now path content encoding

/-! ### Histories -/

/-- **A use keeps the books balanced.** -/
theorem Balanced.use (h : c.Balanced d) (u : Use τ) :
    (c.use u).Balanced (d.add (c.seen u)) := by
  have hentries := h.entries
  cases u with
  | get now path digest => exact h.get now path digest
  | put now path digest file =>
      simp only [TreeCache.use]
      split
      · rename_i hfails
        have hnone : c.seenPut path digest = {} := by rw [seenPut, if_pos (.inl hfails)]
        rw [seen, hnone]
        exact h
      · rename_i hstores
        exact h.put (Bool.eq_false_iff.2 hstores) now path digest file
  | parse now path content encoding => exact h.parse now path content encoding
  | invalidate path =>
      have hkept : (c.invalidate path).2.size ≤ c.size := List.length_filter_le _ _
      have hgone : (c.invalidate path).1 = c.size - (c.invalidate path).2.size := rfl
      have hcounts : (c.invalidate path).2.counts = c.counts := rfl
      refine ⟨h.lookups, h.parses, h.faulty, h.recovered, ?_, ?_⟩
      · simp only [TreeCache.use, seen, Ledger.add, hgone, hcounts]
        omega
      · exact h.distinct.sublist (List.filter_sublist.map Prod.fst)
  | clear =>
      have hcleared : c.clear.size = 0 := rfl
      have hcounts : c.clear.counts = c.counts := rfl
      refine ⟨h.lookups, h.parses, h.faulty, h.recovered, ?_, List.nodup_nil⟩
      simp only [TreeCache.use, seen, Ledger.add, hcleared, hcounts]
      omega

/-- **A history keeps the books balanced.** -/
theorem Balanced.audit {s : TreeCache τ × Ledger} (h : s.1.Balanced s.2) (uses : List (Use τ)) :
    let s' := uses.foldl (fun s u => (s.1.use u, s.2.add (s.1.seen u))) s
    s'.1.Balanced s'.2 := by
  induction uses generalizing s with
  | nil => exact h
  | cons u uses ih => exact ih (s := (s.1.use u, s.2.add (s.1.seen u))) (h.use u)

/-- **The four laws of the counters.**  After any history that starts from a new cache: each lookup
was a hit, a miss or refused; each parse that was asked for is counted or came from the cache; the
faulty parses are those that did not come from the cache and have faults, and no more than these
were recovered; and each entry that was added is still there, or was evicted, or was dropped. -/
theorem counters_are_exact {c : TreeCache τ} (hempty : c.entries = []) (hnew : c.counts = {})
    (uses : List (Use τ)) :
    let s := c.audit uses
    s.1.counts.hits + s.1.counts.misses + s.2.refused = s.2.lookups ∧
      s.1.counts.parsed + s.2.served = s.2.parses ∧
      s.1.counts.faulty = s.2.faulty ∧ s.1.counts.recovered ≤ s.1.counts.faulty ∧
      s.1.size + s.1.counts.evictions + s.2.dropped = s.2.added := by
  intro s
  have hstart : c.Balanced {} := by
    refine ⟨?_, ?_, ?_, ?_, ?_, ?_⟩
    all_goals simp [hnew, size, keys, hempty, Assoc.keys]
  have hend : s.1.Balanced s.2 := hstart.audit (s := (c, {})) uses
  exact ⟨hend.lookups, hend.parses, hend.faulty, hend.recovered, hend.entries⟩

/-- Two words, an entry that belongs to neither, and a day that goes by. -/
def mixedUses : List (Use Float) :=
  [.parse 0.0 "a" "one" "utf-8", .parse 1.0 "b" "two words" "utf-8",
   .put 2.0 "c" "1" (page "d" "2"), .get 3.0 "c" "1", .parse 86400.0 "b" "two words" "utf-8",
   .parse 86401.0 "b" "two words" "latin-1", .invalidate "b", .parse 86402.0 "a" "one" "utf-8",
   .clear]

/-- The first entry is evicted, the one of neither word is refused, and the day makes another one
too old; the ledger and the counters side by side. -/
theorem mixedUses_counters :
    let s := wordCache.audit mixedUses
    wordCache.entries = [] ∧ wordCache.counts = {} ∧
      s.2 = { lookups := 6, refused := 1, parses := 5, served := 1, faulty := 2, dropped := 4,
              added := 5 } ∧
      s.1.counts = { parsed := 4, hits := 1, misses := 4, faulty := 2, recovered := 0,
                     grammarFailures := 2, evictions := 1 } ∧
      s.1.counts.hits + s.1.counts.misses + s.2.refused = s.2.lookups ∧
      s.1.counts.parsed + s.2.served = s.2.parses ∧
      s.1.counts.faulty = s.2.faulty ∧ s.1.counts.recovered ≤ s.1.counts.faulty ∧
      s.1.size + s.1.counts.evictions + s.2.dropped = s.2.added :=
  ⟨rfl, rfl, by decide +kernel, by decide +kernel, counters_are_exact rfl rfl mixedUses⟩

end PhpAudit.TreeCache
