/-
**A cache lists its keys in the order in which they were last touched.**

A cache has no record of when an entry was used: recency is nothing but the place in the list of
entries, which hits, stores, removals and evictions all change.  This module follows a cache through
any number of uses and keeps, beside it, a log of the key that each use touched, by a hit or by a
store.  The order of the keys is then compared with the log.

What one use does to the keys is said once, as an equation: some keys leave, the touched key goes
last, and when that is too much for the cache the front of the list is cut off.

Main definitions:

* `TreeCache.Use`, `TreeCache.use` — what callers do with a cache;
* `TreeCache.touched`, `TreeCache.removes`, `TreeCache.reordered` — the key that a use touches, the
  keys that it takes out, and the order in which it leaves the others;
* `TreeCache.follow` — a whole history, with its log;
* `TreeCache.age`, `TreeCache.TouchedBefore` — how long ago a key was touched, by the log;
* `TreeCache.Recent` — a cache whose keys stand in the order of the log.

Main results:

* `TreeCache.use_keys` — **the keys after a use**;
* `TreeCache.Recent.use`, `TreeCache.Recent.follow` — one use keeps the order of the log, and so
  does every history;
* `TreeCache.keys_in_order_of_last_touch` — **the discipline of the cache**: its bound, its order,
  and what leaves it when.
-/

import PhpAudit.Proofs.TreeCache.History

set_option autoImplicit false

namespace PhpAudit

variable {τ : Type}

theorem Assoc.keys_erase {α : Type} (m : Assoc String α) (key : String) :
    keys (erase m key) = (keys m).filter fun k => k ≠ key := by
  rw [keys, erase, keys, List.filter_map]
  congr 1
  refine List.filter_congr fun e _ => ?_
  rw [Function.comp, decide_not]
  exact congrArg not (Bool.eq_iff_iff.2 (by simp))

namespace TreeCache

/-! ### Uses -/

/-- What callers do with a cache.  Each use has its own moment, and any file may be stored under any
path and digest. -/
inductive Use (τ : Type) where
  | get (now : τ) (path digest : String)
  | put (now : τ) (path digest : String) (file : SourceFile)
  | parse (now : τ) (path content encoding : String)
  | invalidate (path : String)
  | clear

/-- Whether a use may store a file. -/
def Use.stores : Use τ → Bool
  | put .. => true
  | parse .. => true
  | _ => false

variable [Timeline τ]

/-- The cache after a use.  A store that fails changes nothing. -/
def use (c : TreeCache τ) : Use τ → TreeCache τ
  | .get now path digest => (c.get now path digest).2
  | .put now path digest file => if c.storeFails then c else c.put now path digest file
  | .parse now path content encoding => (c.parse now path content encoding).2
  | .invalidate path => (c.invalidate path).2
  | .clear => c.clear

/-- Whether a lookup finds a file. -/
def finds (c : TreeCache τ) (now : τ) (path digest : String) : Bool :=
  match (c.get now path digest).1 with
  | .hit _ => true
  | _ => false

/-- Whether there is an entry under the key that is too old or belongs to another path or digest. -/
def stale (c : TreeCache τ) (now : τ) (path digest : String) : Bool :=
  match Assoc.get? c.entries (key path digest) with
  | some e => c.expired now e || e.file.digest != digest || e.file.path != path
  | none => false

/-- The key that a use touches, by a hit or by a store. -/
def touched (c : TreeCache τ) : Use τ → Option String
  | .get now path digest => if c.finds now path digest then some (key path digest) else none
  | .put _ path digest _ => if c.storeFails then none else some (key path digest)
  | .parse now path content _ =>
    if c.finds now path (digest content) || !c.storeFails then some (key path (digest content))
    else none
  | .invalidate _ => none
  | .clear => none

/-- The keys that a use takes out, evictions apart. -/
def removes (c : TreeCache τ) : Use τ → String → Bool
  | .get now path digest, k => k == key path digest && c.stale now path digest
  | .put .., _ => false
  | .parse now path content _, k =>
    k == key path (digest content) && c.stale now path (digest content)
  | .invalidate path, k => (path ++ ":").toList.isPrefixOf k.toList
  | .clear, _ => true

/-- The keys as a use leaves them before anything is evicted: those that it neither takes out nor
touches, in their order, and then the one that it touches. -/
def reordered (c : TreeCache τ) (u : Use τ) : List String :=
  (c.keys.filter fun k => ¬ c.removes u k ∧ c.touched u ≠ some k) ++ (c.touched u).toList

/-- The keys with one key behind all others. -/
def movedLast (c : TreeCache τ) (key : String) : List String :=
  (c.keys.filter fun k => k ≠ key) ++ [key]

/-- How many entries must go when there are so many. -/
def surplus (c : TreeCache τ) (count : Nat) : Nat :=
  if (count : Int) ≤ c.capacity then 0 else (min (max c.batch (count - c.capacity)) count).toNat

/-! ### The keys after a use -/

variable {c : TreeCache τ} {u : Use τ}

theorem reordered_of_untouched (h : c.touched u = none) :
    c.reordered u = c.keys.filter fun k => !c.removes u k := by
  simp [reordered, h]

theorem reordered_of_touched {key : String} (h : c.touched u = some key)
    (hown : ∀ k, c.removes u k = true → k = key) :
    c.reordered u = c.movedLast key := by
  rw [reordered, movedLast, h, Option.toList_some]
  congr 1
  refine List.filter_congr fun k _ => ?_
  have hiff : (¬ c.removes u k ∧ some key ≠ some k) ↔ k ≠ key := by
    constructor
    · rintro ⟨-, hne⟩ rfl
      exact hne rfl
    · intro hne
      exact ⟨fun hk => hne (hown k hk), fun h => hne (Option.some.inj h).symm⟩
  exact decide_eq_decide.2 hiff

/-- A lookup takes out its own key, and only if that is stale. -/
theorem removes_get (c : TreeCache τ) (now : τ) (path digest k : String) :
    c.removes (.get now path digest) k =
      (decide (k = key path digest) && c.stale now path digest) := by
  rw [removes, Bool.eq_iff_iff]
  simp

/-- A lookup takes out an entry that is stale, and moves one that it finds to the end. -/
theorem get_keys (c : TreeCache τ) (now : τ) (path digest : String) :
    (c.get now path digest).2.keys = c.reordered (.get now path digest) := by
  obtain ⟨hnone, hget⟩ | ⟨e, he, hold, hget⟩ | ⟨e, he, hnew, hwrong, hget⟩ |
    ⟨e, he, hnew, hdigest, hpath, hget⟩ := c.get_cases now path digest
  · have hfresh : c.stale now path digest = false := by simp [stale, hnone]
    rw [reordered_of_untouched (by simp [touched, finds, hget]), hget]
    exact (List.filter_eq_self.2 (by simp [removes_get, hfresh])).symm
  · have hstale : c.stale now path digest = true := by simp [stale, he, hold]
    rw [reordered_of_untouched (by simp [touched, finds, hget]), hget]
    simp [removes_get, hstale, keys, Assoc.keys_erase]
  · have hstale : c.stale now path digest = true := by
      simpa [stale, he, hnew] using hwrong
    rw [reordered_of_untouched (by simp [touched, finds, hget]), hget]
    simp [removes_get, hstale, keys, Assoc.keys_erase]
  · have htouched : c.touched (.get now path digest) = some (key path digest) := by
      simp [touched, finds, hget]
    have hown : ∀ k, c.removes (.get now path digest) k = true → k = key path digest := by
      simp [removes_get]
    rw [reordered_of_touched htouched hown, hget, movedLast, keys, keys, ← Assoc.keys_erase]
    exact List.map_append

omit [Timeline τ] in
@[simp] theorem keys_length (c : TreeCache τ) : c.keys.length = c.size := by
  simp [keys, Assoc.keys, size]

omit [Timeline τ] in
theorem surplus_of_le {count : Nat} (h : (count : Int) ≤ c.capacity) : c.surplus count = 0 :=
  if_pos h

omit [Timeline τ] in
theorem surplus_le (c : TreeCache τ) (count : Nat) : c.surplus count ≤ count := by
  rw [surplus]
  split
  · exact Nat.zero_le _
  · omega

omit [Timeline τ] in
/-- A store moves its key to the end, and cuts off the front of what is then too long. -/
theorem put_keys (c : TreeCache τ) (now : τ) (path digest : String) (file : SourceFile) :
    (c.put now path digest file).keys =
      (c.movedLast (key path digest)).drop
        (c.surplus (c.movedLast (key path digest)).length) := by
  have hmoved : Assoc.keys (Assoc.erase c.entries (key path digest) ++
      [(key path digest, (⟨file, now⟩ : Entry τ))]) = c.movedLast (key path digest) := by
    rw [movedLast, keys, ← Assoc.keys_erase]
    exact List.map_append
  have hlength : ∀ m : Assoc String (Entry τ), m.length = (Assoc.keys m).length := by
    simp [Assoc.keys]
  simp only [put, hlength, hmoved]
  split
  · rename_i hover
    rw [surplus, if_neg (by omega), evict, keys, Assoc.keys, List.map_drop, ← Assoc.keys, hlength,
      hmoved]
  · rename_i hroom
    rw [surplus_of_le (by omega), List.drop_zero, keys, hmoved]

/-! The limits of a cache never change. -/

theorem get_limits (c : TreeCache τ) (now : τ) (path digest : String) :
    (c.get now path digest).2.capacity = c.capacity ∧ (c.get now path digest).2.batch = c.batch ∧
      (c.get now path digest).2.storeFails = c.storeFails := by
  obtain ⟨_, h⟩ | ⟨_, _, _, h⟩ | ⟨_, _, _, _, h⟩ | ⟨_, _, _, _, _, h⟩ := c.get_cases now path digest
  all_goals rw [h]; exact ⟨rfl, rfl, rfl⟩

omit [Timeline τ] in
theorem put_limits (c : TreeCache τ) (now : τ) (path digest : String) (file : SourceFile) :
    (c.put now path digest file).capacity = c.capacity ∧
      (c.put now path digest file).batch = c.batch := by
  simp only [put]
  split <;> exact ⟨rfl, rfl⟩

theorem parse_limits (c : TreeCache τ) (now : τ) (path content encoding : String) :
    (c.parse now path content encoding).2.capacity = c.capacity ∧
      (c.parse now path content encoding).2.batch = c.batch := by
  obtain ⟨hcapacity, hbatch, -⟩ := c.get_limits now path (digest content)
  have hstore : ∀ c' : TreeCache τ, c'.capacity = c.capacity → c'.batch = c.batch →
      (c'.parseAndStore now path content encoding).2.capacity = c.capacity ∧
        (c'.parseAndStore now path content encoding).2.batch = c.batch := by
    intro c' hcapacity hbatch
    simp only [parseAndStore]
    split
    · exact ⟨hcapacity, hbatch⟩
    · exact ⟨(put_limits _ _ _ _ _).1.trans hcapacity, (put_limits _ _ _ _ _).2.trans hbatch⟩
  cases hget : c.get now path (digest content) with
  | mk found c' =>
      rw [hget] at hcapacity hbatch
      cases found with
      | hit file => simpa only [parse, hget] using ⟨hcapacity, hbatch⟩
      | miss => simpa only [parse, hget] using hstore c' hcapacity hbatch
      | mismatch k => simpa only [parse, hget] using hstore c'.bypass hcapacity hbatch

theorem use_limits (c : TreeCache τ) (u : Use τ) :
    (c.use u).capacity = c.capacity ∧ (c.use u).batch = c.batch := by
  cases u with
  | get now path digest =>
      exact ⟨(c.get_limits now path digest).1, (c.get_limits now path digest).2.1⟩
  | put now path digest file =>
      simp only [use]
      split
      · exact ⟨rfl, rfl⟩
      · exact c.put_limits now path digest file
  | parse now path content encoding => exact c.parse_limits now path content encoding
  | invalidate path => exact ⟨rfl, rfl⟩
  | clear => exact ⟨rfl, rfl⟩

theorem length_reordered_le (h : ∀ k, c.touched u = some k → k ∈ c.keys) :
    (c.reordered u).length ≤ c.size := by
  rw [← keys_length]
  cases htouched : c.touched u with
  | none =>
      rw [reordered_of_untouched htouched]
      exact List.length_filter_le _ _
  | some k =>
      have hlt : (c.keys.filter fun k' => ¬ c.removes u k' ∧ c.touched u ≠ some k').length <
          c.keys.length := by
        rw [List.length_filter_lt_length_iff_exists]
        exact ⟨k, h k htouched, by simp [htouched]⟩
      rw [reordered, List.length_append, htouched, Option.toList_some, List.length_singleton]
      rw [htouched] at hlt
      omega

/-- A use that only touches what is there evicts nothing. -/
theorem drop_surplus_reordered (hroom : (c.size : Int) ≤ c.capacity)
    (h : ∀ k, c.touched u = some k → k ∈ c.keys) :
    (c.reordered u).drop (c.surplus (c.reordered u).length) = c.reordered u := by
  have hle := length_reordered_le h
  rw [surplus_of_le (by omega), List.drop_zero]

theorem mem_keys_of_finds {now : τ} {path digest : String}
    (h : c.finds now path digest = true) : key path digest ∈ c.keys := by
  obtain ⟨_, hget⟩ | ⟨_, _, _, hget⟩ | ⟨_, _, _, _, hget⟩ | ⟨e, he, _, _, _, hget⟩ :=
    c.get_cases now path digest
  · simp [finds, hget] at h
  · simp [finds, hget] at h
  · simp [finds, hget] at h
  · exact List.mem_map.2 ⟨_, Assoc.mem_of_get? he, rfl⟩

/-- A use that stores nothing touches what is there. -/
theorem mem_keys_of_touched (hno : u.stores = false) {k : String} (h : c.touched u = some k) :
    k ∈ c.keys := by
  cases u with
  | get now path digest =>
      by_cases hfound : c.finds now path digest
      · simp only [touched, hfound, if_true, Option.some.injEq] at h
        exact h ▸ mem_keys_of_finds hfound
      · simp [touched, hfound] at h
  | put now path digest file => cases hno
  | parse now path content encoding => cases hno
  | invalidate path => cases h
  | clear => cases h

/-- Looking up a key before it moves to the end makes no difference. -/
theorem get_movedLast (c : TreeCache τ) (now : τ) (path digest : String) :
    (c.get now path digest).2.movedLast (key path digest) = c.movedLast (key path digest) := by
  obtain ⟨_, h⟩ | ⟨_, _, _, h⟩ | ⟨_, _, _, _, h⟩ | ⟨_, _, _, _, _, h⟩ := c.get_cases now path digest
  · rw [h]
    rfl
  · simp [h, movedLast, keys, Assoc.keys_erase]
  · simp [h, movedLast, keys, Assoc.keys_erase]
  · have hkeys := congrArg keys (congrArg Prod.snd h)
    rw [movedLast, hkeys, keys, Assoc.keys, List.map_append, ← Assoc.keys, Assoc.keys_erase]
    simp [movedLast, keys]

/-- What a parse leaves when the lookup has found nothing: the keys after the lookup, with the file
stored under its own if stores do not fail. -/
theorem parse_keys_of_not_finds {now : τ} {path content : String}
    (h : c.finds now path (digest content) = false) (encoding : String) :
    (c.parse now path content encoding).2.keys =
      if c.storeFails then (c.get now path (digest content)).2.keys
      else (c.movedLast (key path (digest content))).drop
        (c.surplus (c.movedLast (key path (digest content))).length) := by
  obtain ⟨hcapacity, hbatch, hfails⟩ := c.get_limits now path (digest content)
  have hmoved := c.get_movedLast now path (digest content)
  -- a store depends on the keys, the limits and the flag alone, not on what has been counted
  have hstore : ∀ c' : TreeCache τ, c'.keys = (c.get now path (digest content)).2.keys →
      c'.capacity = c.capacity → c'.batch = c.batch → c'.storeFails = c.storeFails →
      (c'.parseAndStore now path content encoding).2.keys = if c.storeFails then c'.keys
        else (c.movedLast (key path (digest content))).drop
          (c.surplus (c.movedLast (key path (digest content))).length) := by
    intro c' hkeys hcapacity hbatch hfails
    have hmoved' : (c'.parseDirect path content encoding).2.movedLast (key path (digest content)) =
        c.movedLast (key path (digest content)) := by
      rw [← hmoved, movedLast, movedLast, ← hkeys]
      rfl
    have hsurplus : (c'.parseDirect path content encoding).2.surplus = c.surplus := by
      funext count
      simp only [surplus, parseDirect, hcapacity, hbatch]
    simp only [parseAndStore]
    split
    · rename_i hfail
      rw [if_pos (hfails ▸ hfail)]
      rfl
    · rename_i hfail
      rw [if_neg (hfails ▸ hfail), put_keys, hsurplus, ← hmoved']
      rfl
  cases hget : c.get now path (digest content) with
  | mk found c' =>
      rw [hget] at hcapacity hbatch hfails hstore
      cases found with
      | hit file => simp [finds, hget] at h
      | miss =>
          simp only [parse, hget]
          exact hstore c' rfl hcapacity hbatch hfails
      | mismatch k =>
          simp only [parse, hget]
          exact hstore c'.bypass rfl hcapacity hbatch hfails

theorem parse_of_finds {now : τ} {path content : String}
    (h : c.finds now path (digest content) = true) (encoding : String) :
    (c.parse now path content encoding).2 = (c.get now path (digest content)).2 := by
  cases hget : c.get now path (digest content) with
  | mk found c' =>
      cases found with
      | hit file => simp only [parse, hget]
      | miss => simp [finds, hget] at h
      | mismatch k => simp [finds, hget] at h

/-- A parse either finds its file or is a lookup followed by a store. -/
theorem parse_keys (hroom : (c.size : Int) ≤ c.capacity) (now : τ)
    (path content encoding : String) :
    (c.parse now path content encoding).2.keys =
      (c.reordered (.parse now path content encoding)).drop
        (c.surplus (c.reordered (.parse now path content encoding)).length) := by
  have hremoves : c.removes (.parse now path content encoding) =
      c.removes (.get now path (digest content)) := rfl
  cases hfound : c.finds now path (digest content) with
  | true =>
      have htouched : c.touched (.parse now path content encoding) =
          c.touched (.get now path (digest content)) := by simp [touched, hfound]
      have hsame : c.reordered (.parse now path content encoding) =
          c.reordered (.get now path (digest content)) := by
        rw [reordered, hremoves, htouched, reordered]
      rw [hsame, parse_of_finds hfound, get_keys]
      refine (drop_surplus_reordered hroom ?_).symm
      simp only [touched, hfound, if_true, Option.some.injEq]
      exact fun k hk => hk ▸ mem_keys_of_finds hfound
  | false =>
      rw [parse_keys_of_not_finds hfound]
      cases hfails : c.storeFails with
      | true =>
          have htouched : c.touched (.parse now path content encoding) = none := by
            simp [touched, hfound, hfails]
          have hlookup : c.touched (.get now path (digest content)) = none := by
            simp [touched, hfound]
          rw [if_pos rfl, get_keys, drop_surplus_reordered hroom (by simp [htouched]),
            reordered_of_untouched htouched, reordered_of_untouched hlookup, hremoves]
      | false =>
          have htouched : c.touched (.parse now path content encoding) =
              some (key path (digest content)) := by simp [touched, hfails]
          have hown : ∀ k, c.removes (.parse now path content encoding) k = true →
              k = key path (digest content) := by simp [hremoves, removes_get]
          rw [if_neg Bool.false_ne_true, reordered_of_touched htouched hown]

/-- **The keys after a use**: what it leaves of them in order, without the front that is too much
for the cache. -/
theorem use_keys (hroom : (c.size : Int) ≤ c.capacity) (u : Use τ) :
    (c.use u).keys = (c.reordered u).drop (c.surplus (c.reordered u).length) := by
  cases u with
  | get now path digest =>
      rw [drop_surplus_reordered hroom fun _ => mem_keys_of_touched rfl, use, get_keys]
  | put now path digest file =>
      by_cases hfails : c.storeFails
      · have htouched : c.touched (.put now path digest file) = none := by simp [touched, hfails]
        rw [drop_surplus_reordered hroom (by simp [htouched]), reordered_of_untouched htouched, use,
          if_pos hfails]
        exact (List.filter_eq_self.2 (by simp [removes])).symm
      · have htouched : c.touched (.put now path digest file) = some (key path digest) := by
          simp [touched, hfails]
        rw [reordered_of_touched htouched (by simp [removes]), use, if_neg hfails, put_keys]
  | parse now path content encoding => exact parse_keys hroom now path content encoding
  | invalidate path =>
      rw [drop_surplus_reordered hroom fun _ => mem_keys_of_touched rfl,
        reordered_of_untouched rfl]
      rw [keys, keys, Assoc.keys, Assoc.keys, List.filter_map]
      rfl
  | clear =>
      rw [drop_surplus_reordered hroom fun _ => mem_keys_of_touched rfl,
        reordered_of_untouched rfl]
      simp [use, clear, keys, Assoc.keys, removes]

/-! ### The order of the log -/

/-- How many uses ago a key was last touched.  The log has the key that each use touched, the latest
use first. -/
def age (log : List (Option String)) (key : String) : Option Nat :=
  log.findIdx? (· == some key)

/-- Both keys were touched, and the second one later. -/
def TouchedBefore (log : List (Option String)) (a b : String) : Prop :=
  ∃ i ∈ age log a, ∃ j ∈ age log b, j < i

theorem age_cons_self (log : List (Option String)) (key : String) :
    age (some key :: log) key = some 0 := by
  simp [age, List.findIdx?_cons]

theorem age_cons_of_ne {log : List (Option String)} {t : Option String} {key : String}
    (h : t ≠ some key) : age (t :: log) key = (age log key).map (· + 1) := by
  simp [age, List.findIdx?_cons, h]

/-- A use that touches neither key keeps their order. -/
theorem TouchedBefore.cons {log : List (Option String)} {a b : String} (h : TouchedBefore log a b)
    {t : Option String} (ha : t ≠ some a) (hb : t ≠ some b) : TouchedBefore (t :: log) a b := by
  obtain ⟨i, hi, j, hj, hlt⟩ := h
  refine ⟨i + 1, ?_, j + 1, ?_, Nat.succ_lt_succ hlt⟩
  · rw [age_cons_of_ne ha, Option.mem_def.1 hi]
    rfl
  · rw [age_cons_of_ne hb, Option.mem_def.1 hj]
    rfl

/-- The key that a use touches comes after every other one. -/
theorem touchedBefore_cons_self {log : List (Option String)} {a key : String}
    (ha : (age log a).isSome) (hne : a ≠ key) : TouchedBefore (some key :: log) a key := by
  obtain ⟨i, hi⟩ := Option.isSome_iff_exists.1 ha
  refine ⟨i + 1, ?_, 0, age_cons_self log key, Nat.succ_pos i⟩
  rw [age_cons_of_ne (by simpa using Ne.symm hne), hi]
  rfl

theorem TouchedBefore.ne {log : List (Option String)} {a b : String}
    (h : TouchedBefore log a b) : a ≠ b := by
  rintro rfl
  obtain ⟨i, hi, j, hj, hlt⟩ := h
  have : i = j := Option.mem_unique hi hj
  omega

/-- A cache that is not too full and lists its keys in the order in which they were touched. -/
structure Recent (log : List (Option String)) (c : TreeCache τ) : Prop where
  bounded : (c.size : Int) ≤ c.capacity
  known : ∀ k ∈ c.keys, (age log k).isSome
  ordered : c.keys.Pairwise (TouchedBefore log)

variable {log : List (Option String)}

theorem Recent.reordered_known (h : c.Recent log) (u : Use τ) :
    ∀ k ∈ c.reordered u, (age (c.touched u :: log) k).isSome := by
  intro k hk
  rcases List.mem_append.1 hk with hold | hnew
  · obtain ⟨hmem, hkept⟩ := List.mem_filter.1 hold
    have hne : c.touched u ≠ some k := (of_decide_eq_true hkept).2
    rw [age_cons_of_ne hne, Option.isSome_map]
    exact h.known k hmem
  · rw [Option.mem_toList.1 hnew, age_cons_self]
    rfl

theorem Recent.reordered_ordered (h : c.Recent log) (u : Use τ) :
    (c.reordered u).Pairwise (TouchedBefore (c.touched u :: log)) := by
  have hkept : ∀ k ∈ c.keys.filter fun k => ¬ c.removes u k ∧ c.touched u ≠ some k,
      k ∈ c.keys ∧ c.touched u ≠ some k := fun k hk =>
    ⟨(List.mem_filter.1 hk).1, (of_decide_eq_true (List.mem_filter.1 hk).2).2⟩
  refine List.pairwise_append.2 ⟨?_, ?_, ?_⟩
  · refine (h.ordered.filter _).imp_of_mem ?_
    intro a b ha hb hab
    exact hab.cons (hkept a ha).2 (hkept b hb).2
  · cases c.touched u with
    | none => exact List.Pairwise.nil
    | some k => exact List.pairwise_singleton _ _
  · intro a ha b hb
    have htouched : c.touched u = some b := Option.mem_toList.1 hb
    rw [htouched]
    refine touchedBefore_cons_self (h.known a (hkept a ha).1) ?_
    rintro rfl
    exact (hkept a ha).2 htouched

omit [Timeline τ] in
/-- What is left after the surplus is gone fits. -/
theorem length_sub_surplus_le (hcapacity : 0 ≤ c.capacity) (count : Nat) :
    ((count - c.surplus count : Nat) : Int) ≤ c.capacity := by
  rw [surplus]
  split
  · omega
  · omega

/-- **A use keeps the order of the log.** -/
theorem Recent.use (h : c.Recent log) (hcapacity : 0 ≤ c.capacity) (u : Use τ) :
    (c.use u).Recent (c.touched u :: log) := by
  have hkeys := use_keys h.bounded u
  refine ⟨?_, ?_, ?_⟩
  · rw [(use_limits c u).1, ← keys_length, hkeys, List.length_drop]
    exact length_sub_surplus_le hcapacity _
  · rw [hkeys]
    exact fun k hk => h.reordered_known u k (List.mem_of_mem_drop hk)
  · rw [hkeys]
    exact (h.reordered_ordered u).sublist (List.drop_sublist _ _)

/-- A whole history, with its log. -/
def follow (c : TreeCache τ) (uses : List (Use τ)) : TreeCache τ × List (Option String) :=
  uses.foldl (fun s u => (s.1.use u, s.1.touched u :: s.2)) (c, [])

/-- **A history keeps the order of its log.** -/
theorem Recent.follow {s : TreeCache τ × List (Option String)} (h : s.1.Recent s.2)
    (hcapacity : 0 ≤ s.1.capacity) (uses : List (Use τ)) :
    let s' := uses.foldl (fun s u => (s.1.use u, s.1.touched u :: s.2)) s
    s'.1.Recent s'.2 ∧ s'.1.capacity = s.1.capacity ∧ s'.1.batch = s.1.batch := by
  induction uses generalizing s with
  | nil => exact ⟨h, rfl, rfl⟩
  | cons u uses ih =>
      obtain ⟨hsame, hbatch⟩ := use_limits s.1 u
      have hnext : (s.1.use u).Recent (s.1.touched u :: s.2) := h.use hcapacity u
      obtain ⟨hend, hsame', hbatch'⟩ :=
        ih (s := (s.1.use u, s.1.touched u :: s.2)) hnext (hsame ▸ hcapacity)
      exact ⟨hend, hsame'.trans hsame, hbatch'.trans hbatch⟩

omit [Timeline τ] in
theorem recent_of_empty (hempty : c.entries = []) (hcapacity : 0 ≤ c.capacity) : c.Recent [] := by
  have hkeys : c.keys = [] := by simp [keys, hempty, Assoc.keys]
  refine ⟨?_, ?_, ?_⟩
  · simpa [size, hempty] using hcapacity
  · simp [hkeys]
  · simp [hkeys]

/-- **The discipline of the cache.**  After any history that starts from an empty cache there are no
more entries than the capacity, the keys are distinct, and they stand in the order in which they
were last touched.  A further use leaves the keys that it neither takes out nor touches in their
order, and puts the one that it touches behind them; only when this is more than the capacity does
it evict, and then a front of that order, in which no key was touched after a key that stays. -/
theorem keys_in_order_of_last_touch {c : TreeCache τ} (hempty : c.entries = [])
    (hcapacity : 1 ≤ c.capacity) (uses : List (Use τ)) :
    let s := c.follow uses
    ((s.1.size : Int) ≤ c.capacity ∧ s.1.keys.Nodup ∧
      (∀ k ∈ s.1.keys, (age s.2 k).isSome) ∧ s.1.keys.Pairwise (TouchedBefore s.2)) ∧
    ∀ u, ∃ evicted, s.1.reordered u = evicted ++ (s.1.use u).keys ∧
      evicted.length = c.surplus (s.1.reordered u).length ∧
      (u.stores = false → evicted = []) ∧
      ∀ a ∈ evicted, ∀ b ∈ (s.1.use u).keys, TouchedBefore (s.1.touched u :: s.2) a b := by
  intro s
  have hpos : 0 ≤ c.capacity := by omega
  have hstart : c.Recent [] := recent_of_empty hempty hpos
  obtain ⟨hrecent, hsame, hbatch⟩ :
      s.1.Recent s.2 ∧ s.1.capacity = c.capacity ∧ s.1.batch = c.batch :=
    hstart.follow (s := (c, [])) hpos uses
  refine ⟨⟨hsame ▸ hrecent.bounded, hrecent.ordered.imp TouchedBefore.ne, hrecent.known,
    hrecent.ordered⟩, ?_⟩
  intro u
  have hsurplus : s.1.surplus = c.surplus := by
    funext count
    rw [surplus, surplus, hsame, hbatch]
  have hkeys := use_keys hrecent.bounded u
  rw [hsurplus] at hkeys
  have hsplit : s.1.reordered u =
      (s.1.reordered u).take (c.surplus (s.1.reordered u).length) ++ (s.1.use u).keys := by
    rw [hkeys, List.take_append_drop]
  refine ⟨_, hsplit, ?_, ?_, ?_⟩
  · exact List.length_take_of_le (c.surplus_le _)
  · intro hno
    have hle := length_reordered_le fun k => mem_keys_of_touched (c := s.1) (k := k) hno
    have hbound := hrecent.bounded
    rw [surplus_of_le (by omega), List.take_zero]
  · have hordered := hrecent.reordered_ordered u
    rw [hsplit] at hordered
    exact (List.pairwise_append.1 hordered).2.2

/-- A cache for two files. -/
def shelf : TreeCache Float :=
  { grammar := { language := "none", parse := fun text => .ok (Tree.blank text, []) }
    capacity := 2, batch := 1, batchShown := .int 1, ttl := some 60.0 }

/-- A file without text. -/
def page (path digest : String) : SourceFile :=
  { path, content := "", digest, tree := Tree.blank "" }

/-- Two stores and a hit of the first one. -/
def borrowings : List (Use Float) :=
  [.put 0.0 "a" "1" (page "a" "1"), .put 1.0 "b" "2" (page "b" "2"), .get 2.0 "a" "1"]

/-- The hit saves the entry that was stored first: the next store evicts the other one. -/
theorem shelf_in_order_of_last_touch :
    let s := shelf.follow borrowings
    let u := Use.put 3.0 "c" "3" (page "c" "3")
    shelf.entries = [] ∧ 1 ≤ shelf.capacity ∧ s.1.keys = ["b:2", "a:1"] ∧
      (s.1.use u).keys = ["a:1", "c:3"] ∧
      ∃ evicted, s.1.reordered u = evicted ++ (s.1.use u).keys ∧
        evicted.length = shelf.surplus (s.1.reordered u).length ∧
        (u.stores = false → evicted = []) ∧
        ∀ a ∈ evicted, ∀ b ∈ (s.1.use u).keys, TouchedBefore (s.1.touched u :: s.2) a b :=
  ⟨rfl, by decide, by decide +kernel, by decide +kernel,
    (keys_in_order_of_last_touch rfl (by decide) borrowings).2 _⟩

end TreeCache

end PhpAudit
