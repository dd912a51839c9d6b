/-
**What an invalidation drops.**

An invalidation is meant for the entries of one path, and is carried out on the texts of the keys:
those go that begin with the path and a colon.  As long as keys are made by parses they end in a
digest, which holds no colon, so the last colon of a key stands right behind the path of its file.
But a path may hold colons too.  Then the colon that the invalidation finds can be one inside the
path of another file, and the entries of that file go as well.

Main definitions:

* `TreeCache.Within` — a path, and the paths that go on from it with a colon;
* `TreeCache.Owned` — a cache whose entries stand under the paths of their own files.

Main results:

* `TreeCache.prefix_key_iff` — which keys begin with a path and a colon;
* `TreeCache.Session.step_owned`, `TreeCache.Session.run_owned` — entries stand under their own
  paths, after one step and after a whole history;
* `TreeCache.invalidate_drops_within` — **what an invalidation drops**, and when these are the
  entries of the path alone;
* `TreeCache.continued_path_is_dropped` — an entry of another path that is dropped.
-/

import PhpAudit.Proofs.Report.Fingerprints

set_option autoImplicit false

namespace PhpAudit.TreeCache

variable {τ : Type}

/-! ### Keys that begin with a path -/

/-- A path begins with another one and a colon. -/
def Continues (path other : String) : Prop :=
  (path ++ ":").toList <+: other.toList

/-- A path is the given one, or goes on from it with a colon. -/
def Within (path other : String) : Prop :=
  other = path ∨ Continues path other

instance (path other : String) : Decidable (Continues path other) :=
  inferInstanceAs (Decidable ((path ++ ":").toList <+: other.toList))

instance (path other : String) : Decidable (Within path other) :=
  inferInstanceAs (Decidable (_ ∨ _))

theorem Continues.ne {path other : String} (h : Continues path other) : other ≠ path := by
  rintro rfl
  have hlength := h.length_le
  simp at hlength

theorem colon_not_mem_digest (content : String) : ':' ∉ (digest content).toList :=
  fun h => absurd (Digest.mem_digits_of_mem_ofText h) (by decide)

/-- A key that ends in a digest begins with a path and a colon if its own path is within that
path. -/
theorem prefix_key_iff {path other digest : String} (hdigest : ':' ∉ digest.toList) :
    (path ++ ":").toList <+: (key other digest).toList ↔ Within path other := by
  have hkey : (key other digest).toList = other.toList ++ [':'] ++ digest.toList := by
    rw [key, String.toList_append, String.toList_append]
    rfl
  have hfront : (path ++ ":").toList = path.toList ++ [':'] := by
    rw [String.toList_append]
    rfl
  rw [hkey, Within, Continues, hfront]
  constructor
  · intro h
    rcases List.prefix_or_prefix_of_prefix h (List.prefix_append _ _) with hshort | ⟨rest, hrest⟩
    · -- the colon that was found is the last one of the key, or stands before it
      rcases List.prefix_concat_iff.1 hshort with heq | hinside
      · exact .inl (String.toList_injective (List.append_cancel_right heq).symm)
      · exact .inr hinside
    · -- otherwise it stands behind the last one, in the digest
      rw [← hrest] at h
      obtain ⟨more, hmore⟩ := h
      rw [List.append_assoc, List.append_cancel_left_eq] at hmore
      rcases List.eq_nil_or_concat rest with rfl | ⟨front, last, rfl⟩
      · rw [List.append_nil] at hrest
        exact .inl (String.toList_injective (List.append_cancel_right hrest))
      · rw [List.concat_eq_append, ← List.append_assoc] at hrest
        have hlast : last = ':' := List.singleton_inj.1 (List.append_inj_right' hrest rfl)
        exact absurd (hmore ▸ by simp [hlast]) hdigest
  · rintro (rfl | h)
    · exact List.prefix_append _ _
    · exact h.trans ((List.prefix_append _ _).trans (List.prefix_append _ _))

/-! ### Entries under their own paths -/

/-- Every entry stands under the path of its own file and some digest. -/
def Owned (c : TreeCache τ) : Prop :=
  ∀ x ∈ c.entries, ∃ content, x.1 = key x.2.file.path (digest content)

theorem Owned.parse [Timeline τ] {c : TreeCache τ} (h : c.Owned) (now : τ)
    (path content encoding : String) : (c.parse now path content encoding).2.Owned := by
  intro x hx
  obtain ⟨_, _, _, _, _, hcache⟩ | ⟨c', _, hsub, hparse⟩ := c.parse_cases now path content encoding
  · rw [hcache] at hx
    exact h x (mem_of_mem_get hx)
  · rw [hparse] at hx
    rcases mem_of_mem_parseAndStore hx with hold | rfl
    · -- entries may have been evicted for the new one, but none was changed
      exact h x (hsub x hold)
    · exact ⟨content, rfl⟩

/-- Whether a step stores a file under a path and a digest of the caller's choice. -/
def Op.isStore : Op τ → Bool
  | put .. => true
  | _ => false

namespace Session

/-- A step other than a store leaves entries under their own paths. -/
theorem step_owned [Timeline τ] {s : Session τ} (h : s.cache.Owned) {op : Op τ}
    (hop : op.isStore = false) : (s.step op).cache.Owned := by
  cases op with
  | parse path content encoding => exact h.parse s.now path content encoding
  | parseDirect path content encoding => exact h
  | get path digest =>
      have hget : (s.cache.get s.now path digest).2.Owned := fun x hx => h x (mem_of_mem_get hx)
      simp only [step]
      split <;> exact hget
  | put path digest which => cases hop -- here the caller's path need not be that of the file
  | invalidate path => exact fun x hx => h x (List.mem_filter.1 hx).1
  | clear => exact List.forall_mem_nil _
  | advance time => exact h

/-- So does a whole history. -/
theorem run_owned [Timeline τ] {s : Session τ} (h : s.cache.Owned) {ops : List (Op τ)}
    (hops : ∀ op ∈ ops, op.isStore = false) : (s.run ops).cache.Owned := by
  induction ops generalizing s with
  | nil => exact h
  | cons op ops ih =>
      obtain ⟨hop, hrest⟩ := List.forall_mem_cons.1 hops
      exact ih (step_owned h hop) hrest

end Session

/-! ### Invalidation -/

theorem Owned.invalidate {c : TreeCache τ} (h : c.Owned) (path : String) :
    c.invalidate path = ((c.entries.filter fun x => Within path x.2.file.path).length,
      { c with entries := c.entries.filter fun x => ¬ Within path x.2.file.path }) := by
  have hkept : (c.entries.filter fun x => !(path ++ ":").toList.isPrefixOf x.1.toList) =
      c.entries.filter fun x => ¬ Within path x.2.file.path := by
    refine List.filter_congr fun x hx => ?_
    obtain ⟨content, hkey⟩ := h x hx
    rw [Bool.eq_iff_iff, Bool.not_eq_true', Bool.eq_false_iff, Ne, List.isPrefixOf_iff_prefix, hkey,
      prefix_key_iff (colon_not_mem_digest content), decide_eq_true_iff]
  have hcount := List.length_eq_length_filter_add (l := c.entries)
    fun x => decide (Within path x.2.file.path)
  simp only [TreeCache.invalidate, hkept, Prod.mk.injEq, and_true]
  simp only [decide_not]
  omega

/-- **What an invalidation drops.**  In a cache that any history of parses, lookups, invalidations
and moves of the clock leads to, it drops the entries of the path and of the paths that go on from
it with a colon, tells their number, and leaves everything else as it was, the other entries in
their order.  These are the entries of the path alone exactly if there is no entry of a path that
goes on from it with a colon. -/
theorem invalidate_drops_within [Timeline τ] (c : TreeCache τ) (hc : c.entries = []) (start : τ)
    (ops : List (Op τ)) (hops : ∀ op ∈ ops, op.isStore = false) (path : String) :
    let cache := (Session.run { cache := c, now := start } ops).cache
    cache.invalidate path = ((cache.entries.filter fun x => Within path x.2.file.path).length,
      { cache with entries := cache.entries.filter fun x => ¬ Within path x.2.file.path }) ∧
    (cache.invalidate path = ((cache.entries.filter fun x => x.2.file.path = path).length,
        { cache with entries := cache.entries.filter fun x => x.2.file.path ≠ path }) ↔
      ∀ x ∈ cache.entries, ¬ Continues path x.2.file.path) := by
  intro cache
  have howned : cache.Owned := Session.run_owned (by simp [Owned, hc]) hops
  refine ⟨howned.invalidate path, ?_⟩
  rw [howned.invalidate path]
  constructor
  · intro h x hx hcontinues
    have hentries : (cache.entries.filter fun x => ¬ Within path x.2.file.path) =
        cache.entries.filter fun x => x.2.file.path ≠ path :=
      congrArg (fun r => r.2.entries) h
    have hleft : x ∈ cache.entries.filter fun x => x.2.file.path ≠ path :=
      List.mem_filter.2 ⟨hx, by simpa using hcontinues.ne⟩
    rw [← hentries] at hleft
    exact of_decide_eq_true (List.mem_filter.1 hleft).2 (.inr hcontinues)
  · intro h
    have hwithin : ∀ x ∈ cache.entries, Within path x.2.file.path ↔ x.2.file.path = path :=
      fun x hx => or_iff_left (h x hx)
    have hdropped : (cache.entries.filter fun x => Within path x.2.file.path) =
        cache.entries.filter fun x => x.2.file.path = path :=
      List.filter_congr fun x hx => decide_eq_decide.2 (hwithin x hx)
    have hkept : (cache.entries.filter fun x => ¬ Within path x.2.file.path) =
        cache.entries.filter fun x => x.2.file.path ≠ path :=
      List.filter_congr fun x hx => decide_eq_decide.2 (not_congr (hwithin x hx))
    rw [hdropped, hkept]

/-- Parses of a file, of the file after it has changed, of another one, and of one whose path goes
on with a colon. -/
def readings : List (Op Float) :=
  [.parse "a.php" "one" "utf-8", .parse "b.php" "one" "utf-8", .advance 1.0,
   .parse "a.php" "two" "utf-8", .parse "a.php:1" "one" "utf-8"]

/-- A cache that has room for all of them. -/
def wideCache : TreeCache Float :=
  { wordCache with capacity := 4 }

/-- An invalidation of the other file drops its entry alone. -/
theorem readings_invalidated :
    let cache := (Session.run { cache := wideCache, now := 0.0 } readings).cache
    wideCache.entries = [] ∧ (∀ op ∈ readings, op.isStore = false) ∧
      cache.entries.map (fun x => x.2.file.path) = ["a.php", "b.php", "a.php", "a.php:1"] ∧
      cache.invalidate "b.php" = ((cache.entries.filter fun x => x.2.file.path = "b.php").length,
        { cache with entries := cache.entries.filter fun x => x.2.file.path ≠ "b.php" }) := by
  have hpaths : (Session.run { cache := wideCache, now := 0.0 } readings).cache.entries.map
      (fun x => x.2.file.path) = ["a.php", "b.php", "a.php", "a.php:1"] := by decide +kernel
  have hops : ∀ op ∈ readings, op.isStore = false := by simp [readings, Op.isStore]
  have hother : ∀ path ∈ ["a.php", "b.php", "a.php", "a.php:1"], ¬ Continues "b.php" path := by
    decide
  refine ⟨rfl, hops, hpaths,
    (invalidate_drops_within wideCache rfl 0.0 readings hops "b.php").2.2 ?_⟩
  intro x hx
  rw [← hpaths] at hother
  exact hother _ (List.mem_map_of_mem hx)

/-- **An entry of another path is dropped.**  There is no entry of `a.php`, and yet an invalidation
of it drops one. -/
theorem continued_path_is_dropped :
    let cache := (Session.run { cache := wideCache, now := 0.0 }
      [.parse "a.php:1" "one" "utf-8"]).cache
    cache.entries.map (fun x => x.2.file.path) = ["a.php:1"] ∧
      (cache.invalidate "a.php").1 = 1 ∧ (cache.invalidate "a.php").2.size = 0 := by
  decide +kernel

end PhpAudit.TreeCache
