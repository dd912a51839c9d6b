/-
Maps that remember the order of their keys: what a write and a removal do to the other keys, and
what a write does to the whole list.

* `Assoc.get?_put`, `Assoc.get?_erase_of_ne` — reading after writing;
* `Assoc.get?_put_of_beq`, `Assoc.get?_put_of_not_beq` — the same where a key need not be like
  itself;
* `Assoc.put_map_of_has`, `Assoc.put_of_not_has` — a present key keeps its place, a new one goes
  last;
* `Assoc.get?_foldl_bump` — counting items by a key;
* `Assoc.get?_map_of_mem` — reading a map that a list of keyed values makes.
-/

import PhpAudit.Assoc

set_option autoImplicit false

namespace PhpAudit.Assoc

variable {κ α β : Type} [BEq κ]

theorem put_of_not_has {m : Assoc κ α} {k : κ} (h : has m k = false) (v : α) :
    put m k v = m ++ [(k, v)] := by
  induction m with
  | nil => rfl
  | cons e m ih =>
      simp only [has, List.any_cons, Bool.or_eq_false_iff] at h
      rw [put, if_neg (by rw [h.1]; exact Bool.false_ne_true), ih h.2]
      rfl

/-- What is found under a key is stored under a key like it. -/
theorem exists_mem_of_get? {m : Assoc κ α} {key : κ} {v : α} (h : get? m key = some v) :
    ∃ k, (k == key) = true ∧ (k, v) ∈ m := by
  induction m with
  | nil => simp [get?] at h
  | cons e m ih =>
      obtain ⟨k, w⟩ := e
      simp only [get?] at h
      split at h
      · rename_i hk
        rw [Option.some.inj h]
        exact ⟨k, hk, List.mem_cons_self⟩
      · obtain ⟨k', hk', hmem⟩ := ih h
        exact ⟨k', hk', List.mem_cons_of_mem _ hmem⟩

theorem mem_of_mem_erase {m : Assoc κ α} {key : κ} {e : κ × α} (h : e ∈ erase m key) : e ∈ m :=
  (List.mem_filter.1 h).1

/-- A write to one key leaves what is stored under a key that differs from all that are like it. -/
theorem get?_put_of_apart (m : Assoc κ α) {key other : κ} (v : α)
    (hself : (key == other) = false) (happart : ∀ k, (k == key) = true → (k == other) = false) :
    get? (put m key v) other = get? m other := by
  induction m with
  | nil => simp [put, get?, hself]
  | cons e m ih =>
      obtain ⟨k, w⟩ := e
      simp only [put]
      split
      · rename_i hk
        simp [get?, happart k hk]
      · rw [get?, get?, ih]

/-- So does a removal. -/
theorem get?_erase_of_apart (m : Assoc κ α) {key other : κ}
    (happart : ∀ k, (k == key) = true → (k == other) = false) :
    get? (erase m key) other = get? m other := by
  induction m with
  | nil => rfl
  | cons e m ih =>
      obtain ⟨k, w⟩ := e
      by_cases hk : k == key
      · have hdrop : erase ((k, w) :: m) key = erase m key := by simp [erase, hk]
        rw [hdrop, ih, get?, if_neg (by simp [happart k hk])]
      · have hkeep : erase ((k, w) :: m) key = (k, w) :: erase m key := by simp [erase, hk]
        rw [hkeep, get?, get?, ih]

theorem has_map (l : List β) (key : β → κ) (f : β → α) (k : κ) :
    has (l.map fun x => (key x, f x)) k = l.any fun x => key x == k := by
  rw [has, List.any_map]
  rfl

theorem erase_map (l : List β) (key : β → κ) (f : β → α) (k : κ) :
    erase (l.map fun x => (key x, f x)) k =
      (l.filter fun x => !(key x == k)).map fun x => (key x, f x) := by
  rw [erase, List.filter_map]
  rfl

/-- What is stored can be written again without a change. -/
theorem put_of_get? {m : Assoc κ α} {key : κ} {v : α} (h : get? m key = some v) :
    put m key v = m := by
  induction m with
  | nil => cases h
  | cons e m ih =>
      obtain ⟨k, w⟩ := e
      simp only [get?] at h
      simp only [put]
      split at h
      · rename_i hk
        rw [if_pos hk, Option.some.inj h]
      · rename_i hk
        rw [if_neg hk, ih h]

/-- An entry is found under its key if that is like itself and unlike all others. -/
theorem get?_of_mem {m : Assoc κ α} (hapart : m.Pairwise fun e e' => (e.1 == e'.1) = false)
    {e : κ × α} (hself : (e.1 == e.1) = true) (he : e ∈ m) : get? m e.1 = some e.2 := by
  induction m with
  | nil => cases he
  | cons first m ih =>
      obtain ⟨hfirst, hrest⟩ := List.pairwise_cons.1 hapart
      rcases List.mem_cons.1 he with rfl | he
      · rw [get?, if_pos hself]
      · rw [get?, if_neg (Bool.eq_false_iff.1 (hfirst e he)), ih hrest he]

section Partial

/-! A key may fail to be the same as itself. -/

variable [PartialEquivBEq κ]

theorem get?_congr (m : Assoc κ α) {key other : κ} (h : (key == other) = true) :
    get? m key = get? m other := by
  induction m with
  | nil => rfl
  | cons e m ih =>
      have hsame : (e.1 == key) = (e.1 == other) :=
        Bool.eq_iff_iff.2 ⟨fun hk => BEq.trans hk h, fun hk => BEq.trans hk (BEq.symm h)⟩
      rw [get?, get?, hsame, ih]

theorem get?_put_of_beq (m : Assoc κ α) {key other : κ} (h : (key == other) = true) (v : α) :
    get? (put m key v) other = some v := by
  induction m with
  | nil => simp [put, get?, h]
  | cons e m ih =>
      obtain ⟨k, w⟩ := e
      simp only [put]
      split
      · rename_i hk
        rw [get?, if_pos (BEq.trans hk h)]
      · rename_i hk
        rw [get?, if_neg fun hother => hk (BEq.trans hother (BEq.symm h)), ih]

theorem get?_put_of_not_beq (m : Assoc κ α) {key other : κ} (h : (key == other) = false) (v : α) :
    get? (put m key v) other = get? m other := by
  refine get?_put_of_apart m v h fun k hk => Bool.eq_false_iff.2 fun hother => ?_
  exact Bool.eq_false_iff.1 h (BEq.trans (BEq.symm hk) hother)

theorem get?_eq_none_of_apart {m : Assoc κ α} {key other : κ} (h : (key == other) = true)
    (happart : ∀ e ∈ m, (key == e.1) = false) : get? m other = none := by
  induction m with
  | nil => rfl
  | cons e m ih =>
      obtain ⟨hfirst, hrest⟩ := List.forall_mem_cons.1 happart
      rw [get?, if_neg fun he => ?_, ih hrest]
      exact Bool.eq_false_iff.1 hfirst (BEq.trans h (BEq.symm he))

end Partial

section Lawful

variable [LawfulBEq κ]

theorem mem_of_get? {m : Assoc κ α} {key : κ} {v : α} (h : get? m key = some v) :
    (key, v) ∈ m := by
  obtain ⟨k, hk, hmem⟩ := exists_mem_of_get? h
  rwa [← eq_of_beq hk]

theorem get?_put (m : Assoc κ α) (key other : κ) (v : α) :
    get? (put m key v) other = if key == other then some v else get? m other := by
  split
  · rename_i h
    exact get?_put_of_beq m h v
  · rename_i h
    exact get?_put_of_not_beq m (Bool.eq_false_iff.2 h) v

theorem getD_put_self (m : Assoc κ α) (key : κ) (v default : α) :
    getD (put m key v) key default = v := by
  rw [getD, get?_put, if_pos (beq_self_eq_true key), Option.getD_some]

theorem getD_put_of_ne (m : Assoc κ α) {key other : κ} (h : key ≠ other) (v default : α) :
    getD (put m key v) other default = getD m other default := by
  rw [getD, get?_put, if_neg (by simpa using h), getD]

theorem get?_erase_of_ne (m : Assoc κ α) {key other : κ} (h : other ≠ key) :
    get? (erase m key) other = get? m other := by
  refine get?_erase_of_apart m fun k hk => ?_
  rw [eq_of_beq hk]
  simpa using Ne.symm h

theorem getD_erase_of_ne (m : Assoc κ α) {key other : κ} (h : other ≠ key) (default : α) :
    getD (erase m key) other default = getD m other default := by
  rw [getD, get?_erase_of_ne m h, getD]

/-- Counting items by a key: a key has an entry once an item has it. -/
theorem get?_foldl_bump (xs : List β) (key : β → κ) (m : Assoc κ Nat) (k : κ) :
    get? (xs.foldl (fun m x => bump m (key x) 1) m) k =
      if xs.countP (fun x => key x == k) = 0 then get? m k
      else some (getD m k 0 + xs.countP fun x => key x == k) := by
  induction xs generalizing m with
  | nil => rfl
  | cons x xs ih =>
      rw [List.foldl_cons, ih, List.countP_cons, bump, getD, getD, get?_put]
      by_cases hx : key x == k
      · rw [if_pos hx, if_pos hx, if_neg (Nat.succ_ne_zero _), eq_of_beq hx, getD]
        split
        · rename_i hnone
          rw [hnone]
        · simp only [Option.getD_some, Nat.add_assoc, Nat.add_comm 1]
      · rw [if_neg hx, if_neg hx, Nat.add_zero]
        rfl

/-! ### Maps from lists of keyed values -/

variable {key : β → κ} {l : List β}

theorem get?_map_of_mem (hdistinct : (l.map key).Nodup) (f : β → α) {x : β} (hx : x ∈ l) :
    get? (l.map fun y => (key y, f y)) (key x) = some (f x) := by
  refine get?_of_mem (List.pairwise_map.2 ?_) (beq_self_eq_true _)
    (List.mem_map_of_mem (f := fun y => (key y, f y)) hx)
  exact (List.pairwise_map.1 hdistinct).imp fun hne => beq_eq_false_iff_ne.2 hne

theorem put_map_of_has (hdistinct : (l.map key).Nodup) {k : κ} (f : β → α) (v : α)
    (hhas : l.any fun x => key x == k) :
    put (l.map fun x => (key x, f x)) k v =
      l.map fun x => if key x == k then (k, v) else (key x, f x) := by
  induction l with
  | nil => cases hhas
  | cons y l ih =>
      simp only [List.map_cons, List.nodup_cons] at hdistinct
      simp only [List.map_cons, put]
      by_cases hk : key y == k
      · rw [if_pos hk, if_pos hk, eq_of_beq hk]
        congr 1
        apply List.map_congr_left
        intro x hx
        have hne : ¬ (key x == k) := fun h =>
          hdistinct.1 (List.mem_map.2 ⟨x, hx, (eq_of_beq h).trans (eq_of_beq hk).symm⟩)
        rw [if_neg hne]
      · have hrest : l.any fun x => key x == k := by simpa [hk] using hhas
        rw [if_neg hk, if_neg hk, ih hdistinct.2 hrest]

end Lawful

end PhpAudit.Assoc
