/-
Dictionaries under keys that are texts.

Keys of dictionaries are compared by value, so a number can be the same key as another one; a text
is the same key only as itself.  So reading under a text follows the laws of a map, and if no text
has two entries, new entries win over old ones.

* `Dict.get?_put_self`, `Dict.get?_put_of_ne`, `Dict.get?_erase_self`, `Dict.get?_erase_of_ne` —
  reading after a write and a removal;
* `Dict.Once` — no text has two entries; writing keeps this;
* `Dict.get?_update_of_once` — what new entries do not say stays as it was.
-/

import PhpAudit.Proofs.Assoc
import PhpAudit.Value.Basic

set_option autoImplicit false

namespace PhpAudit

theorem Key.beq_str_iff {k : Key} {a : String} : (k == .str a) = true ↔ k = .str a := by
  cases k with
  | str b =>
      have hbeq : ((.str b : Key) == .str a) = (b == a) := rfl
      rw [hbeq, beq_iff_eq, Key.str.injEq]
  | null => exact iff_of_false (fun h => by cases h) fun h => by cases h
  | bool _ => exact iff_of_false (fun h => by cases h) fun h => by cases h
  | int _ => exact iff_of_false (fun h => by cases h) fun h => by cases h
  | float _ => exact iff_of_false (fun h => by cases h) fun h => by cases h

theorem Key.eq_str_of_beq {k : Key} {a : String} (h : ((.str a : Key) == k) = true) :
    k = .str a := by
  cases k with
  | str b => exact (Key.beq_str_iff.1 h).symm
  | null => cases h
  | bool _ => cases h
  | int _ => cases h
  | float _ => cases h

namespace Dict

theorem get?_put_self (m : Dict) (a : String) (v : Value) :
    Assoc.get? (Assoc.put m (.str a) v) (.str a) = some v := by
  induction m with
  | nil => simp [Assoc.put, Assoc.get?, Key.beq_str_iff]
  | cons e m ih =>
      by_cases he : (e.1 == .str a) = true
      · simp [Assoc.put, Assoc.get?, he]
      · simp [Assoc.put, Assoc.get?, he, ih]

theorem get?_put_of_ne (m : Dict) {k : Key} {a : String} (h : k ≠ .str a) (v : Value) :
    Assoc.get? (Assoc.put m k v) (.str a) = Assoc.get? m (.str a) := by
  refine Assoc.get?_put_of_apart m v (Bool.eq_false_iff.2 (mt Key.beq_str_iff.1 h)) ?_
  intro k' hk'
  refine Bool.eq_false_iff.2 fun hka => h ?_
  rw [Key.beq_str_iff.1 hka] at hk'
  exact Key.eq_str_of_beq hk'

/-- No text is the key of two entries. -/
def Once (m : Dict) : Prop :=
  m.Pairwise fun e e' => ∀ a, e.1 = .str a → e'.1 ≠ .str a

theorem key_of_mem_put {m : Dict} {k : Key} {v : Value} {e : Key × Value}
    (h : e ∈ Assoc.put m k v) : e.1 = k ∨ ∃ e' ∈ m, e'.1 = e.1 := by
  induction m with
  | nil =>
      rw [Assoc.put, List.mem_singleton] at h
      exact Or.inl (congrArg Prod.fst h)
  | cons x m ih =>
      rw [Assoc.put] at h
      split at h
      · rcases List.mem_cons.1 h with rfl | h
        · exact Or.inr ⟨x, List.mem_cons_self, rfl⟩
        · exact Or.inr ⟨e, List.mem_cons_of_mem _ h, rfl⟩
      · rcases List.mem_cons.1 h with rfl | h
        · exact Or.inr ⟨x, List.mem_cons_self, rfl⟩
        · refine (ih h).imp_right ?_
          rintro ⟨e', he', hkey⟩
          exact ⟨e', List.mem_cons_of_mem _ he', hkey⟩

theorem Once.put {m : Dict} (h : Once m) (k : Key) (v : Value) : Once (Assoc.put m k v) := by
  induction m with
  | nil => exact List.pairwise_singleton _ _
  | cons x m ih =>
      obtain ⟨hx, hm⟩ := List.pairwise_cons.1 h
      rw [Assoc.put]
      split
      · exact List.pairwise_cons.2 ⟨hx, hm⟩
      · rename_i hother
        refine List.pairwise_cons.2 ⟨?_, ih hm⟩
        intro e he a hxa hea
        rcases key_of_mem_put he with hk | ⟨e', he', hkey⟩
        · rw [hxa, ← hk, hea] at hother
          exact hother (Key.beq_str_iff.2 rfl)
        · exact hx e' he' a hxa (hkey.trans hea)

theorem Once.update {m : Dict} (h : Once m) (new : Dict) : Once (Assoc.update m new) := by
  induction new generalizing m with
  | nil => exact h
  | cons e new ih => exact ih (h.put e.1 e.2)

theorem Once.erase {m : Dict} (h : Once m) (k : Key) : Once (Assoc.erase m k) :=
  List.Pairwise.sublist List.filter_sublist h

theorem get?_eq_none {m : Dict} {a : String} (h : ∀ e ∈ m, e.1 ≠ .str a) :
    Assoc.get? m (.str a) = none := by
  induction m with
  | nil => rfl
  | cons e m ih =>
      rw [Assoc.get?, if_neg (mt Key.beq_str_iff.1 (h e List.mem_cons_self))]
      exact ih fun e' he' => h e' (List.mem_cons_of_mem _ he')

/-- What new entries do not say stays as it was. -/
theorem get?_update_of_once (m : Dict) {new : Dict} (h : Once new) (a : String) :
    Assoc.get? (Assoc.update m new) (.str a) =
      (Assoc.get? new (.str a)).or (Assoc.get? m (.str a)) := by
  induction new generalizing m with
  | nil => rfl
  | cons e new ih =>
      obtain ⟨k, v⟩ := e
      obtain ⟨hfirst, hnew⟩ := List.pairwise_cons.1 h
      have hstep : Assoc.update m ((k, v) :: new) = Assoc.update (Assoc.put m k v) new := rfl
      rw [hstep, ih _ hnew]
      by_cases hk : k = .str a
      · subst hk
        rw [get?_eq_none fun e' he' => hfirst e' he' a rfl, get?_put_self, Assoc.get?,
          if_pos (Key.beq_str_iff.2 rfl)]
        rfl
      · rw [get?_put_of_ne m hk, Assoc.get?, if_neg (mt Key.beq_str_iff.1 hk)]

theorem get?_erase_self (m : Dict) (a : String) :
    Assoc.get? (Assoc.erase m (.str a)) (.str a) = none := by
  refine get?_eq_none fun e he hea => ?_
  have hkept := (List.mem_filter.1 he).2
  rw [Key.beq_str_iff.2 hea] at hkept
  cases hkept

theorem get?_erase_of_ne (m : Dict) {a b : String} (h : a ≠ b) :
    Assoc.get? (Assoc.erase m (.str a)) (.str b) = Assoc.get? m (.str b) := by
  refine Assoc.get?_erase_of_apart m fun k hk => Bool.eq_false_iff.2 fun hkb => h ?_
  exact Key.str.inj ((Key.beq_str_iff.1 hk).symm.trans (Key.beq_str_iff.1 hkb))

theorem update_ne_nil {m : Dict} (h : m ≠ []) (new : Dict) : Assoc.update m new ≠ [] := by
  induction new generalizing m with
  | nil => exact h
  | cons e new ih =>
      refine ih (?_ : Assoc.put m e.1 e.2 ≠ [])
      cases m with
      | nil => exact List.cons_ne_nil _ _
      | cons x m =>
          rw [Assoc.put]
          split <;> exact List.cons_ne_nil _ _

end Dict

end PhpAudit
