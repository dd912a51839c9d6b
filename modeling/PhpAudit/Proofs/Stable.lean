/-
Sorting keeps the order of equals, so picking members of a list and sorting them can be done in
either order.

* `mergeSort_cons_of_split` — where sorting puts a new first member: in front of its equals;
* `filter_mergeSort` — **picking from the sorted list is sorting what was picked**;
* `pairwise_mergeSort_lex` — an order that the list had before still holds among equals.
-/

set_option autoImplicit false

namespace PhpAudit

variable {α : Type} {le : α → α → Bool}

/-- A new first member comes behind those that are strictly before it and in front of all others. -/
theorem exists_split_mergeSort_cons (htrans : ∀ a b c : α, le a b → le b c → le a c)
    (htotal : ∀ a b : α, le a b || le b a) (a : α) (l : List α) :
    ∃ front back, (a :: l).mergeSort le = front ++ a :: back ∧ l.mergeSort le = front ++ back ∧
      (∀ b ∈ front, le a b = false) ∧ ∀ b ∈ back, le a b = true := by
  obtain ⟨front, back, hsort, hrest, hfront⟩ := List.mergeSort_cons htrans htotal a l
  have hpair := List.pairwise_mergeSort htrans htotal (a :: l)
  rw [hsort, List.pairwise_append, List.pairwise_cons] at hpair
  exact ⟨front, back, hsort, hrest, fun b hb => by simpa using hfront b hb, hpair.2.1.1⟩

theorem mergeSort_cons_of_split (htrans : ∀ a b c : α, le a b → le b c → le a c)
    (htotal : ∀ a b : α, le a b || le b a) {a : α} {l front back : List α}
    (hsplit : l.mergeSort le = front ++ back) (hfront : ∀ b ∈ front, le a b = false)
    (hback : ∀ b ∈ back, le a b = true) : (a :: l).mergeSort le = front ++ a :: back := by
  obtain ⟨front', back', hsort, hsplit', hfront', hback'⟩ :=
    exists_split_mergeSort_cons htrans htotal a l
  -- both splits stop where the members are no longer strictly before `a`
  have hstop : ∀ {xs ys : List α}, (∀ b ∈ xs, le a b = false) → (∀ b ∈ ys, le a b = true) →
      (xs ++ ys).takeWhile (fun b => !le a b) = xs := by
    intro xs ys hxs hys
    rw [List.takeWhile_append_of_pos fun b hb => by rw [hxs b hb]; rfl]
    cases ys with
    | nil => simp
    | cons b ys => simp [hys b List.mem_cons_self]
  have heq : front' ++ back' = front ++ back := hsplit'.symm.trans hsplit
  have hfronts : front' = front := by
    rw [← hstop hfront' hback', heq, hstop hfront hback]
  rw [hfronts] at heq hsort
  rw [hsort, List.append_cancel_left heq]

/-- **Picking from the sorted list is sorting what was picked.** -/
theorem filter_mergeSort (htrans : ∀ a b c : α, le a b → le b c → le a c)
    (htotal : ∀ a b : α, le a b || le b a) (p : α → Bool) (l : List α) :
    (l.mergeSort le).filter p = (l.filter p).mergeSort le := by
  induction l with
  | nil => rw [List.mergeSort_nil, List.filter_nil, List.mergeSort_nil]
  | cons a l ih =>
      obtain ⟨front, back, hsort, hsplit, hfront, hback⟩ :=
        exists_split_mergeSort_cons htrans htotal a l
      rw [hsplit, List.filter_append] at ih
      rw [hsort, List.filter_append]
      by_cases ha : p a
      · rw [List.filter_cons_of_pos ha, List.filter_cons_of_pos ha]
        exact (mergeSort_cons_of_split htrans htotal ih.symm
          (fun b hb => hfront b (List.mem_filter.1 hb).1)
          (fun b hb => hback b (List.mem_filter.1 hb).1)).symm
      · rw [List.filter_cons_of_neg ha, List.filter_cons_of_neg ha, ih]

/-- An order that holds throughout the list still holds among equals of the sorted one. -/
theorem pairwise_mergeSort_lex (htrans : ∀ a b c : α, le a b → le b c → le a c)
    (htotal : ∀ a b : α, le a b || le b a) {R : α → α → Prop} {l : List α} (h : l.Pairwise R) :
    (l.mergeSort le).Pairwise fun a b => le b a = false ∨ (le a b = true ∧ R a b) := by
  induction l with
  | nil => simp
  | cons a l ih =>
      obtain ⟨front, back, hsort, hsplit, hfront, hback⟩ :=
        exists_split_mergeSort_cons htrans htotal a l
      obtain ⟨ha, hl⟩ := List.pairwise_cons.1 h
      have hrest := ih hl
      rw [hsplit, List.pairwise_append] at hrest
      rw [hsort, List.pairwise_append, List.pairwise_cons]
      refine ⟨hrest.1, ⟨fun b hb => ?_, hrest.2.1⟩, fun b hb c hc => ?_⟩
      · have hsorted : b ∈ l.mergeSort le := by
          rw [hsplit]
          exact List.mem_append_right _ hb
        have hmem : b ∈ l := List.mem_mergeSort.1 hsorted
        exact .inr ⟨hback b hb, ha b hmem⟩
      · rcases List.mem_cons.1 hc with rfl | hc
        · exact .inl (hfront b hb)
        · exact hrest.2.2 b hb c hc

/-- The members of a list in order of their numbers. -/
theorem pairwise_zipIdx (l : List α) : l.zipIdx.Pairwise fun a b => a.2 < b.2 := by
  rw [← List.pairwise_map (f := Prod.snd), List.zipIdx_map_snd]
  exact List.pairwise_lt_range'

end PhpAudit
