/-
Computations that can fail.

Most of the library runs in `Except`.  The lemmas below open such a computation in a hypothesis, one
step at a time, change the items of a result, and say when the same computation for every item of a
list succeeds.

* `of_bind_eq_ok`, `of_mapError_eq_ok` — what a computation that succeeded was made of;
* `bind_eq_error_iff` — which of two steps failed;
* `mapError_ok` — an error that is not there is not changed;
* `map_cons_map` — changing the items of a result;
* `mapM_ok`, `foldlM_ok`, `filterM_ok` — a computation that succeeds on every item succeeds on the
  list;
* `mem_of_mapM_ok`, `map_eq_of_mapM_ok` — what such a computation gives comes from the items, in
  order;
* `mapM_filter` — what it gives on some of the items;
* `forM_eq_ok_iff`, `forM_eq_error_iff` — which of several steps failed.
-/

set_option autoImplicit false

namespace PhpAudit

variable {ε ε' α β : Type}

/-- If two steps succeed one after the other, the first does, and the second on its result. -/
theorem of_bind_eq_ok {x : Except ε α} {f : α → Except ε β} {r : β}
    (h : (x >>= f) = .ok r) : ∃ a, x = .ok a ∧ f a = .ok r := by
  match x with
  | .ok a => exact ⟨a, rfl, h⟩
  | .error e => cases h

/-- Two steps fail if the first does, or the second on its result. -/
theorem bind_eq_error_iff {x : Except ε α} {f : α → Except ε β} {e : ε} :
    (x >>= f) = .error e ↔ x = .error e ∨ ∃ a, x = .ok a ∧ f a = .error e := by
  cases x with
  | ok a =>
      constructor
      · exact fun h => .inr ⟨a, rfl, h⟩
      · rintro (h | ⟨b, hb, h⟩)
        · cases h
        · cases hb
          exact h
  | error e' =>
      constructor
      · intro h
        cases h
        exact .inl rfl
      · rintro (h | ⟨b, hb, -⟩)
        · cases h
          rfl
        · cases hb

theorem of_mapError_eq_ok {x : Except ε α} {f : ε → ε'} {a : α}
    (h : x.mapError f = .ok a) : x = .ok a := by
  match x with
  | .ok b =>
      cases h
      rfl
  | .error e => cases h

theorem mapError_ok (f : ε → ε') (a : α) : (.ok a : Except ε α).mapError f = .ok a :=
  rfl

theorem of_toOption_eq_some {x : Except ε α} {a : α} (h : x.toOption = some a) : x = .ok a := by
  cases x with
  | error e => cases h
  | ok b => rw [Option.some.inj h]

/-- An item in front of a result stays in front when all items are changed. -/
theorem map_cons_map (x : Except ε (List α)) (a : α) (f : α → β) :
    (x.map (a :: ·)).map (List.map f) = (x.map (List.map f)).map (f a :: ·) := by
  cases x with
  | error e => rfl
  | ok as => rfl

/-- A computation that succeeds on every item succeeds on the list. -/
theorem mapM_ok {f : α → Except ε β} {xs : List α} (h : ∀ x ∈ xs, ∃ y, f x = .ok y) :
    ∃ ys, xs.mapM f = .ok ys := by
  induction xs with
  | nil => exact ⟨[], rfl⟩
  | cons x xs ih =>
      obtain ⟨y, hy⟩ := h x List.mem_cons_self
      obtain ⟨ys, hys⟩ := ih fun x' hx' => h x' (List.mem_cons_of_mem _ hx')
      exact ⟨y :: ys, by simp [List.mapM_cons, hy, hys, bind, Except.bind, pure, Except.pure]⟩

/-- A computation on a list gives one result for each item, in order. -/
theorem map_eq_of_mapM_ok {f : α → Except ε β} {xs : List α} {ys : List β}
    (h : xs.mapM f = .ok ys) : xs.map f = ys.map .ok := by
  induction xs generalizing ys with
  | nil =>
      cases h
      rfl
  | cons x xs ih =>
      rw [List.mapM_cons] at h
      obtain ⟨y, hy, h⟩ := of_bind_eq_ok h
      obtain ⟨ys', hys, h⟩ := of_bind_eq_ok h
      cases h
      rw [List.map_cons, List.map_cons, hy, ih hys]

/-- What such a computation gives is what it gives on the items. -/
theorem mem_of_mapM_ok {f : α → Except ε β} {xs : List α} {ys : List β} (h : xs.mapM f = .ok ys) :
    (∀ x ∈ xs, ∃ y ∈ ys, f x = .ok y) ∧ ∀ y ∈ ys, ∃ x ∈ xs, f x = .ok y := by
  have hmap := map_eq_of_mapM_ok h
  constructor
  · intro x hx
    obtain ⟨y, hy, hfx⟩ := List.mem_map.1 (hmap ▸ List.mem_map_of_mem hx)
    exact ⟨y, hy, hfx.symm⟩
  · intro y hy
    exact List.mem_map.1 (hmap ▸ List.mem_map_of_mem hy)

/-- What a computation gives on some of the items. -/
theorem mapM_filter {f : α → Except ε β} {p : α → Bool} {q : β → Bool}
    {xs : List α} {ys : List β} (h : xs.mapM f = .ok ys)
    (hpq : ∀ x ∈ xs, ∀ y, f x = .ok y → q y = p x) :
    (xs.filter p).mapM f = .ok (ys.filter q) := by
  induction xs generalizing ys with
  | nil =>
      cases h
      rfl
  | cons x xs ih =>
      rw [List.mapM_cons] at h
      obtain ⟨y, hy, h⟩ := of_bind_eq_ok h
      obtain ⟨ys', hys, h⟩ := of_bind_eq_ok h
      cases h
      have hrest := ih hys fun x' hx' => hpq x' (List.mem_cons_of_mem _ hx')
      have hfirst : q y = p x := hpq x List.mem_cons_self y hy
      rw [List.filter_cons, List.filter_cons, hfirst]
      split
      · rw [List.mapM_cons, hy, hrest]
        rfl
      · exact hrest

/-- Steps that are taken one after the other all succeed. -/
theorem forM_eq_ok_iff {f : α → Except ε Unit} {xs : List α} :
    forM xs f = .ok () ↔ ∀ x ∈ xs, f x = .ok () := by
  induction xs with
  | nil => simp [pure, Except.pure]
  | cons x xs ih =>
      rw [List.forM_cons, List.forall_mem_cons, ← ih]
      constructor
      · intro h
        obtain ⟨_, hx, hxs⟩ := of_bind_eq_ok h
        exact ⟨hx, hxs⟩
      · rintro ⟨hx, hxs⟩
        rw [hx]
        exact hxs

/-- If steps that are taken one after the other fail, one of them does and those before it do
not. -/
theorem forM_eq_error_iff {f : α → Except ε Unit} {xs : List α} {e : ε} :
    forM xs f = .error e ↔
      ∃ before x after, xs = before ++ x :: after ∧ (∀ y ∈ before, f y = .ok ()) ∧
        f x = .error e := by
  induction xs with
  | nil => simp [pure, Except.pure]
  | cons x xs ih =>
      rw [List.forM_cons, bind_eq_error_iff, ih]
      constructor
      · rintro (hx | ⟨_, hx, before, y, after, rfl, hbefore, hy⟩)
        · exact ⟨[], x, xs, rfl, nofun, hx⟩
        · exact ⟨x :: before, y, after, rfl, List.forall_mem_cons.2 ⟨hx, hbefore⟩, hy⟩
      · rintro ⟨before, y, after, hsplit, hbefore, hy⟩
        cases before with
        | nil =>
            cases hsplit
            exact .inl hy
        | cons z before =>
            cases hsplit
            obtain ⟨hz, hbefore⟩ := List.forall_mem_cons.1 hbefore
            exact .inr ⟨(), hz, before, y, after, rfl, hbefore, hy⟩

theorem foldlM_ok {f : β → α → Except ε β} {xs : List α} (h : ∀ x ∈ xs, ∀ s, ∃ s', f s x = .ok s')
    (s : β) : ∃ s', xs.foldlM f s = .ok s' := by
  induction xs generalizing s with
  | nil => exact ⟨s, rfl⟩
  | cons x xs ih =>
      obtain ⟨s₁, hs₁⟩ := h x List.mem_cons_self s
      obtain ⟨s₂, hs₂⟩ := ih (fun x' hx' => h x' (List.mem_cons_of_mem _ hx')) s₁
      refine ⟨s₂, ?_⟩
      rw [List.foldlM_cons, hs₁]
      exact hs₂

theorem filterM_ok {p : α → Except ε Bool} {xs : List α} (h : ∀ x ∈ xs, ∃ b, p x = .ok b) :
    ∃ ys, xs.filterM p = .ok ys := by
  have haux : ∀ acc, ∃ ys, List.filterAuxM p xs acc = .ok ys := by
    induction xs with
    | nil => exact fun acc => ⟨acc, rfl⟩
    | cons x xs ih =>
        intro acc
        obtain ⟨b, hb⟩ := h x List.mem_cons_self
        obtain ⟨ys, hys⟩ :=
          ih (fun x' hx' => h x' (List.mem_cons_of_mem _ hx')) (cond b (x :: acc) acc)
        refine ⟨ys, ?_⟩
        rw [List.filterAuxM, hb]
        exact hys
  obtain ⟨ys, hys⟩ := haux []
  exact ⟨ys.reverse, by rw [List.filterM, hys]; rfl⟩

end PhpAudit
