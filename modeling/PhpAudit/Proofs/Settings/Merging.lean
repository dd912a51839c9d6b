/-
**What merging settings does at every path.**

Merging goes through the entries that are given: where a dictionary meets a dictionary it goes on
inside, and everywhere else what is given replaces what was there.  Here the outcome is described by
paths, that is by the keys on the way to a value.  What is given wins wherever it has a value; where
it has none, what was there stays, unless a value that is no dictionary was put on the way to it.
Keys that were there keep their places, and new ones follow in the order in which they are given.

Keys are compared by value, and one that is no number at all is not the same as any key, itself
included.  So an entry under such a key cannot be found: no path leads through it, and a second
merge would add it once more.

Main definitions:

* `Value.follow?` — what a path leads to;
* `Value.Throughout` — every dictionary that a path leads to is of a kind;
* `Value.Distinct`, `Value.Findable` — no two entries have one key, and every entry can be found;
* `Value.Cuts` — a value that is no dictionary stands on the way.

Main results:

* `Key.beq_iff` — when two keys are the same;
* `Settings.get?_mergeEntries`, `Settings.keys_mergeEntries` — what a merge does in one dictionary;
* `Settings.follow?_mergeValue` — what it does at the end of every path;
* `Settings.mergeValue_again` — merging twice is merging once;
* `Settings.merge_by_paths` — **what merging settings does at every path**.
-/

import PhpAudit.Proofs.Assoc
import PhpAudit.Proofs.Number.Order
import PhpAudit.Settings.Basic

set_option autoImplicit false

namespace PhpAudit

/-! ### Keys -/

theorem Number.eqv_iff {a b : Number} :
    a.eqv b = true ↔ ∃ u, a.place? = some u ∧ b.place? = some u := by
  rw [eqv, compare?_eq]
  cases a.place? with
  | none => simp
  | some u =>
      cases b.place? with
      | none => simp
      | some v =>
          rw [Option.map₂_some_some, beq_iff_eq, Option.some.injEq, cmp_eq_eq_iff]
          constructor
          · rintro rfl
            exact ⟨u, rfl, rfl⟩
          · rintro ⟨w, hu, hv⟩
            exact Option.some.inj (hu.trans hv.symm)

namespace Key

/-- What a key is compared by: null, a place on the scale of numbers, or a text. -/
inductive Mark where
  | null
  | number (place : WithBot (WithTop Int))
  | text (s : String)

/-- The mark of a key; none if it is no number at all. -/
def mark? : Key → Option Mark
  | null => some .null
  | str s => some (.text s)
  | k => (k.number?.bind Number.place?).map .number

/-- Two keys are the same if they have one mark. -/
theorem beq_iff {a b : Key} : (a == b) = true ↔ ∃ m, a.mark? = some m ∧ b.mark? = some m := by
  have hnumber : ∀ m n : Number, m.eqv n = true ↔
      ∃ k, m.place?.map Mark.number = some k ∧ n.place?.map Mark.number = some k := by
    intro m n
    rw [Number.eqv_iff]
    constructor
    · rintro ⟨u, hm, hn⟩
      exact ⟨.number u, by rw [hm]; rfl, by rw [hn]; rfl⟩
    · rintro ⟨k, hm, hn⟩
      obtain ⟨u, hu, rfl⟩ := Option.map_eq_some_iff.1 hm
      obtain ⟨v, hv, heq⟩ := Option.map_eq_some_iff.1 hn
      cases heq
      exact ⟨_, hu, hv⟩
  show same a b = true ↔ _
  cases a <;> cases b <;> simp [same, mark?, number?, hnumber]
  exact eq_comm

instance : PartialEquivBEq Key where
  symm h := by
    obtain ⟨m, ha, hb⟩ := beq_iff.1 h
    exact beq_iff.2 ⟨m, hb, ha⟩
  trans h h' := by
    obtain ⟨m, ha, hb⟩ := beq_iff.1 h
    obtain ⟨m', hb', hc⟩ := beq_iff.1 h'
    cases hb.symm.trans hb'
    exact beq_iff.2 ⟨m, ha, hc⟩

end Key

/-! ### Paths -/

namespace Value

/-- What a path leads to. -/
def follow? (v : Value) : List Key → Option Value
  | [] => some v
  | k :: path => (v.dict?.bind fun entries => Assoc.get? entries k).bind fun w => w.follow? path

theorem eq_dict_of_dict? {v : Value} {entries : Dict} (h : v.dict? = some entries) :
    v = .dict entries := by
  cases v with
  | dict _ => rw [Option.some.inj h]
  | _ => cases h

theorem eq_some_dict_of_bind {old : Option Value} {entries : Dict}
    (h : old.bind dict? = some entries) : old = some (.dict entries) := by
  obtain ⟨w, hold, hw⟩ := Option.bind_eq_some_iff.1 h
  rw [hold, eq_dict_of_dict? hw]

theorem follow?_dict (entries : Dict) (k : Key) (path : List Key) :
    (dict entries).follow? (k :: path) = (Assoc.get? entries k).bind fun w => w.follow? path :=
  rfl

/-- No path goes on from a value that is no dictionary. -/
theorem follow?_leaf {v : Value} (h : v.dict? = none) (k : Key) (path : List Key) :
    v.follow? (k :: path) = none := by
  rw [follow?, h]
  rfl

/-- Every dictionary that a path leads to is of a kind. -/
def Throughout (P : Dict → Prop) (v : Value) : Prop :=
  ∀ path entries, v.follow? path = some (.dict entries) → P entries

section

variable {P : Dict → Prop} {entries : Dict}

theorem Throughout.here (h : Throughout P (.dict entries)) : P entries :=
  h [] entries rfl

theorem Throughout.below (h : Throughout P (.dict entries)) {k : Key} {v : Value}
    (hk : Assoc.get? entries k = some v) : Throughout P v := by
  intro path es hes
  refine h (k :: path) es ?_
  rw [follow?_dict, hk]
  exact hes

theorem throughout_leaf {v : Value} (h : v.dict? = none) : Throughout P v := by
  intro path es hes
  cases path with
  | nil =>
      cases hes
      cases h
  | cons k path =>
      rw [follow?_leaf h] at hes
      cases hes

theorem throughout_dict (hhere : P entries) (hbelow : ∀ e ∈ entries, Throughout P e.2) :
    Throughout P (.dict entries) := by
  intro path es hes
  cases path with
  | nil =>
      cases hes
      exact hhere
  | cons k path =>
      rw [follow?_dict] at hes
      obtain ⟨v, hv, hes⟩ := Option.bind_eq_some_iff.1 hes
      obtain ⟨k', -, hmem⟩ := Assoc.exists_mem_of_get? hv
      exact hbelow (k', v) hmem path es hes

end

/-- No dictionary in a value has two entries under one key. -/
def Distinct : Value → Prop :=
  Throughout fun entries => entries.Pairwise fun e e' => (e.1 == e'.1) = false

/-- Every entry of a dictionary in a value can be found under its key. -/
def Findable : Value → Prop :=
  Throughout fun entries => ∀ e ∈ entries, (e.1 == e.1) = true

/-- A value that is no dictionary stands on the way along a path. -/
def Cuts (v : Value) (path : List Key) : Prop :=
  ∃ front rest leaf, path = front ++ rest ∧ rest ≠ [] ∧ v.follow? front = some leaf ∧
    leaf.dict? = none

theorem not_cuts_nil {v : Value} : ¬ v.Cuts [] := by
  rintro ⟨front, rest, leaf, hsplit, hrest, -, -⟩
  exact hrest (List.append_eq_nil_iff.1 hsplit.symm).2

/-- One step along a path. -/
theorem cuts_dict_cons {entries : Dict} {k : Key} {path : List Key} :
    (dict entries).Cuts (k :: path) ↔ ∃ v, Assoc.get? entries k = some v ∧ v.Cuts path := by
  constructor
  · rintro ⟨front, rest, leaf, hsplit, hrest, hleaf, hno⟩
    cases front with
    | nil =>
        cases hleaf
        cases hno
    | cons k' front =>
        cases hsplit
        obtain ⟨v, hv, hleaf⟩ := Option.bind_eq_some_iff.1 hleaf
        exact ⟨v, hv, front, rest, leaf, rfl, hrest, hleaf, hno⟩
  · rintro ⟨v, hv, front, rest, leaf, rfl, hrest, hleaf, hno⟩
    exact ⟨k :: front, rest, leaf, rfl, hrest, by rw [follow?_dict, hv]; exact hleaf, hno⟩

/-- Nothing is found behind a value that is no dictionary. -/
theorem Cuts.follow?_eq_none {v : Value} {path : List Key} (h : v.Cuts path) :
    v.follow? path = none := by
  obtain ⟨front, rest, leaf, rfl, hrest, hleaf, hno⟩ := h
  induction front generalizing v with
  | nil =>
      cases hleaf
      cases rest with
      | nil => exact absurd rfl hrest
      | cons k rest => exact follow?_leaf hno k rest
  | cons k front ih =>
      obtain ⟨w, hw, hleaf⟩ := Option.bind_eq_some_iff.1 hleaf
      rw [List.cons_append, follow?, hw]
      exact ih hleaf

/-- Induction over dictionaries within dictionaries. -/
theorem induction_entries {P : Value → Prop} (leaf : ∀ v, v.dict? = none → P v)
    (dict : ∀ entries : Dict, (∀ e ∈ entries, P e.2) → P (.dict entries)) (v : Value) : P v := by
  match v with
  | .dict entries => exact dict entries fun e he => induction_entries leaf dict e.2
  | .null => exact leaf _ rfl
  | .bool _ => exact leaf _ rfl
  | .int _ => exact leaf _ rfl
  | .float _ => exact leaf _ rfl
  | .str _ => exact leaf _ rfl
  | .list _ => exact leaf _ rfl
termination_by sizeOf v
decreasing_by
  have hsize := List.sizeOf_lt_of_mem he
  obtain ⟨k, w⟩ := e
  simp only [Prod.mk.sizeOf_spec, Value.dict.sizeOf_spec] at hsize ⊢
  omega

end Value

namespace Settings

/-! ### One dictionary -/

theorem mergeValue_leaf (old : Option Value) {v : Value} (h : v.dict? = none) :
    mergeValue old v = v := by
  cases v with
  | dict entries => cases h
  | _ => rfl

theorem mergeValue_dict_dict (base given : Dict) :
    mergeValue (some (.dict base)) (.dict given) = .dict (mergeEntries base given) := by
  rw [mergeValue]

theorem mergeValue_of_no_dict {old : Option Value} (h : old.bind Value.dict? = none) (v : Value) :
    mergeValue old v = v := by
  cases v with
  | dict entries =>
      cases old with
      | none => rfl
      | some w =>
          cases w with
          | dict base => cases h
          | _ => rfl
  | _ => rfl

/-- What stands under a key after a merge. -/
theorem get?_mergeEntries (base : Dict) {given : Dict}
    (hgiven : given.Pairwise fun e e' => (e.1 == e'.1) = false) (k : Key) :
    Assoc.get? (mergeEntries base given) k =
      ((Assoc.get? given k).map (mergeValue (Assoc.get? base k))).or (Assoc.get? base k) := by
  induction given generalizing base with
  | nil =>
      rw [mergeEntries]
      rfl
  | cons e given ih =>
      obtain ⟨key, v⟩ := e
      obtain ⟨hfirst, hrest⟩ := List.pairwise_cons.1 hgiven
      rw [mergeEntries, ih _ hrest, Assoc.get?]
      split
      · -- no later entry has the key, so what the first one leaves there stays
        rename_i hk
        rw [Assoc.get?_eq_none_of_apart hk hfirst, Assoc.get?_put_of_beq base hk,
          Assoc.get?_congr base hk]
        rfl
      · rename_i hk
        rw [Assoc.get?_put_of_not_beq base (Bool.eq_false_iff.2 hk)]

theorem has_put (m : Dict) (key k : Key) (v : Value) (h : Assoc.has m key = true) :
    Assoc.has (Assoc.put m key v) k = Assoc.has m k ∧
      Assoc.keys (Assoc.put m key v) = Assoc.keys m := by
  induction m with
  | nil => cases h
  | cons e m ih =>
      obtain ⟨k', w⟩ := e
      simp only [Assoc.put]
      split
      · exact ⟨rfl, rfl⟩
      · rename_i hk
        obtain ⟨hhas, hkeys⟩ := ih (by simpa [Assoc.has, hk] using h)
        exact ⟨congrArg ((k' == k) || ·) hhas, congrArg (k' :: ·) hkeys⟩

/-- Keys that were there keep their places, and new ones follow in the order in which they are
given. -/
theorem keys_mergeEntries (base : Dict) {given : Dict}
    (hgiven : given.Pairwise fun e e' => (e.1 == e'.1) = false) :
    Assoc.keys (mergeEntries base given) =
      Assoc.keys base ++ (Assoc.keys given).filter fun k => !Assoc.has base k := by
  induction given generalizing base with
  | nil =>
      rw [mergeEntries]
      exact (List.append_nil _).symm
  | cons e given ih =>
      obtain ⟨key, v⟩ := e
      obtain ⟨hfirst, hrest⟩ := List.pairwise_cons.1 hgiven
      have hkeys : Assoc.keys ((key, v) :: given) = key :: Assoc.keys given := rfl
      rw [mergeEntries, ih _ hrest, hkeys, List.filter_cons]
      cases hhas : Assoc.has base key with
      | true =>
          -- the entry is put in its old place, so the same keys are there for the entries to come
          have hput := fun k => has_put base key k (mergeValue (Assoc.get? base key) v) hhas
          simp only [(hput _).1, (hput key).2]
          rfl
      | false =>
          rw [Assoc.put_of_not_has hhas]
          -- the new key is at the end, and none of the entries to come has it
          have hnew : (Assoc.keys given).filter (fun k =>
              !Assoc.has (base ++ [(key, mergeValue (Assoc.get? base key) v)]) k) =
                (Assoc.keys given).filter fun k => !Assoc.has base k := by
            refine List.filter_congr fun k hk => ?_
            obtain ⟨e, he, rfl⟩ := List.mem_map.1 hk
            simp [Assoc.has, hfirst e he]
          rw [hnew, Assoc.keys, List.map_append, List.append_assoc]
          rfl

/-- A dictionary that is merged in makes a dictionary, and its keys follow those that were there. -/
theorem mergeValue_dict (old : Option Value) {given : Dict}
    (hgiven : given.Pairwise fun e e' => (e.1 == e'.1) = false) :
    let before := (old.bind Value.dict?).getD []
    ∃ after, mergeValue old (.dict given) = .dict after ∧ Assoc.keys after =
      Assoc.keys before ++ (Assoc.keys given).filter fun k => !Assoc.has before k := by
  cases hold : old.bind Value.dict? with
  | none =>
      refine ⟨given, mergeValue_of_no_dict hold _, ?_⟩
      exact (List.filter_eq_self.2 fun _ _ => rfl).symm
  | some base =>
      obtain rfl := Value.eq_some_dict_of_bind hold
      exact ⟨_, mergeValue_dict_dict base given, keys_mergeEntries base hgiven⟩

/-! ### Every path -/

/-- What is found at the end of a path after a merge: what is given there, merged onto what was
there; nothing behind something else that was put on the way; and else what was there. -/
theorem follow?_mergeValue (old : Option Value) {new : Value} (hnew : new.Distinct)
    (path : List Key) :
    (∀ v, new.follow? path = some v → (mergeValue old new).follow? path =
      some (mergeValue (old.bind fun w => w.follow? path) v)) ∧
    (new.Cuts path → (mergeValue old new).follow? path = none) ∧
    (new.follow? path = none → ¬ new.Cuts path → (mergeValue old new).follow? path =
      old.bind fun w => w.follow? path) := by
  -- along the path both values are left for what they have under its first key, if anything
  induction path generalizing old new with
  | nil =>
      refine ⟨fun v hv => ?_, fun hcut => absurd hcut Value.not_cuts_nil, nofun⟩
      cases hv
      cases old <;> rfl
  | cons k path ih =>
      cases hdict : new.dict? with
      | none =>
          rw [mergeValue_leaf old hdict, Value.follow?_leaf hdict]
          refine ⟨nofun, fun _ => rfl, fun _ hcut => absurd ?_ hcut⟩
          exact ⟨[], k :: path, new, rfl, List.cons_ne_nil _ _, rfl, hdict⟩
      | some given =>
          obtain rfl := Value.eq_dict_of_dict? hdict
          cases hold : old.bind Value.dict? with
          | none =>
              -- no dictionary was there, so no path led any further
              have hnone : (old.bind fun w => w.follow? (k :: path)) = none := by
                cases old with
                | none => rfl
                | some w => exact Value.follow?_leaf hold k path
              rw [mergeValue_of_no_dict hold, hnone]
              refine ⟨fun v hv => ?_, Value.Cuts.follow?_eq_none, fun hv _ => hv⟩
              rw [mergeValue_of_no_dict rfl, hv]
          | some base =>
              obtain rfl := Value.eq_some_dict_of_bind hold
              simp only [mergeValue_dict_dict, Option.bind_some, Value.follow?_dict,
                get?_mergeEntries base hnew.here, Value.cuts_dict_cons]
              cases hk : Assoc.get? given k with
              | none =>
                  refine ⟨nofun, ?_, fun _ _ => rfl⟩
                  rintro ⟨v, hv, -⟩
                  cases hv
              | some next =>
                  obtain ⟨hgiven, hcut, hkept⟩ := ih (Assoc.get? base k) (hnew.below hk)
                  refine ⟨hgiven, ?_, fun hnone hno => hkept hnone fun hcuts => hno ⟨_, rfl, hcuts⟩⟩
                  rintro ⟨v, hv, hcuts⟩
                  cases hv
                  exact hcut hcuts

/-! ### Merging again -/

/-- What is there already can be merged in without a change. -/
theorem mergeEntries_eq_self {merged given : Dict} (h : ∀ e ∈ given, ∃ v,
    Assoc.get? merged e.1 = some v ∧ mergeValue (some v) e.2 = v) :
    mergeEntries merged given = merged := by
  induction given with
  | nil => rw [mergeEntries]
  | cons e given ih =>
      obtain ⟨⟨v, hv, hsame⟩, hrest⟩ := List.forall_mem_cons.1 h
      obtain ⟨k, new⟩ := e
      rw [mergeEntries, hv, hsame, Assoc.put_of_get? hv, ih hrest]

/-- Merging twice is merging once. -/
theorem mergeValue_again {v : Value} (hdistinct : v.Distinct) (hfindable : v.Findable)
    (old : Option Value) : mergeValue (some (mergeValue old v)) v = mergeValue old v := by
  induction v using Value.induction_entries generalizing old with
  | leaf v hv => rw [mergeValue_leaf _ hv, mergeValue_leaf _ hv]
  | dict given ih =>
      have hget : ∀ e ∈ given, Assoc.get? given e.1 = some e.2 :=
        fun e he => Assoc.get?_of_mem hdistinct.here (hfindable.here e he) he
      have hagain : ∀ e ∈ given, ∀ old, mergeValue (some (mergeValue old e.2)) e.2 =
          mergeValue old e.2 :=
        fun e he => ih e he (hdistinct.below (hget e he)) (hfindable.below (hget e he))
      cases hold : old.bind Value.dict? with
      | none =>
          rw [mergeValue_of_no_dict hold, mergeValue_dict_dict]
          refine congrArg Value.dict (mergeEntries_eq_self fun e he => ⟨e.2, hget e he, ?_⟩)
          -- an entry that is merged onto nothing is itself, so it is merged a second time here
          have hself := hagain e he none
          have hnone : mergeValue none e.2 = e.2 := mergeValue_of_no_dict rfl e.2
          rwa [hnone] at hself
      | some base =>
          obtain rfl := Value.eq_some_dict_of_bind hold
          rw [mergeValue_dict_dict, mergeValue_dict_dict]
          refine congrArg Value.dict (mergeEntries_eq_self fun e he => ?_)
          refine ⟨mergeValue (Assoc.get? base e.1) e.2, ?_, hagain e he _⟩
          rw [get?_mergeEntries base hdistinct.here, hget e he]
          rfl

/-! ### Settings -/

/-- **What merging settings does at every path.**  Where what is given has a value other than a
dictionary, this value is found afterwards.  Where it has nothing, and no value other than a
dictionary on the way, what was there is found, with all that is in it.  No other values than these
are found.  In a dictionary that is given, the keys that were there before come first, in their
order, and then the others in the order in which they are given.  Merging once more changes
nothing. -/
theorem merge_by_paths (s : Settings) {given : Dict} (hgiven : (Value.dict given).Distinct) :
    let base := Value.dict s.tree
    let new := Value.dict given
    let merged := Value.dict (s.merge given).tree
    (∀ path v, new.follow? path = some v → v.dict? = none → merged.follow? path = some v) ∧
    (∀ path v, base.follow? path = some v → new.follow? path = none → ¬ new.Cuts path →
      merged.follow? path = some v) ∧
    (∀ path v, merged.follow? path = some v → v.dict? = none →
      new.follow? path = some v ∨
        base.follow? path = some v ∧ new.follow? path = none ∧ ¬ new.Cuts path) ∧
    (∀ path entries, new.follow? path = some (.dict entries) →
      let before := ((base.follow? path).bind Value.dict?).getD []
      ∃ after, merged.follow? path = some (.dict after) ∧ Assoc.keys after =
        Assoc.keys before ++ (Assoc.keys entries).filter fun k => !Assoc.has before k) ∧
    (new.Findable → (s.merge given).merge given = s.merge given) := by
  intro base new merged
  have hmerged : merged = mergeValue (some base) new := (mergeValue_dict_dict _ _).symm
  have hpaths : ∀ path, _ := follow?_mergeValue (some base) hgiven
  rw [← hmerged] at hpaths
  simp only [Option.bind_some] at hpaths
  refine ⟨?_, ?_, ?_, ?_, ?_⟩
  · intro path v hv hleaf
    rw [(hpaths path).1 v hv, mergeValue_leaf _ hleaf]
  · intro path v hv hnone hno
    rw [(hpaths path).2.2 hnone hno, hv]
  · intro path v hv hleaf
    obtain ⟨hsome, hcut, hkept⟩ := hpaths path
    cases hnew : new.follow? path with
    | some w =>
        rw [hsome w hnew] at hv
        cases hw : w.dict? with
        | none =>
            rw [mergeValue_leaf _ hw] at hv
            exact .inl hv
        | some entries =>
            obtain rfl := Value.eq_dict_of_dict? hw
            obtain ⟨after, hafter, -⟩ := mergeValue_dict (base.follow? path) (hgiven path _ hnew)
            rw [← Option.some.inj hv, hafter] at hleaf
            cases hleaf
    | none =>
        have hno : ¬ new.Cuts path := by
          intro hcuts
          rw [hcut hcuts] at hv
          cases hv
        exact .inr ⟨(hkept hnew hno).symm.trans hv, rfl, hno⟩
  · intro path entries hentries before
    obtain ⟨after, hafter, hkeys⟩ :=
      mergeValue_dict (base.follow? path) (hgiven path _ hentries)
    exact ⟨after, by rw [(hpaths path).1 _ hentries, hafter], hkeys⟩
  · intro hfindable
    have hagain := mergeValue_again hgiven hfindable (some base)
    rw [← hmerged, mergeValue_dict_dict] at hagain
    exact congrArg Settings.mk (Value.dict.inj hagain)

/-- Entries that change a section, put something else in place of one, and bring a new one. -/
def patch : Dict :=
  [("analysis", .dict [("shade", .str "dark"), ("worker_count", .int 2)]), ("rules", .null),
   ("plugins", .dict [])]

/-- Merged into the defaults they leave the rest of the section as it was, and nothing is left of
what was replaced. -/
theorem patch_merged :
    let merged := Value.dict (defaults.merge patch).tree
    (Value.dict patch).Distinct ∧
    merged.follow? [.str "analysis", .str "worker_count"] = some (.int 2) ∧
    merged.follow? [.str "analysis", .str "cache_capacity"] = some (.int 1000) ∧
    merged.follow? [.str "rules"] = some .null ∧
    (∃ after, merged.follow? [] = some (.dict after) ∧ Assoc.keys after =
      Assoc.keys defaultTree ++ [.str "plugins"]) ∧
    (defaults.merge patch).merge patch = defaults.merge patch := by
  have hsections : ∀ {P : Dict → Prop}, P patch →
      P [("shade", .str "dark"), ("worker_count", .int 2)] → P [] →
      (Value.dict patch).Throughout P := by
    intro P hall hsection hempty
    refine Value.throughout_dict hall ?_
    simp only [patch, List.forall_mem_cons]
    refine ⟨Value.throughout_dict hsection ?_, Value.throughout_leaf rfl,
      Value.throughout_dict hempty nofun, nofun⟩
    simp only [List.forall_mem_cons]
    exact ⟨Value.throughout_leaf rfl, Value.throughout_leaf rfl, nofun⟩
  have hdistinct : (Value.dict patch).Distinct :=
    hsections (by decide) (by decide) List.Pairwise.nil
  have hfindable : (Value.dict patch).Findable := hsections (by decide) (by decide) nofun
  have hno : ¬ (Value.dict patch).Cuts [.str "analysis", .str "cache_capacity"] := by
    rw [Value.cuts_dict_cons]
    rintro ⟨v, hv, hcut⟩
    cases hv
    obtain ⟨w, hw, -⟩ := Value.cuts_dict_cons.1 hcut
    cases hw
  obtain ⟨hgiven, hkept, -, hkeys, hagain⟩ := merge_by_paths defaults hdistinct
  exact ⟨hdistinct, hgiven _ _ rfl rfl, hkept _ _ rfl rfl hno, hgiven _ _ rfl rfl,
    hkeys [] patch rfl, hagain hfindable⟩

end Settings

end PhpAudit
