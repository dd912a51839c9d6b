/-
Settings that a run can have.

Settings are checked once, when they are put together from a file and from a caller.  Afterwards
single entries are changed through setters, which look at the new value only.  The section that
switches analyzers on and off is a dictionary after the check, and no setter makes anything else of
it, so it can always be asked about an analyzer.

* `Settings.Admitted` — settings that passed the check, and what setters make of them;
* `Settings.Admitted.switches` — **the switches are always a dictionary**;
* `Settings.Admitted.analyzerEnabled_ofKey` — and can be asked about every name;
* `Settings.Admitted.checked` — entries that no setter changes are as they were checked;
* `Settings.Admitted.cache` — **the limits of a cache are in range**.
-/

import PhpAudit.Proofs.Dict
import PhpAudit.Proofs.Except
import PhpAudit.Settings.Access

set_option autoImplicit false

namespace PhpAudit.Settings

/-- Settings that passed the check, and what setters make of them. -/
inductive Admitted : Settings → Prop
  | made {file : Dict} {overrides : Value} {s : Settings} (h : ofParts file overrides = .ok s) :
      Admitted s
  | riskThreshold {s s' : Settings} {given : Value} (hs : Admitted s)
      (h : s.setRiskThreshold given = .ok s') : Admitted s'
  | workerCount {s s' : Settings} {given : Value} (hs : Admitted s)
      (h : s.setWorkerCount given = .ok s') : Admitted s'
  | perFileTimeout {s s' : Settings} {given : Value} (hs : Admitted s)
      (h : s.setPerFileTimeout given = .ok s') : Admitted s'
  | analyzerEnabled {s s' : Settings} {name enabled : Value} (hs : Admitted s)
      (h : s.setAnalyzerEnabled name enabled = .ok s') : Admitted s'
  | exclusions {s s' : Settings} {given : Value} (hs : Admitted s)
      (h : s.addExclusions given = .ok s') : Admitted s'

/-- A section is a dictionary. -/
def IsDict (s : Settings) (key : String) : Prop :=
  ∃ entries, s.part key = .ok (.dict entries)

theorem part_eq (s : Settings) (key : String) :
    s.part key = (Assoc.get? s.tree (.str key)).elim (.error (.missingKey key)) .ok := by
  unfold part Value.entry
  cases h : Assoc.get? s.tree (.str key) with
  | none => simp only [h, Option.elim_none]
  | some v => simp only [h, Option.elim_some]

theorem isDict_iff {s : Settings} {key : String} :
    s.IsDict key ↔ ∃ entries, Assoc.get? s.tree (.str key) = some (.dict entries) := by
  unfold IsDict
  rw [part_eq]
  cases Assoc.get? s.tree (.str key) with
  | none => simp
  | some v => simp

/-- A dictionary that is written to one section leaves every section a dictionary that was one. -/
theorem get?_put_dict {m : Dict} {key part : Key} {entries : Dict}
    (h : ∃ es, Assoc.get? m key = some (.dict es)) :
    ∃ es, Assoc.get? (Assoc.put m part (.dict entries)) key = some (.dict es) := by
  induction m with
  | nil =>
      obtain ⟨es, hes⟩ := h
      exact absurd hes (by simp [Assoc.get?])
  | cons e m ih =>
      obtain ⟨k, v⟩ := e
      simp only [Assoc.get?] at h
      simp only [Assoc.put]
      split
      · -- the section is written to: asked for it, the answer is the new dictionary
        simp only [Assoc.get?]
        split
        · exact ⟨entries, rfl⟩
        · rename_i hk
          simpa [hk] using h
      · simp only [Assoc.get?]
        split
        · rename_i hk
          simpa [hk] using h
        · rename_i hk
          exact ih (by simpa [hk] using h)

theorem IsDict.write {s : Settings} {name : String} (h : s.IsDict name) (part key : Key)
    (v : Value) : (s.write part key v).IsDict name := by
  unfold Settings.write
  split
  · exact isDict_iff.2 (get?_put_dict (isDict_iff.1 h))
  · exact h

/-- Only a dictionary has entries. -/
theorem dict_of_entries {v : Value} {method : String} {entries : Dict}
    (h : v.entries method = .ok entries) : v = .dict entries := by
  unfold Value.entries at h
  split at h
  · cases h
    rfl
  · cases h

/-- Settings are handed out after the check only. -/
theorem check_of_ofParts {file : Dict} {overrides : Value} {s : Settings}
    (h : ofParts file overrides = .ok s) : s.check = .ok () := by
  unfold ofParts at h
  dsimp only at h
  split at h
  · obtain ⟨_, _, h⟩ := of_bind_eq_ok h
    obtain ⟨_, hcheck, h⟩ := of_bind_eq_ok h
    cases h
    exact hcheck
  · obtain ⟨_, _, h⟩ := of_bind_eq_ok h
    obtain ⟨_, hcheck, h⟩ := of_bind_eq_ok h
    cases h
    exact hcheck

/-- The check goes through the switches. -/
theorem switches_of_check {s : Settings} (h : s.check = .ok ()) :
    s.IsDict "enabled_analyzers" := by
  unfold check at h
  -- eight entries and their conditions come first
  iterate 16 obtain ⟨_, _, h⟩ := of_bind_eq_ok h
  obtain ⟨switches, hswitches, h⟩ := of_bind_eq_ok h
  obtain ⟨entries, hentries, _⟩ := of_bind_eq_ok h
  have hpart := of_mapError_eq_ok hswitches
  have hdict := dict_of_entries (of_mapError_eq_ok hentries)
  exact ⟨entries, hdict ▸ hpart⟩

/-- The entries of the analysis section that have a setter. -/
def changeable : List String :=
  ["risk_threshold", "worker_count", "per_file_timeout_ms"]

/-- Each setter writes one entry, and into the analysis section only one of three. -/
theorem Admitted.induction_writes {P : Settings → Prop}
    (made : ∀ s : Settings, s.check = .ok () → P s)
    (write : ∀ (s : Settings) (part k : Key) (v : Value),
      (part = .str "analysis" → ∃ name ∈ changeable, k = .str name) → P s → P (s.write part k v))
    {s : Settings} (h : s.Admitted) : P s := by
  induction h with
  | made h => exact made _ (check_of_ofParts h)
  | riskThreshold _ h ih =>
      unfold setRiskThreshold at h
      split at h
      · cases h
        exact write _ _ _ _ (fun _ => ⟨_, by decide, rfl⟩) ih
      · cases h
  | workerCount _ h ih =>
      obtain ⟨_, _, h⟩ := of_bind_eq_ok h
      split at h
      · cases h
      · cases h
        exact write _ _ _ _ (fun _ => ⟨_, by decide, rfl⟩) ih
  | perFileTimeout _ h ih =>
      obtain ⟨_, _, h⟩ := of_bind_eq_ok h
      split at h
      · cases h
      · cases h
        exact write _ _ _ _ (fun _ => ⟨_, by decide, rfl⟩) ih
  | analyzerEnabled _ h ih =>
      obtain ⟨_, _, h⟩ := of_bind_eq_ok h
      cases h
      exact write _ _ _ _ (by simp) ih
  | exclusions _ h ih =>
      obtain ⟨_, _, h⟩ := of_bind_eq_ok h
      obtain ⟨_, _, h⟩ := of_bind_eq_ok h
      cases h
      exact write _ _ _ _ (by simp) ih

/-- **The switches are always a dictionary.** -/
theorem Admitted.switches {s : Settings} (h : s.Admitted) : s.IsDict "enabled_analyzers" := by
  refine h.induction_writes (fun _ hcheck => switches_of_check hcheck) ?_
  intro s part k v _ ih
  exact ih.write _ _ _

/-- The defaults pass the check. -/
theorem admitted_defaults : defaults.Admitted :=
  .made (show ofParts [] .null = .ok defaults from rfl)

/-- Whether an analyzer is switched on can be asked for every name. -/
theorem Admitted.analyzerEnabled_ofKey {s : Settings} (h : s.Admitted) (name : Key) :
    ∃ switch, s.analyzerEnabled (.ofKey name) = .ok switch := by
  obtain ⟨entries, hentries⟩ := h.switches
  refine ⟨Assoc.getD entries name (.bool true), ?_⟩
  unfold Settings.analyzerEnabled
  rw [hentries]
  cases name <;> rfl

/-! ### Entries that no setter changes -/

/-- A write to another section or another entry is not seen. -/
theorem analysis_write (s : Settings) {part k : Key} {key : String} (v : Value)
    (h : part ≠ .str "analysis" ∨ k ≠ .str key) :
    (s.write part k v).analysis key = s.analysis key := by
  unfold write
  split
  · rename_i entries hentries
    by_cases hpart : part = .str "analysis"
    · subst hpart
      have hk : k ≠ .str key := h.resolve_left fun hne => hne rfl
      simp only [analysis, part_eq, Dict.get?_put_self, hentries, Option.elim_some]
      show (Value.dict _).entry key = (Value.dict _).entry key
      simp only [Value.entry, Dict.get?_put_of_ne entries hk]
    · simp only [analysis, part_eq, Dict.get?_put_of_ne s.tree hpart]
  · rfl

/-- Entries that no setter changes are as they were checked. -/
theorem Admitted.checked {s : Settings} (h : s.Admitted) :
    ∃ s₀ : Settings, s₀.check = .ok () ∧
      ∀ key ∉ changeable, s.analysis key = s₀.analysis key := by
  refine h.induction_writes (P := fun s => ∃ s₀ : Settings, s₀.check = .ok () ∧
    ∀ key ∉ changeable, s.analysis key = s₀.analysis key)
    (fun s hcheck => ⟨s, hcheck, fun _ _ => rfl⟩) ?_
  rintro s part k v hwhere ⟨s₀, hcheck, hsame⟩
  refine ⟨s₀, hcheck, fun key hkey => ?_⟩
  rw [analysis_write, hsame key hkey]
  by_cases hpart : part = .str "analysis"
  · obtain ⟨name, hname, rfl⟩ := hwhere hpart
    exact .inr fun heq => hkey (Key.str.inj heq ▸ hname)
  · exact .inl hpart

/-- What is required holds. -/
theorem of_require_eq_ok {condition : Bool} {cause : Error} {u : Unit}
    (h : require condition cause = .ok u) : condition = true := by
  unfold require at h
  split at h
  · assumption
  · cases h

/-- Limits of a cache that are in range. -/
structure CacheLimits (capacity : Int) (batch ttl : Value) : Prop where
  capacity : 1 ≤ capacity
  batch : batch = .null ∨ ∃ n, batch.int? = some n ∧ 0 < n
  ttl : ttl = .null ∨ isPositive ttl = true

/-- **The limits of a cache are in range.** -/
theorem Admitted.cache {s : Settings} (h : s.Admitted) :
    ∃ capacity batch ttl, s.cacheCapacity = .ok (.int capacity) ∧
      s.cacheEvictionBatch = .ok batch ∧ s.cacheTtl = .ok ttl ∧
      CacheLimits capacity batch ttl := by
  obtain ⟨s₀, hcheck, hsame⟩ := h.checked
  unfold check at hcheck
  iterate 2 obtain ⟨_, _, hcheck⟩ := of_bind_eq_ok hcheck
  obtain ⟨capacity, hcapacity, hcheck⟩ := of_bind_eq_ok hcheck
  obtain ⟨_, hleast, hcheck⟩ := of_bind_eq_ok hcheck
  -- the time limit and the number of workers stand between the limits of the cache
  iterate 4 obtain ⟨_, _, hcheck⟩ := of_bind_eq_ok hcheck
  obtain ⟨batch, hbatch, hcheck⟩ := of_bind_eq_ok hcheck
  obtain ⟨_, hsome, hcheck⟩ := of_bind_eq_ok hcheck
  obtain ⟨ttl, httl, hcheck⟩ := of_bind_eq_ok hcheck
  obtain ⟨_, hpositive, -⟩ := of_bind_eq_ok hcheck
  have hleast := of_require_eq_ok hleast
  have hsome := of_require_eq_ok hsome
  have hpositive := of_require_eq_ok hpositive
  have hnull : ∀ {v : Value}, v.isNull = true → v = .null := by
    intro v hv
    cases v with
    | null => rfl
    | _ => cases hv
  cases capacity with
  | int n =>
      refine ⟨n, batch, ttl, ?_, ?_, ?_, ?_, ?_, ?_⟩
      · exact (hsame _ (by decide)).trans (of_mapError_eq_ok hcapacity)
      · exact (hsame _ (by decide)).trans (of_mapError_eq_ok hbatch)
      · exact (hsame _ (by decide)).trans (of_mapError_eq_ok httl)
      · simpa [isIntegerFrom] using hleast
      · refine (Bool.or_eq_true _ _ ▸ hsome).imp hnull fun hany => ?_
        obtain ⟨n, hn, hpos⟩ := (Option.any_eq_true _ _).1 hany
        exact ⟨n, hn, of_decide_eq_true hpos⟩
      · exact (Bool.or_eq_true _ _ ▸ hpositive).imp hnull id
  | _ => cases hleast

end PhpAudit.Settings
