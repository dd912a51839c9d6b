/-
**How settings can fail.**

Settings are put together from the defaults, a file and what a caller gives, and are then checked.
The check reads three sections.  It refuses entries that are not as they should be, and this is a
fault of the settings; but where one of the sections is no mapping, the check itself stumbles, and
the fault is one of reading.  A section can only lose its shape if the file or the caller gives
something else in its place.

Main definitions:

* `Settings.Sound` — settings with every entry as it should be;
* `Settings.Demand`, `Settings.demands` — what is demanded of the analysis section, in order;
* `Settings.Stumbles` — a section cannot be read, and nothing before it is at fault;
* `Settings.GivesMappings` — entries that give the checked sections as mappings, if at all;
* `Settings.Source` — the entries that a file gives, if one is named.

Main results:

* `Settings.check_eq_ok_iff` — the check passes just the sound settings;
* `Settings.check_eq_misuse_iff` — the check stumbles just where a section cannot be read;
* `Settings.mapping_mergeEntries` — merging keeps the shape of a section;
* `Settings.Stumbles.not_givesMappings` — what the check stumbles over;
* `Settings.load_faults` — **what comes of a file and a caller's entries**;
* `Settings.null_section_stumbles` — **not every failure is a fault of the settings**.
-/

import PhpAudit.Fault
import PhpAudit.Proofs.Settings.Admitted

set_option autoImplicit false

namespace PhpAudit.Settings

/-! ### Sound settings -/

/-- A number that is positive, or no number at all. -/
def NotAtMostZero (n : Number) : Prop :=
  n.compare? (.int 0) = some .gt ∨ n.compare? (.int 0) = none

/-- Settings with the entries of the analysis section as they should be. -/
structure SoundAnalysis (s : Settings) : Prop where
  riskThreshold : ∃ severity : Severity, s.analysis "risk_threshold" = .ok (.str severity.name)
  cacheCapacity : ∃ n, s.analysis "cache_capacity" = .ok (.int n) ∧ 0 < n
  perFileTimeout : ∃ n, s.analysis "per_file_timeout_ms" = .ok (.int n) ∧ 0 < n
  workerCount : ∃ n, s.analysis "worker_count" = .ok (.int n) ∧ 0 ≤ n
  evictionBatch : ∃ v, s.analysis "cache_eviction_batch" = .ok v ∧
    (v = .null ∨ ∃ n, v.int? = some n ∧ 0 < n)
  ttl : ∃ v, s.analysis "cache_ttl_seconds" = .ok v ∧
    (v = .null ∨ ∃ n, v.number? = some n ∧ NotAtMostZero n)
  confidence : ∃ v n, s.analysis "confidence_threshold" = .ok v ∧ v.number? = some n ∧
    Number.le (.int 0) n = true ∧ Number.le n (.int 1) = true
  maxFileSize : ∃ v n, s.analysis "max_file_size_mb" = .ok v ∧ v.number? = some n ∧ NotAtMostZero n

/-- Settings with every entry that is checked as it should be. -/
structure Sound (s : Settings) : Prop extends SoundAnalysis s where
  switches : ∃ entries, s.part "enabled_analyzers" = .ok (.dict entries) ∧
    ∀ e ∈ entries, ∃ b, e.2 = .bool b
  patterns : ∃ entries, s.part "exclusions" = .ok (.dict entries) ∧
    ∀ v, Assoc.get? entries (.str "patterns") = some v → ∃ items, v = .list items

/-! ### The check as a list of demands -/

/-- What the check demands of an entry of the analysis section, and how it refuses others. -/
structure Demand where
  key : String
  holds : Value → Bool
  refusal : Value → Error
  refusal_ne : ∀ v m, refusal v ≠ .misuse m := by intros; exact nofun

/-- The demands on the analysis section, in the order in which the check makes them. -/
def demands : List Demand :=
  [{ key := "risk_threshold", holds := fun v => (v.str?.bind Severity.ofName?).isSome
     refusal := .badRiskThreshold },
   { key := "cache_capacity", holds := isIntegerFrom 1
     refusal := .notPositiveInteger "cache_capacity" },
   { key := "per_file_timeout_ms", holds := isIntegerFrom 1
     refusal := .notPositiveInteger "per_file_timeout_ms" },
   { key := "worker_count", holds := isIntegerFrom 0, refusal := .negativeWorkerCount },
   { key := "cache_eviction_batch"
     holds := fun v => v.isNull || (v.int?.any fun n => decide (0 < n))
     refusal := .notPositiveInteger "cache_eviction_batch" },
   { key := "cache_ttl_seconds", holds := fun v => v.isNull || isPositive v
     refusal := .notPositiveNumber "cache_ttl_seconds" },
   { key := "confidence_threshold", holds := isFraction, refusal := .badConfidenceThreshold },
   { key := "max_file_size_mb", holds := isPositive
     refusal := .notPositiveNumber "max_file_size_mb" }]

namespace Demand

/-- The entry can be read and is as demanded. -/
def Met (s : Settings) (d : Demand) : Prop :=
  ∃ v, s.analysis d.key = .ok v ∧ d.holds v = true

/-- The step of the check for a demand. -/
def step (s : Settings) (d : Demand) : Except Error Unit := do
  let v ← lift (s.analysis d.key)
  require (d.holds v) (d.refusal v)

end Demand

/-- The entries of a section, asked for through an operation. -/
def sectionEntries (s : Settings) (key operation : String) : Except Misuse Dict := do
  (← s.part key).entries operation

theorem lift_bind {α β : Type} (x : Except Misuse α) (f : α → Except Misuse β) :
    lift (x >>= f) = lift x >>= fun a => lift (f a) := by
  cases x <;> rfl

/-- The check makes its demands on the analysis section, then looks at the switches and at the
patterns. -/
theorem check_eq (s : Settings) :
    s.check = (do
      forM demands (Demand.step s)
      checkSwitches (← lift (s.sectionEntries "enabled_analyzers" "items"))
      let entries ← lift (s.sectionEntries "exclusions" "get")
      require ((Assoc.getD entries "patterns" (.list [])).list?.isSome) .patternsNotList) := by
  simp only [check, demands, List.forM_cons, List.forM_nil, Demand.step, sectionEntries, lift_bind,
    bind_assoc, pure_bind]

/-! ### Single steps -/

theorem lift_eq_ok_iff {α : Type} {x : Except Misuse α} {a : α} : lift x = .ok a ↔ x = .ok a := by
  constructor
  · exact of_mapError_eq_ok
  · rintro rfl
    rfl

theorem lift_eq_misuse_iff {α : Type} {x : Except Misuse α} {m : Misuse} :
    lift x = .error (.misuse m) ↔ x = .error m := by
  constructor
  · intro h
    cases x with
    | ok _ => cases h
    | error _ =>
        cases h
        rfl
  · rintro rfl
    rfl

theorem require_eq_ok_iff {condition : Bool} {cause : Error} :
    require condition cause = .ok () ↔ condition = true := by
  unfold require
  split <;> simp_all

theorem require_ne_misuse {condition : Bool} {cause : Error} {m : Misuse}
    (h : cause ≠ .misuse m) : require condition cause ≠ .error (.misuse m) := by
  unfold require
  split
  · exact nofun
  · exact fun heq => h (Except.error.inj heq)

namespace Demand

variable {s : Settings} {d : Demand}

theorem step_eq_ok_iff : d.step s = .ok () ↔ d.Met s := by
  unfold step Met
  constructor
  · intro h
    obtain ⟨v, hv, hholds⟩ := of_bind_eq_ok h
    exact ⟨v, lift_eq_ok_iff.1 hv, require_eq_ok_iff.1 hholds⟩
  · rintro ⟨v, hv, hholds⟩
    rw [lift_eq_ok_iff.2 hv]
    exact require_eq_ok_iff.2 hholds

theorem step_eq_misuse_iff {m : Misuse} :
    d.step s = .error (.misuse m) ↔ s.analysis d.key = .error m := by
  unfold step
  rw [bind_eq_error_iff, lift_eq_misuse_iff]
  refine or_iff_left ?_
  rintro ⟨v, -, h⟩
  exact require_ne_misuse (d.refusal_ne v m) h

end Demand

theorem checkSwitches_eq_ok_iff {entries : Dict} :
    checkSwitches entries = .ok () ↔ ∀ e ∈ entries, ∃ b, e.2 = .bool b := by
  induction entries with
  | nil => simp [checkSwitches]
  | cons e entries ih =>
      obtain ⟨name, v⟩ := e
      rw [List.forall_mem_cons, ← ih]
      cases v <;> simp [checkSwitches, Value.isBool]

theorem checkSwitches_ne_misuse (entries : Dict) (m : Misuse) :
    checkSwitches entries ≠ .error (.misuse m) := by
  induction entries with
  | nil => exact nofun
  | cons e entries ih =>
      unfold checkSwitches
      split
      · exact ih
      · exact nofun

/-! ### What is demanded -/

theorem isRisk_iff {v : Value} :
    (v.str?.bind Severity.ofName?).isSome = true ↔
      ∃ severity : Severity, v = .str severity.name := by
  constructor
  · intro h
    cases v with
    | str word =>
        obtain ⟨severity, hsome⟩ := Option.isSome_iff_exists.1 h
        have hname := List.find?_some hsome
        exact ⟨severity, congrArg Value.str (beq_iff_eq.1 hname).symm⟩
    | _ => cases h
  · rintro ⟨severity, rfl⟩
    cases severity <;> decide

theorem isIntegerFrom_iff {least : Int} {v : Value} :
    isIntegerFrom least v = true ↔ ∃ n, v = .int n ∧ least ≤ n := by
  cases v <;> simp [isIntegerFrom]

theorem isNull_iff {v : Value} : v.isNull = true ↔ v = .null := by
  cases v <;> simp [Value.isNull]

theorem isPositive_iff {v : Value} :
    isPositive v = true ↔ ∃ n, v.number? = some n ∧ NotAtMostZero n := by
  unfold isPositive
  cases v.number? with
  | none => simp
  | some n =>
      have hle : (!Number.le n (.int 0)) = true ↔ NotAtMostZero n := by
        unfold Number.le NotAtMostZero
        rcases n.compare? (.int 0) with _ | (_ | _ | _) <;> simp
      simp [← hle]

theorem isFraction_iff {v : Value} :
    isFraction v = true ↔
      ∃ n, v.number? = some n ∧ Number.le (.int 0) n = true ∧ Number.le n (.int 1) = true := by
  unfold isFraction
  cases v.number? with
  | none => simp
  | some n => simp

theorem sectionEntries_eq_ok_iff {s : Settings} {key operation : String} {entries : Dict} :
    s.sectionEntries key operation = .ok entries ↔ s.part key = .ok (.dict entries) := by
  unfold sectionEntries
  constructor
  · intro h
    obtain ⟨v, hv, hentries⟩ := of_bind_eq_ok h
    rw [hv, dict_of_entries hentries]
  · intro h
    rw [h]
    rfl

theorem list?_getD_iff {entries : Dict} :
    (Assoc.getD entries "patterns" (.list [])).list?.isSome = true ↔
      ∀ v, Assoc.get? entries (.str "patterns") = some v → ∃ items, v = .list items := by
  unfold Assoc.getD
  cases Assoc.get? entries (.str "patterns") with
  | none => simp [Value.list?]
  | some v => cases v <;> simp [Value.list?]

/-- The steps for the analysis section pass if its entries are as they should be. -/
theorem forM_step_iff {s : Settings} :
    forM demands (Demand.step s) = .ok () ↔ s.SoundAnalysis := by
  rw [forM_eq_ok_iff]
  simp only [Demand.step_eq_ok_iff, Demand.Met, demands, List.forall_mem_cons, List.not_mem_nil,
    isRisk_iff, isIntegerFrom_iff, Bool.or_eq_true, isNull_iff, Option.any_eq_true,
    decide_eq_true_eq, isPositive_iff, isFraction_iff]
  constructor
  · rintro ⟨⟨_, hrisk, severity, rfl⟩, ⟨_, hcapacity, n₁, rfl, hn₁⟩, ⟨_, htimeout, n₂, rfl, hn₂⟩,
      ⟨_, hworkers, n₃, rfl, hn₃⟩, hbatch, httl, ⟨v, hconfidence, n, hn⟩, ⟨w, hsize, k, hk⟩, -⟩
    exact ⟨⟨severity, hrisk⟩, ⟨n₁, hcapacity, hn₁⟩, ⟨n₂, htimeout, hn₂⟩, ⟨n₃, hworkers, hn₃⟩,
      hbatch, httl, ⟨v, n, hconfidence, hn⟩, ⟨w, k, hsize, hk⟩⟩
  · rintro ⟨⟨severity, hrisk⟩, ⟨n₁, hcapacity, hn₁⟩, ⟨n₂, htimeout, hn₂⟩, ⟨n₃, hworkers, hn₃⟩,
      hbatch, httl, ⟨v, n, hconfidence, hn⟩, ⟨w, k, hsize, hk⟩⟩
    exact ⟨⟨_, hrisk, severity, rfl⟩, ⟨_, hcapacity, n₁, rfl, hn₁⟩, ⟨_, htimeout, n₂, rfl, hn₂⟩,
      ⟨_, hworkers, n₃, rfl, hn₃⟩, hbatch, httl, ⟨v, hconfidence, n, hn⟩, ⟨w, hsize, k, hk⟩, nofun⟩

/-- **The check passes just the sound settings.** -/
theorem check_eq_ok_iff {s : Settings} : s.check = .ok () ↔ s.Sound := by
  rw [check_eq]
  constructor
  · intro h
    obtain ⟨_, hdemands, h⟩ := of_bind_eq_ok h
    obtain ⟨switches, hswitches, h⟩ := of_bind_eq_ok h
    obtain ⟨_, hbool, h⟩ := of_bind_eq_ok h
    obtain ⟨entries, hentries, h⟩ := of_bind_eq_ok h
    exact
      { toSoundAnalysis := forM_step_iff.1 hdemands
        switches := ⟨switches, sectionEntries_eq_ok_iff.1 (lift_eq_ok_iff.1 hswitches),
          checkSwitches_eq_ok_iff.1 hbool⟩
        patterns := ⟨entries, sectionEntries_eq_ok_iff.1 (lift_eq_ok_iff.1 hentries),
          list?_getD_iff.1 (require_eq_ok_iff.1 h)⟩ }
  · rintro ⟨hanalysis, ⟨switches, hswitches, hbool⟩, ⟨entries, hentries, hlist⟩⟩
    rw [forM_step_iff.2 hanalysis, lift_eq_ok_iff.2 (sectionEntries_eq_ok_iff.2 hswitches),
      lift_eq_ok_iff.2 (sectionEntries_eq_ok_iff.2 hentries)]
    show (checkSwitches switches >>= _) = _
    rw [checkSwitches_eq_ok_iff.2 hbool]
    exact require_eq_ok_iff.2 (list?_getD_iff.2 hlist)

/-! ### When the check stumbles -/

/-- A section cannot be read, for the cause `m`, and nothing before it in the order of the check is
at fault. -/
inductive Stumbles (s : Settings) (m : Misuse) : Prop
  | analysis (before : List Demand) (d : Demand) (after : List Demand)
      (hsplit : demands = before ++ d :: after) (hmet : ∀ d' ∈ before, d'.Met s)
      (h : s.analysis d.key = .error m) : Stumbles s m
  | switches (hsound : s.SoundAnalysis)
      (h : s.sectionEntries "enabled_analyzers" "items" = .error m) : Stumbles s m
  | exclusions (hsound : s.SoundAnalysis) {switches : Dict}
      (hswitches : s.sectionEntries "enabled_analyzers" "items" = .ok switches)
      (hbool : ∀ e ∈ switches, ∃ b, e.2 = .bool b)
      (h : s.sectionEntries "exclusions" "get" = .error m) : Stumbles s m

/-- The check stumbles just where a section cannot be read. -/
theorem check_eq_misuse_iff {s : Settings} {m : Misuse} :
    s.check = .error (.misuse m) ↔ s.Stumbles m := by
  rw [check_eq, bind_eq_error_iff, forM_eq_error_iff]
  constructor
  · rintro (⟨before, d, after, hsplit, hbefore, hd⟩ | ⟨_, hdemands, h⟩)
    · exact .analysis before d after hsplit (fun d' hd' => Demand.step_eq_ok_iff.1 (hbefore d' hd'))
        (Demand.step_eq_misuse_iff.1 hd)
    rcases bind_eq_error_iff.1 h with h | ⟨switches, hswitches, h⟩
    · exact .switches (forM_step_iff.1 hdemands) (lift_eq_misuse_iff.1 h)
    rcases bind_eq_error_iff.1 h with h | ⟨_, hbool, h⟩
    · exact absurd h (checkSwitches_ne_misuse _ _)
    rcases bind_eq_error_iff.1 h with h | ⟨entries, _, h⟩
    · exact .exclusions (forM_step_iff.1 hdemands) (lift_eq_ok_iff.1 hswitches)
        (checkSwitches_eq_ok_iff.1 hbool) (lift_eq_misuse_iff.1 h)
    · exact absurd h (require_ne_misuse nofun)
  · rintro (⟨before, d, after, hsplit, hbefore, h⟩ | ⟨hsound, h⟩ | ⟨hsound, hswitches, hbool, h⟩)
    · exact .inl ⟨before, d, after, hsplit, fun d' hd' => Demand.step_eq_ok_iff.2 (hbefore d' hd'),
        Demand.step_eq_misuse_iff.2 h⟩
    · refine .inr ⟨(), forM_step_iff.2 hsound, ?_⟩
      exact bind_eq_error_iff.2 (.inl (lift_eq_misuse_iff.2 h))
    · refine .inr ⟨(), forM_step_iff.2 hsound, ?_⟩
      refine bind_eq_error_iff.2 (.inr ⟨_, lift_eq_ok_iff.2 hswitches, ?_⟩)
      refine bind_eq_error_iff.2 (.inr ⟨(), checkSwitches_eq_ok_iff.2 hbool, ?_⟩)
      exact bind_eq_error_iff.2 (.inl (lift_eq_misuse_iff.2 h))

/-- The kinds of the faults that come of reading. -/
theorem Stumbles.kind {s : Settings} {m : Misuse} (h : s.Stumbles m) :
    m.kind ∈ ["TypeError", "KeyError", "AttributeError"] := by
  have hentry : ∀ (v : Value) (key : String), v.entry key = .error m →
      m.kind ∈ ["TypeError", "KeyError", "AttributeError"] := by
    intro v key h
    unfold Value.entry at h
    split at h
    · split at h
      · cases h
      · cases h
        simp [Misuse.kind]
    all_goals
      cases h
      simp [Misuse.kind]
  have hpart : ∀ key : String, s.part key = .error m →
      m.kind ∈ ["TypeError", "KeyError", "AttributeError"] := fun key => hentry _ key
  have hsection : ∀ key operation : String, s.sectionEntries key operation = .error m →
      m.kind ∈ ["TypeError", "KeyError", "AttributeError"] := by
    intro key operation h
    rcases bind_eq_error_iff.1 h with h | ⟨v, -, h⟩
    · exact hpart key h
    · unfold Value.entries at h
      split at h
      · cases h
      · cases h
        simp [Misuse.kind]
  cases h with
  | analysis _ d _ _ _ h =>
      rcases bind_eq_error_iff.1 h with h | ⟨v, -, h⟩
      · exact hpart _ h
      · exact hentry v _ h
  | switches _ h => exact hsection _ _ h
  | exclusions _ _ _ h => exact hsection _ _ h

/-! ### The shape of the sections -/

/-- The sections that the check reads. -/
def checkedSections : List String :=
  ["analysis", "enabled_analyzers", "exclusions"]

/-- Entries that give the checked sections as mappings, if at all. -/
def GivesMappings (given : Dict) : Prop :=
  ∀ key ∈ checkedSections, ∀ v, (.str key, v) ∈ given → ∃ entries, v = .dict entries

theorem mergeEntries_cons (base : Dict) (k : Key) (v : Value) (given : Dict) :
    mergeEntries base ((k, v) :: given) =
      mergeEntries (Assoc.put base k (mergeValue (Assoc.get? base k) v)) given := by
  rw [mergeEntries]

/-- Merging takes no key away. -/
theorem isSome_get?_mergeEntries {base : Dict} {a : String}
    (h : (Assoc.get? base (.str a)).isSome = true) (given : Dict) :
    (Assoc.get? (mergeEntries base given) (.str a)).isSome = true := by
  induction given generalizing base with
  | nil =>
      rw [mergeEntries]
      exact h
  | cons e given ih =>
      obtain ⟨k, v⟩ := e
      rw [mergeEntries_cons]
      refine ih ?_
      by_cases hk : k = .str a
      · rw [hk, Dict.get?_put_self]
        rfl
      · rw [Dict.get?_put_of_ne base hk]
        exact h

/-- A section that is given as a mapping, if at all, stays one and loses no entry. -/
theorem mapping_mergeEntries {base given : Dict} {key : String} {entries : Dict}
    (h : Assoc.get? base (.str key) = some (.dict entries))
    (hgiven : ∀ v, (.str key, v) ∈ given → ∃ es, v = .dict es) :
    ∃ entries', Assoc.get? (mergeEntries base given) (.str key) = some (.dict entries') ∧
      ∀ a : String, (Assoc.get? entries (.str a)).isSome = true →
        (Assoc.get? entries' (.str a)).isSome = true := by
  induction given generalizing base entries with
  | nil =>
      rw [mergeEntries]
      exact ⟨entries, h, fun _ ha => ha⟩
  | cons e given ih =>
      obtain ⟨k, v⟩ := e
      rw [mergeEntries_cons]
      have hrest : ∀ w, (.str key, w) ∈ given → ∃ es, w = .dict es :=
        fun w hw => hgiven w (List.mem_cons_of_mem _ hw)
      by_cases hk : k = .str key
      · subst hk
        obtain ⟨es, rfl⟩ := hgiven v List.mem_cons_self
        have hput : Assoc.get? (Assoc.put base (.str key)
            (mergeValue (Assoc.get? base (.str key)) (.dict es))) (.str key) =
              some (.dict (mergeEntries entries es)) := by
          rw [Dict.get?_put_self, h, mergeValue]
        obtain ⟨entries', hget, hkept⟩ := ih hput hrest
        exact ⟨entries', hget, fun a ha => hkept a (isSome_get?_mergeEntries ha es)⟩
      · exact ih ((Dict.get?_put_of_ne base hk _).trans h) hrest

/-- Sections that a file and a caller give as mappings have all entries of the defaults. -/
theorem exists_part_of_givesMappings {file given : Dict} (hfile : GivesMappings file)
    (hgiven : GivesMappings given) {key : String} (hkey : key ∈ checkedSections) {entries : Dict}
    (h : Assoc.get? defaultTree (.str key) = some (.dict entries)) :
    ∃ entries', ((defaults.merge file).merge given).part key = .ok (.dict entries') ∧
      ∀ a : String, (Assoc.get? entries (.str a)).isSome = true →
        (Assoc.get? entries' (.str a)).isSome = true := by
  obtain ⟨entries₁, hget₁, hkept₁⟩ := mapping_mergeEntries h (hfile key hkey)
  obtain ⟨entries₂, hget₂, hkept₂⟩ := mapping_mergeEntries hget₁ (hgiven key hkey)
  refine ⟨entries₂, ?_, fun a ha => hkept₂ a (hkept₁ a ha)⟩
  rw [part_eq]
  simp only [merge, defaults, hget₂, Option.elim_some]

/-- The check stumbles only over sections that are given in another shape. -/
theorem Stumbles.not_givesMappings {file given : Dict} {m : Misuse}
    (h : ((defaults.merge file).merge given).Stumbles m) :
    ¬(GivesMappings file ∧ GivesMappings given) := by
  rintro ⟨hfile, hgiven⟩
  have hsection : ∀ {key operation : String} {entries : Dict}, key ∈ checkedSections →
      Assoc.get? defaultTree (.str key) = some (.dict entries) →
      ((defaults.merge file).merge given).sectionEntries key operation ≠ .error m := by
    intro key operation entries hkey hdefault herror
    obtain ⟨entries', hpart, -⟩ := exists_part_of_givesMappings hfile hgiven hkey hdefault
    rw [sectionEntries_eq_ok_iff.2 hpart] at herror
    cases herror
  cases h with
  | analysis _ d _ hsplit _ herror =>
      have hdefault : ∃ entries, Assoc.get? defaultTree (.str "analysis") = some (.dict entries) ∧
          ∀ d ∈ demands, (Assoc.get? entries (.str d.key)).isSome = true :=
        ⟨_, rfl, by decide⟩
      obtain ⟨entries, hentries, hkeys⟩ := hdefault
      obtain ⟨entries', hpart, hkept⟩ :=
        exists_part_of_givesMappings hfile hgiven (by decide) hentries
      have hd : d ∈ demands := by simp [hsplit]
      obtain ⟨v, hv⟩ := Option.isSome_iff_exists.1 (hkept d.key (hkeys d hd))
      rw [Settings.analysis, hpart] at herror
      simp only [bind, Except.bind, Value.entry, hv] at herror
      cases herror
  | switches _ herror => exact hsection (by decide) rfl herror
  | exclusions _ _ _ herror => exact hsection (by decide) rfl herror

/-! ### Loading -/

/-- The entries that a file gives, if one is named. -/
inductive Source (reader : Reader) (disk : Disk) : Option String → Dict → Prop
  | unnamed : Source reader disk none []
  | empty : Source reader disk (some "") []
  | file {path : String} {entries : Dict} (hpath : path ≠ "")
      (h : readEntries reader disk path = .ok entries) : Source reader disk (some path) entries

theorem load_of_source {reader : Reader} {disk : Disk} {path : Option String} {file : Dict}
    (h : Source reader disk path file) (overrides : Value) :
    load reader disk path overrides = (ofParts file overrides).mapError .settings := by
  cases h with
  | unnamed => rfl
  | empty => rfl
  | file hpath hentries =>
      unfold load
      split
      · contradiction
      · rename_i heq
        exact absurd (Option.some.inj heq) hpath
      · rename_i heq
        rw [← Option.some.inj heq, hentries]
        rfl

theorem ofParts_dict (file given : Dict) :
    ofParts file (.dict given) =
      (((defaults.merge file).merge given).check).map fun _ =>
        (defaults.merge file).merge given := by
  have hmap : ∀ s : Settings, (do s.check; return s) = s.check.map fun _ => s := by
    intro s
    cases s.check <;> rfl
  -- no entries at all count as none given
  cases given with
  | nil => exact hmap _
  | cons e given => exact hmap _

/-- **What comes of a file and a caller's entries**, whatever reads the file.  If everything that is
checked is as it should be, they are merged into the defaults, and these are the settings.
Otherwise there are none.  The failure is a fault of the settings, unless a section is met that
cannot be read while nothing before it is at fault: then it is one of three faults of reading, and
the file or the caller gives one of the checked sections as something other than a mapping. -/
theorem load_faults (reader : Reader) (disk : Disk) (path : Option String) (file given : Dict)
    (hfile : Source reader disk path file) :
    let s := (defaults.merge file).merge given
    (s.Sound ∧ load reader disk path (.dict given) = .ok s) ∨
      ¬s.Sound ∧ ∃ e, load reader disk path (.dict given) = .error e ∧
        (e.fault.kind = "ConfigurationError" ∧ (∀ m, ¬s.Stumbles m) ∨
          ∃ m, s.Stumbles m ∧ e.fault = m.fault ∧
            m.kind ∈ ["TypeError", "KeyError", "AttributeError"] ∧
            ¬(GivesMappings file ∧ GivesMappings given)) := by
  intro s
  rw [load_of_source hfile, ofParts_dict]
  cases hcheck : s.check with
  | ok _ => exact .inl ⟨check_eq_ok_iff.1 hcheck, rfl⟩
  | error e =>
      have hunsound : ¬s.Sound := by
        intro hsound
        rw [check_eq_ok_iff.2 hsound] at hcheck
        cases hcheck
      refine .inr ⟨hunsound, .settings e, rfl, ?_⟩
      by_cases hmisuse : ∃ m, e = .misuse m
      · obtain ⟨m, rfl⟩ := hmisuse
        have hstumbles := check_eq_misuse_iff.1 hcheck
        exact .inr ⟨m, hstumbles, rfl, hstumbles.kind, hstumbles.not_givesMappings⟩
      · refine .inl ⟨?_, ?_⟩
        · cases e with
          | misuse m => exact absurd ⟨m, rfl⟩ hmisuse
          | _ => rfl
        · intro m hm
          rw [check_eq_misuse_iff.2 hm] at hcheck
          exact hmisuse ⟨m, (Except.error.inj hcheck).symm⟩

/-- A disk with a settings file. -/
def settingsDisk : Disk where
  top := .folder [("a.yaml", .file "analysis: []".toUTF8)]

/-- What a reader says about the file: a list stands in the place of a section. -/
def listedSection : Reader :=
  fun text =>
    if text = "analysis: []" then .ok (.dict [("analysis", .list [])]) else .error .malformed

/-- A caller who then gives a part of the section does not make it whole. -/
theorem listedSection_faults :
    let given : Dict := [("analysis", .dict [("worker_count", .int 2)])]
    Source listedSection settingsDisk (some "a.yaml") [("analysis", .list [])] ∧
      ∃ e, load listedSection settingsDisk (some "a.yaml") (.dict given) = .error e ∧
        e.fault.kind ∈ ["TypeError", "KeyError", "AttributeError"] := by
  intro given
  have hsource : Source listedSection settingsDisk (some "a.yaml") [("analysis", .list [])] :=
    .file (by decide) rfl
  have hstumbles : ((defaults.merge [("analysis", .list [])]).merge given).Stumbles
      (.missingKey "risk_threshold") := .analysis [] _ _ rfl nofun rfl
  refine ⟨hsource, ?_⟩
  obtain ⟨hsound, -⟩ | ⟨-, e, he, ⟨-, hnone⟩ | ⟨m, -, hfault, hkind, -⟩⟩ :=
    load_faults listedSection settingsDisk (some "a.yaml") [("analysis", .list [])] given hsource
  · obtain ⟨severity, hseverity⟩ := hsound.riskThreshold
    cases hseverity
  · exact absurd hstumbles (hnone _)
  · exact ⟨e, he, by rw [hfault]; exact hkind⟩

/-- **Not every failure is a fault of the settings**: without an analysis section the check cannot
read its first entry. -/
theorem null_section_stumbles :
    ∃ e, load listedSection settingsDisk none (.dict [("analysis", .null)]) = .error e ∧
      e.fault.label = "TypeError: 'NoneType' object is not subscriptable" :=
  ⟨_, rfl, by decide⟩

end PhpAudit.Settings
