/-
**What the gate of a security rule lets through.**

A security rule reports what its inspection suspects if the gate lets the evidence through.  The
gate reads two settings: a strict rule reports every risk, any other only those with enough
confidence.  Nothing else reads these settings, if they are sound: the rule is taken up or refused,
switched on or off, silent in test code and suspicious of a node whatever the gate is.  So under a
narrower gate a rule finds what it found before with enough confidence for the narrower gate.

Main definitions:

* `Rule.Narrows` — settings with another gate that asks for no less;
* `Rule.threshold?` — the least confidence that a gate asks for;
* `Rule.Gated` — a rule in which nothing but the gate reads the settings of the gate;
* `Rule.Narrowed` — the same rule with a narrower gate.

Main results:

* `Rule.Narrows.meetsConfidence_eq` — what passes the narrower gate;
* `Rule.Gated.findingsOf_narrowed` — **what the rule finds under the narrower gate**;
* `Rule.Gated.admitted_narrowed` — a book takes the rule up under both gates or under none.
-/

import PhpAudit.Proofs.Number.Order
import PhpAudit.Proofs.Rule.Dispatch
import PhpAudit.Proofs.Security.Analysis

set_option autoImplicit false

namespace PhpAudit

open Walk (Trail)

/-- A finding takes the confidence of the evidence over as it is. -/
def Evidence.Fits (e : Evidence) : Prop :=
  Finding.clampConfidence e.confidence = e.confidence

namespace Rule

/-! ### The gate -/

/-- The settings differ at most in what the gate reads. -/
def AgreeBeyondGate (d d' : Dict) : Prop :=
  ∀ key, key ≠ "strict_mode" → key ≠ "confidence_threshold" →
    Assoc.get? d (.str key) = Assoc.get? d' (.str key)

/-- The gate lets every risk through. -/
def IsStrict (d : Dict) : Prop :=
  Assoc.get? d (.str "strict_mode") = some (.bool true)

/-- The gate asks for confidence. -/
def IsLenient (d : Dict) : Prop :=
  Assoc.get? d (.str "strict_mode") = none ∨ Assoc.get? d (.str "strict_mode") = some (.bool false)

/-- The least confidence that the gate asks for; none if no share is set. -/
def threshold? (d : Dict) : Option Number :=
  let v := setting d "confidence_threshold" (.float 0.5)
  if isShare v then v.number? else none

/-- Settings with another gate that asks for no less: it asks for confidence, and if the other one
does so too, for at least as much. -/
structure Narrows (d d' : Dict) : Prop where
  agree : AgreeBeyondGate d d'
  valid : (threshold? d).isSome = (threshold? d').isSome
  lenient : IsLenient d'
  raised : IsStrict d ∨
    IsLenient d ∧ ∀ t ∈ threshold? d, ∀ t' ∈ threshold? d', t.le t' = true

variable {d d' : Dict}

theorem AgreeBeyondGate.setting_eq (h : AgreeBeyondGate d d') {key : String}
    (hstrict : key ≠ "strict_mode") (hthreshold : key ≠ "confidence_threshold") (default : Value) :
    setting d key default = setting d' key default := by
  rw [setting, setting, Assoc.getD, Assoc.getD, h key hstrict hthreshold]

theorem AgreeBeyondGate.problemIf_eq (h : AgreeBeyondGate d d') {key : String}
    (hstrict : key ≠ "strict_mode") (hthreshold : key ≠ "confidence_threshold")
    (bad : Value → Bool) (message : String) :
    problemIf d key bad message = problemIf d' key bad message := by
  rw [problemIf, problemIf, h key hstrict hthreshold]

theorem meetsConfidence_of_isStrict (h : IsStrict d) (e : Evidence) :
    meetsConfidence d e = e.hasRisk := by
  have hon : setting d "strict_mode" (.bool false) = .bool true := by
    rw [setting, Assoc.getD, h]
    rfl
  rw [meetsConfidence, hon]
  rfl

theorem number?_of_threshold? {t : Number} (h : threshold? d = some t) :
    (setting d "confidence_threshold" (.float 0.5)).number? = some t := by
  unfold threshold? at h
  dsimp only at h
  split at h
  · exact h
  · cases h

theorem meetsConfidence_of_isLenient (h : IsLenient d) {t : Number} (ht : threshold? d = some t)
    (e : Evidence) : meetsConfidence d e = (e.hasRisk && t.le (.float e.confidence)) := by
  have hoff : setting d "strict_mode" (.bool false) = .bool false := by
    rw [setting, Assoc.getD]
    rcases h with h | h
    · rw [h]
      rfl
    · rw [h]
      rfl
  rw [meetsConfidence, hoff, number?_of_threshold? ht]
  rfl

/-- What passes the narrower gate is what passes the other one with enough confidence. -/
theorem Narrows.meetsConfidence_eq (h : Narrows d d') {t : Number} (ht : threshold? d' = some t)
    (e : Evidence) :
    meetsConfidence d' e = (meetsConfidence d e && t.le (.float e.confidence)) := by
  rw [meetsConfidence_of_isLenient h.lenient ht]
  rcases h.raised with hstrict | ⟨hlenient, hle⟩
  · rw [meetsConfidence_of_isStrict hstrict]
  · obtain ⟨t₀, ht₀⟩ := Option.isSome_iff_exists.1 (h.valid.trans (ht ▸ rfl))
    rw [meetsConfidence_of_isLenient hlenient ht₀, Bool.and_assoc]
    congr 1
    -- a confidence that reaches the higher threshold reaches the lower one
    cases hmeets : t.le (.float e.confidence) with
    | false => rw [Bool.and_false]
    | true => rw [Number.le_trans (hle t₀ ht₀ t ht) hmeets, Bool.and_true]

/-! ### What does not see the gate -/

theorem AgreeBeyondGate.inTestCode_eq (h : AgreeBeyondGate d d') (file : SourceFile)
    {trail trail' : Trail} (hanc : trail.ancestors = trail'.ancestors) :
    inTestCode d ⟨file, trail⟩ = inTestCode d' ⟨file, trail'⟩ := by
  simp only [inTestCode, hanc, h.setting_eq (show "exclude_test_files" ≠ _ by decide) (by decide),
    h.setting_eq (show "test_file_patterns" ≠ _ by decide) (by decide),
    h.setting_eq (show "context_aware" ≠ _ by decide) (by decide),
    h.setting_eq (show "test_class_suffixes" ≠ _ by decide) (by decide)]

/-- What the inspection suspects depends on nothing but the node, the nodes above it, the file and
the settings beyond the gate. -/
def Inspection.Blind (inspect : Inspection) : Prop :=
  ∀ d d' n file (trail trail' : Trail), AgreeBeyondGate d d' → trail.ancestors = trail'.ancestors →
    inspect d n ⟨file, trail⟩ = inspect d' n ⟨file, trail'⟩

/-- All suspicions of an inspection are modest, and the evidence for them fits. -/
def Inspection.Sound (inspect : Inspection) : Prop :=
  ∀ settings n site x e, inspect settings n site = .ok (some (x, e)) → x.Modest ∧ e.Fits

/-- A security rule in which nothing but the gate reads the settings of the gate. -/
structure Gated (r : Rule) (s : Security) (inspect : Inspection) : Prop where
  check : r.check = guardedCheck r.profile s inspect
  blind : inspect.Blind
  sound : inspect.Sound
  security : r.profile.security = some s
  lenient : Assoc.get? r.defaults (.str "strict_mode") = some (.bool false)
  threshold : Assoc.get? r.defaults (.str "confidence_threshold") = some (.float 0.5)
  problems : ∀ d d', AgreeBeyondGate d d' → r.ownProblems d = r.ownProblems d'
  checks : ∀ d cause, .failure cause ∉ r.ownProblems d

theorem Gated.signs {r : Rule} {s : Security} {inspect : Inspection} (hr : r.Gated s inspect) :
    r.Signs :=
  signs_of_guardedCheck hr.check fun _ _ _ _ _ h => (hr.sound _ _ _ _ _ h).1

theorem Signs.of_mem_findingsOf {r : Rule} (hr : r.Signs) {n : Node} {site : Site} {f : Finding}
    (h : f ∈ RuleBook.findingsOf n site r) :
    f.ruleId = .str r.profile.id ∧ f.At n site.file ∧ f.Rated := by
  unfold RuleBook.findingsOf at h
  split at h
  · rename_i found hfound
    exact hr _ _ _ _ hfound f h
  · cases h

/-- The rule with a narrower gate. -/
structure Narrowed (r r' : Rule) : Prop where
  same : r' = { r with settings := r'.settings }
  narrows : Narrows r.settings r'.settings

/-- Narrowing the gate takes away reports with too little confidence; a report that fails comes to
nothing under both gates. -/
theorem report_narrowed (h : Narrows d d') {t : Number} (ht : threshold? d' = some t)
    (p : Profile) (s : Security) (n : Node) (file : SourceFile) (trail trail' : Trail)
    (x : Suspicion) {e : Evidence} (he : e.Fits) :
    (report p s d' n ⟨file, trail'⟩ x e).toOption.getD [] =
      ((report p s d n ⟨file, trail⟩ x e).toOption.getD []).filter
        fun f => t.le (.float f.confidence) := by
  let told : Suspicion :=
    { x with
      description := .str (Text.trim (x.description.plain ++ " " ++ e.description))
      evidence := some e }
  have hsite : p.securityFinding s told n ⟨file, trail'⟩ =
      p.securityFinding s told n ⟨file, trail⟩ := rfl
  unfold report
  rw [h.meetsConfidence_eq ht, hsite]
  cases meetsConfidence d e with
  | false => rfl
  | true =>
      rw [Bool.true_and, if_pos rfl]
      cases hfound : p.securityFinding s told n ⟨file, trail⟩ with
      | error cause => split <;> rfl
      | ok f =>
          have hconfidence : f.confidence = e.confidence :=
            ((of_securityFinding hfound).2.2.2.2 _ rfl).trans he
          have hreport : (do
              let found ← (Except.ok f : Except Finding.Error Finding).mapError Fault.finding
              return [found] : Except Fault (List Finding)) = .ok [f] := rfl
          have hkept : [f].filter (fun f => t.le (.float f.confidence)) =
              if t.le (.float e.confidence) then [f] else [] := by
            rw [List.filter_cons, hconfidence]
            rfl
          rw [hreport]
          refine Eq.trans ?_ hkept.symm
          cases t.le (.float e.confidence) with
          | false => rfl
          | true => rfl

theorem findingsOf_eq (n : Node) (site : Site) (r : Rule) :
    RuleBook.findingsOf n site r = (r.check r.settings n site).toOption.getD [] := by
  unfold RuleBook.findingsOf
  cases r.check r.settings n site with
  | error cause => rfl
  | ok found => rfl

/-- **Narrowing the gate of a rule takes away the findings with too little confidence.** -/
theorem Gated.findingsOf_narrowed {r r' : Rule} {s : Security} {inspect : Inspection}
    (hr : r.Gated s inspect) (h : Narrowed r r') {t : Number}
    (ht : threshold? r'.settings = some t) (n : Node) (file : SourceFile) {trail trail' : Trail}
    (hanc : trail.ancestors = trail'.ancestors) :
    RuleBook.findingsOf n ⟨file, trail'⟩ r' =
      (RuleBook.findingsOf n ⟨file, trail⟩ r).filter fun f => t.le (.float f.confidence) := by
  have hcheck : r'.check = guardedCheck r.profile s inspect := by
    rw [h.same]
    exact hr.check
  have htest := h.narrows.agree.inTestCode_eq file hanc
  have hinspect := hr.blind _ _ n file _ _ h.narrows.agree hanc
  rw [findingsOf_eq, findingsOf_eq, hcheck, hr.check]
  unfold guardedCheck
  rw [← htest, ← hinspect]
  cases inTestCode r.settings ⟨file, trail⟩ with
  | error cause => rfl
  | ok inTest =>
      cases inTest with
      | true => rfl
      | false =>
          cases hsuspected : inspect r.settings n ⟨file, trail⟩ with
          | error cause => rfl
          | ok suspected =>
              cases suspected with
              | none => rfl
              | some xe =>
                  exact report_narrowed h.narrows ht r.profile s n file trail trail' xe.1
                    (hr.sound _ _ _ _ _ hsuspected).2

/-- A finding has the confidence of the evidence on which it was reported. -/
theorem Gated.of_mem_findingsOf {r : Rule} {s : Security} {inspect : Inspection}
    (hr : r.Gated s inspect) {n : Node} {site : Site} {f : Finding}
    (h : f ∈ RuleBook.findingsOf n site r) :
    ∃ x e, inspect r.settings n site = .ok (some (x, e)) ∧ f.confidence = e.confidence := by
  rw [RuleBook.findingsOf, hr.check] at h
  split at h
  · rename_i found hfound
    unfold guardedCheck at hfound
    obtain ⟨inTest, _, hfound⟩ := of_bind_eq_ok hfound
    cases inTest with
    | true =>
        cases hfound
        cases h
    | false =>
        obtain ⟨suspected, hinspect, hfound⟩ := of_bind_eq_ok hfound
        have hsuspected := of_mapError_eq_ok hinspect
        cases suspected with
        | none =>
            cases hfound
            cases h
        | some xe =>
            obtain ⟨x, e⟩ := xe
            obtain ⟨description, hfinding⟩ := of_report hfound h
            have hfits : e.Fits := (hr.sound _ _ _ _ _ hsuspected).2
            exact ⟨x, e, hsuspected,
              ((of_securityFinding hfinding).2.2.2.2 _ rfl).trans hfits⟩
  · cases h

/-! ### Settings taken over -/

/-- The settings of a rule that new settings are put over. -/
def inForce (r : Rule) (d : Dict) : Dict :=
  Assoc.update r.defaults (Assoc.erase d "enabled")

theorem get?_inForce (r : Rule) (hd : Dict.Once d) {key : String} (h : key ≠ "enabled") :
    Assoc.get? (r.inForce d) (.str key) =
      (Assoc.get? d (.str key)).or (Assoc.get? r.defaults (.str key)) := by
  rw [inForce, Dict.get?_update_of_once _ (hd.erase _), Dict.get?_erase_of_ne d h.symm]

theorem get?_inForce_enabled (r : Rule) (hd : Dict.Once d) :
    Assoc.get? (r.inForce d) (.str "enabled") = Assoc.get? r.defaults (.str "enabled") := by
  rw [inForce, Dict.get?_update_of_once _ (hd.erase _), Dict.get?_erase_self, Option.none_or]

section Gated

variable {r : Rule} {s : Security} {inspect : Inspection}

theorem Gated.threshold?_inForce (hr : r.Gated s inspect) (hd : Dict.Once d) :
    threshold? (r.inForce d) = threshold? d := by
  have hsame : setting (r.inForce d) "confidence_threshold" (.float 0.5) =
      setting d "confidence_threshold" (.float 0.5) := by
    rw [setting, setting, Assoc.getD, Assoc.getD, get?_inForce r hd (by decide), hr.threshold]
    cases Assoc.get? d (.str "confidence_threshold") with
    | none => rfl
    | some v => rfl
  rw [threshold?, hsame, threshold?]

theorem isStrict_inForce (r : Rule) (hd : Dict.Once d) (h : IsStrict d) :
    IsStrict (r.inForce d) := by
  rw [IsStrict, get?_inForce r hd (by decide), h]
  rfl

theorem Gated.isLenient_inForce (hr : r.Gated s inspect) (hd : Dict.Once d) (h : IsLenient d) :
    IsLenient (r.inForce d) := by
  refine Or.inr ?_
  rw [get?_inForce r hd (by decide), hr.lenient]
  rcases h with h | h
  · rw [h]
    rfl
  · rw [h]
    rfl

/-- Settings put over the same defaults differ as they did before. -/
theorem Gated.narrows_inForce (hr : r.Gated s inspect) (hd : Dict.Once d) (hd' : Dict.Once d')
    (h : Narrows d d') : Narrows (r.inForce d) (r.inForce d') where
  agree key hstrict hthreshold := by
    by_cases hkey : key = "enabled"
    · rw [hkey, get?_inForce_enabled r hd, get?_inForce_enabled r hd']
    · rw [get?_inForce r hd hkey, get?_inForce r hd' hkey, h.agree key hstrict hthreshold]
  valid := by rw [hr.threshold?_inForce hd, hr.threshold?_inForce hd', h.valid]
  lenient := hr.isLenient_inForce hd' h.lenient
  raised := by
    rw [hr.threshold?_inForce hd, hr.threshold?_inForce hd']
    exact h.raised.imp (isStrict_inForce r hd) (And.imp_left (hr.isLenient_inForce hd))

/-- A threshold that is no share is the only thing that can be wrong with the threshold. -/
theorem problemIf_threshold (d : Dict) (message : String) :
    problemIf d "confidence_threshold" (fun v => !isShare v) message =
      if (threshold? d).isSome then [] else [.remark message] := by
  have hnumber : ∀ v, isShare v = true → v.number?.isSome = true := by
    intro v hv
    cases v with
    | bool b => rfl
    | int n => rfl
    | float x => rfl
    | null => cases hv
    | str a => cases hv
    | list items => cases hv
    | dict entries => cases hv
  rw [problemIf, threshold?, setting, Assoc.getD]
  cases Assoc.get? d (.str "confidence_threshold") with
  | none =>
      have hhalf : isShare (.float 0.5) = true := by decide +kernel
      simp [hhalf, Value.number?]
  | some v =>
      cases hv : isShare v with
      | false => simp [hv]
      | true => simp [hv, hnumber v hv]

theorem problemIf_strict_eq_nil (h : IsStrict d ∨ IsLenient d) (message : String) :
    problemIf d "strict_mode" (fun v => !v.isBool) message = [] := by
  unfold IsStrict IsLenient at h
  rw [problemIf]
  rcases h with h | h | h <;> simp [h, Value.isBool]

theorem Narrows.isStrict_or (h : Narrows d d') : IsStrict d ∨ IsLenient d :=
  h.raised.imp_right And.left

/-- What is wrong with the settings does not depend on the gate. -/
theorem Gated.problems_eq (hr : r.Gated s inspect) (h : Narrows d d') :
    r.problems d = r.problems d' := by
  have hsecurity : securityProblems d = securityProblems d' := by
    simp only [securityProblems, problemIf_strict_eq_nil h.isStrict_or,
      problemIf_strict_eq_nil (Or.inr h.lenient), problemIf_threshold, h.valid,
      h.agree.problemIf_eq (show "risk_threshold" ≠ _ by decide) (by decide)]
  rw [Rule.problems, Rule.problems, hsecurity, hr.problems d d' h.agree,
    h.agree.problemIf_eq (by decide) (by decide)]

/-- Settings in which nothing is wrong have a threshold. -/
theorem Gated.isSome_threshold? (hr : r.Gated s inspect) (h : r.problems d = []) :
    (threshold? d).isSome := by
  rw [Rule.problems, hr.security, Option.isSome_some, if_pos rfl, securityProblems,
    problemIf_threshold] at h
  simp only [List.append_eq_nil_iff] at h
  obtain ⟨⟨_, _, hthreshold⟩, _⟩ := h
  by_cases hsome : (threshold? d).isSome
  · exact hsome
  · rw [if_neg hsome] at hthreshold
    cases hthreshold

/-- The rule with settings in force. -/
def withSettings (r : Rule) (d : Dict) : Rule :=
  { r with
    settings := r.inForce d
    enabled := (Assoc.get? d (.str "enabled")).elim r.enabled Value.truthy }

theorem admitted_of_ne_nil (hr : r.profile.security.isSome) (hne : d ≠ []) :
    Lineup.admitted true r d =
      if r.problems d = [] ∧ (r.withSettings d).validity.errors = [] then some (r.withSettings d)
      else none := by
  have hsort : ¬ (true && r.profile.security.isNone) = true := by
    simpa [Option.isSome_iff_ne_none] using hr
  have hgiven : ¬ d.isEmpty = true := by simpa using hne
  rw [Lineup.admitted, if_neg hsort, configured, if_neg hgiven, configure]
  cases r.problems d with
  | nil =>
      have htaken : (if (r.withSettings d).validity.errors.isEmpty = true then
          some (r.withSettings d) else none) =
          if [] = ([] : List Problem) ∧ (r.withSettings d).validity.errors = [] then
            some (r.withSettings d) else none := by
        simp only [List.isEmpty_iff, true_and]
      exact htaken
  | cons found more => simp

/-- Looking a rule over does not see the gate. -/
theorem Gated.errors_eq (hr : r.Gated s inspect) (hd : Dict.Once d) (hd' : Dict.Once d')
    (h : Narrows d d') :
    (r.withSettings d).validity.errors = (r.withSettings d').validity.errors := by
  have hproblems : (r.withSettings d).problems (r.withSettings d).settings =
      (r.withSettings d').problems (r.withSettings d').settings :=
    hr.problems_eq (hr.narrows_inForce hd hd' h)
  rw [validity, validity, hproblems]
  rfl

/-- **A rule is taken up under both gates or under none**, and if it is, only the gate differs. -/
theorem Gated.admitted_narrowed (hr : r.Gated s inspect) (hd : Dict.Once d) (hd' : Dict.Once d')
    (hne : d ≠ []) (hne' : d' ≠ []) (h : Narrows d d') :
    Lineup.admitted true r d = none ∧ Lineup.admitted true r d' = none ∨
      Lineup.admitted true r d = some (r.withSettings d) ∧
        Lineup.admitted true r d' = some (r.withSettings d') ∧
        Narrowed (r.withSettings d) (r.withSettings d') ∧ (threshold? d').isSome := by
  have hsecurity : r.profile.security.isSome := by rw [hr.security]; rfl
  rw [admitted_of_ne_nil hsecurity hne, admitted_of_ne_nil hsecurity hne', ← hr.problems_eq h,
    ← hr.errors_eq hd hd' h]
  by_cases hfine : r.problems d = [] ∧ (r.withSettings d).validity.errors = []
  · have hfine' : r.problems d' = [] := (hr.problems_eq h).symm.trans hfine.1
    refine Or.inr ⟨if_pos hfine, if_pos hfine, ⟨?_, hr.narrows_inForce hd hd' h⟩,
      hr.isSome_threshold? hfine'⟩
    rw [withSettings, withSettings, h.agree "enabled" (by decide) (by decide)]
  · exact Or.inl ⟨if_neg hfine, if_neg hfine⟩

theorem Gated.withSettings (hr : r.Gated s inspect) (d : Dict) :
    (r.withSettings d).Gated s inspect :=
  ⟨hr.check, hr.blind, hr.sound, hr.security, hr.lenient, hr.threshold, hr.problems,
    hr.checks⟩

end Gated

end Rule

end PhpAudit
