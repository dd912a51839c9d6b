/-
**What the inspections of the security rules read, and how sure they are.**

Nine security rules differ in what they inspect and agree in the rest.  No inspection reads the
settings of the gate.  The evidence of an inspection is gathered from factors with fixed weights, so
its confidence is one of a few numbers, all of them between zero and one; a finding takes it over as
it is.

Main definitions:

* `Security.inspections` — the security rules with their inspections;
* `Evidence.Gathered`, `Evidence.accumulated` — evidence from factors of given weights, and the
  confidence that the weights add up to;
* `Security.weightings` — all weights that an inspection gathers.

Main results:

* `Security.clampConfidence_accumulated` — what the weights add up to is a confidence as it is;
* `Security.gated_of_mem` — **in a security rule nothing but the gate reads the settings of the
  gate**, and the confidence of its evidence is that of its findings;
* `Security.signs_of_mem_rules` — the security rules sign their findings.
-/

import PhpAudit.Proofs.Security.Gate

set_option autoImplicit false

namespace PhpAudit

open Rule (AgreeBeyondGate)

/-! ### Gathering evidence -/

namespace Evidence

/-- The evidence has been gathered from factors of the given weights, the last one first. -/
inductive Gathered : List Float → Evidence → Prop
  | none : Gathered [] {}
  | add {weights : List Float} {e : Evidence} {factor : Value} {weight : Float} {text : String}
      (h : Gathered weights e) : Gathered (weight :: weights) (e.add factor weight text)

/-- The confidence that weights add up to, the last one first. -/
def accumulated : List Float → Float
  | [] => 0.0
  | weight :: weights => capped (Decimal.round (accumulated weights + weight) 6)

variable {weights : List Float} {e : Evidence}

theorem Gathered.confidence_eq (h : Gathered weights e) : e.confidence = accumulated weights := by
  induction h with
  | none => rfl
  | add h ih =>
      rw [accumulated, ← ih]
      rfl

end Evidence

open Evidence (Gathered accumulated)

/-! ### What the inspections add -/

theorem Rule.Suspicion.Modest.of_keys {x : Rule.Suspicion} (names : List String)
    (hkeys : x.metadata.map Prod.fst = names.map Key.str) (hnames : "vulnerability_type" ∉ names) :
    x.Modest := by
  intro e he
  have hmem : e.1 ∈ names.map Key.str := hkeys ▸ List.mem_map_of_mem he
  obtain ⟨a, ha, heq⟩ := List.mem_map.1 hmem
  refine ⟨a, heq.symm, ?_⟩
  rintro rfl
  exact hnames ha

namespace Security

/-- The security rules with their inspections. -/
def inspections : List (Rule × Rule.Inspection) :=
  [(Sql.rule, Sql.inspect), (Command.rule, Command.inspect), (Code.rule, Code.inspect),
   (Inclusion.rule, Inclusion.inspect), (Traversal.rule, Traversal.inspect),
   (Scripting.rule, Scripting.inspect), (Deserialization.rule, Deserialization.inspect),
   (Cryptography.rule, Cryptography.inspect), (Credentials.rule, Credentials.inspect)]

theorem map_fst_inspections : inspections.map Prod.fst = rules :=
  rfl

/-! ### What the inspections read -/

theorem Sql.inspect_blind : Rule.Inspection.Blind Sql.inspect := by
  intro d d' n file trail trail' _ hanc
  simp only [Sql.inspect, inspectString, Walk.Trail.findAncestor?, hanc]

theorem Credentials.inspect_blind : Rule.Inspection.Blind Credentials.inspect := by
  intro d d' n file trail trail' hagree _
  simp only [Credentials.inspect, minLength,
    hagree.setting_eq (show "min_length" ≠ _ by decide) (by decide),
    hagree.setting_eq (show "ignored_values" ≠ _ by decide) (by decide)]
  rfl

theorem Credentials.ownProblems_eq {d d' : Dict} (h : AgreeBeyondGate d d') :
    Credentials.ownProblems d = Credentials.ownProblems d' :=
  h.problemIf_eq (by decide) (by decide) _ _

/-! ### How sure the inspections are, and what they tell -/

/-- The weights of what the shape of a value gives. -/
def inputWeights : List (List Float) :=
  [[0.3, 0.7], [0.3, 0.6], [0.3], [0.7], [0.6], []]

/-- The weights of what the shape of a query gives. -/
def Sql.shapeWeights : List (List Float) :=
  [[], [0.1, 0.8], [0.8], [0.1, 0.7], [0.7], [0.6], [0.5]]

/-- The weights of what a weak function gives. -/
def Cryptography.weaknessWeights : List (List Float) :=
  [[0.6], [0.5], [0.8]]

/-- The weights that the other evidence is gathered from. -/
def plainWeights : List (List Float) :=
  [[], [0.5], [0.6], [0.7], [0.8], [0.9],
    [0.3, 0.5], [0.3, 0.6], [0.4, 0.6], [0.1, 0.7], [0.3, 0.7], [0.2, 0.8]]

/-- All weights that an inspection gathers: a shape may be followed by one more factor. -/
def weightings : List (List Float) :=
  plainWeights ++ inputWeights ++ inputWeights.map (0.3 :: ·) ++ Sql.shapeWeights ++
    Sql.shapeWeights.map (0.2 :: ·) ++ Cryptography.weaknessWeights ++
    Cryptography.weaknessWeights.map (0.3 :: ·)

/-- What the weights of an inspection add up to is between zero and one. -/
theorem clampConfidence_accumulated :
    ∀ weights ∈ weightings,
      Finding.clampConfidence (accumulated weights) = accumulated weights := by
  decide +kernel

theorem fits_of_gathered {weights : List Float} {e : Evidence} (h : Gathered weights e)
    (hmem : weights ∈ weightings) : e.Fits := by
  rw [Evidence.Fits, h.confidence_eq, clampConfidence_accumulated weights hmem]

theorem fits_of_plain {weights : List Float} {e : Evidence} (h : Gathered weights e)
    (hmem : weights ∈ plainWeights) : e.Fits :=
  fits_of_gathered h (by simp only [weightings, List.mem_append, hmem, true_or])

/-- Evidence of one factor, and of one more if a test holds. -/
theorem fits_of_built {c : Prop} [Decidable c] {a b : Value} {v w : Float} {s t : String}
    (hone : [v] ∈ plainWeights) (htwo : [w, v] ∈ plainWeights) :
    (if c then (Evidence.add {} a v s).add b w t else Evidence.add {} a v s).Fits := by
  split
  · exact fits_of_plain Gathered.none.add.add htwo
  · exact fits_of_plain Gathered.none.add hone

theorem describeInput_gathered (n : Node) :
    ∃ weights ∈ inputWeights, Gathered weights (describeInput n) := by
  unfold describeInput
  dsimp only
  split
  · split
    · exact ⟨[0.3, 0.7], by simp [inputWeights], .add (.add .none)⟩
    · split
      · exact ⟨[0.3, 0.7], by simp [inputWeights], .add (.add .none)⟩
      · split
        · exact ⟨[0.3, 0.6], by simp [inputWeights], .add (.add .none)⟩
        · exact ⟨[0.3], by simp [inputWeights], .add .none⟩
  · split
    · exact ⟨[0.7], by simp [inputWeights], .add .none⟩
    · split
      · exact ⟨[0.7], by simp [inputWeights], .add .none⟩
      · split
        · exact ⟨[0.6], by simp [inputWeights], .add .none⟩
        · exact ⟨[], by simp [inputWeights], .none⟩

theorem describeInput_fits (n : Node) : (describeInput n).Fits := by
  obtain ⟨weights, hmem, hgathered⟩ := describeInput_gathered n
  exact fits_of_gathered hgathered (by simp [weightings, hmem])

theorem Sql.shape_gathered (query : Node) :
    ∃ weights ∈ Sql.shapeWeights, Gathered weights (Sql.shape query) := by
  unfold Sql.shape
  split
  · exact ⟨[], by simp [shapeWeights], .none⟩
  · split
    · split
      · exact ⟨[], by simp [shapeWeights], .none⟩
      · dsimp only
        split
        · exact ⟨[0.1, 0.8], by simp [shapeWeights], .add (.add .none)⟩
        · exact ⟨[0.8], by simp [shapeWeights], .add .none⟩
    · split
      · dsimp only
        split
        · exact ⟨[0.1, 0.7], by simp [shapeWeights], .add (.add .none)⟩
        · exact ⟨[0.7], by simp [shapeWeights], .add .none⟩
      · split
        · exact ⟨[0.6], by simp [shapeWeights], .add .none⟩
        · split
          · split
            · exact ⟨[], by simp [shapeWeights], .none⟩
            · exact ⟨[0.5], by simp [shapeWeights], .add .none⟩
          · exact ⟨[], by simp [shapeWeights], .none⟩

theorem Sql.assess_fits (n : Node) : (Sql.assess n).Fits := by
  obtain ⟨weights, hmem, hgathered⟩ := shape_gathered (Php.unwrap n)
  unfold Sql.assess
  dsimp only
  split
  · exact fits_of_gathered hgathered.add (by simp [weightings, hmem])
  · exact fits_of_gathered hgathered (by simp [weightings, hmem])

theorem Sql.inspect_sound : Rule.Inspection.Sound Sql.inspect := by
  intro settings n site x e h
  unfold Sql.inspect at h
  injection h with h
  split at h
  · unfold inspectCall at h
    dsimp only at h
    split at h
    · cases h
      exact ⟨.of_keys ["function", "sink"] rfl (by decide), assess_fits _⟩
    · split at h
      · split at h
        · cases h
          exact ⟨.of_keys ["function", "sink"] rfl (by decide), assess_fits _⟩
        · cases h
      · cases h
  · unfold inspectString at h
    dsimp only at h
    split at h
    · cases h
    · split at h
      · cases h
      · -- Four checks let a string pass before it is reported.
        split at h
        · cases h
        · split at h
          · cases h
          · split at h
            · cases h
            · split at h
              · cases h
              · cases h
                refine ⟨.of_keys ["sink", "keyword"] rfl (by decide), ?_⟩
                split <;> split
                · exact fits_of_plain Gathered.none.add.add (by simp [plainWeights])
                · exact fits_of_plain Gathered.none.add.add (by simp [plainWeights])
                · exact fits_of_plain Gathered.none.add (by simp [plainWeights])
                · exact fits_of_plain Gathered.none.add (by simp [plainWeights])

theorem Command.backtickEvidence_fits (n : Node) : (Command.backtickEvidence n).Fits := by
  unfold Command.backtickEvidence
  split
  · exact fits_of_built (by simp [plainWeights]) (by simp [plainWeights])
  · exact fits_of_plain Gathered.none (by simp [plainWeights])

theorem Command.inspect_sound : Rule.Inspection.Sound Command.inspect := by
  intro settings n site x e h
  unfold Command.inspect at h
  injection h with h
  split at h
  · cases h
    exact ⟨.of_keys ["function"] rfl (by decide), backtickEvidence_fits n⟩
  · unfold inspectCall at h
    dsimp only at h
    split at h
    · cases h
    · split at h
      · cases h
      · split at h
        · cases h
        · cases h
          exact ⟨.of_keys ["function"] rfl (by decide), describeInput_fits _⟩

theorem Code.evalEvidence_fits (first : Option Node) : (Code.evalEvidence first).Fits := by
  unfold Code.evalEvidence
  split
  · rename_i value _
    obtain ⟨weights, hmem, hgathered⟩ := describeInput_gathered value
    exact fits_of_gathered hgathered.add (by simp [weightings, hmem])
  · exact fits_of_plain Gathered.none.add (by simp [plainWeights])

theorem Code.assertEvidence_fits (target : Node) : (Code.assertEvidence target).Fits := by
  unfold Code.assertEvidence
  exact fits_of_built (by simp [plainWeights]) (by simp [plainWeights])

theorem Code.about_modest (name description : String) : (Code.about name description).Modest :=
  .of_keys ["function"] rfl (by decide)

theorem Code.inspect_sound : Rule.Inspection.Sound Code.inspect := by
  intro settings n site x e h
  unfold Code.inspect at h
  dsimp only at h
  injection h with h
  split at h
  · cases h
    exact ⟨about_modest _ _, evalEvidence_fits _⟩
  · split at h
    · split at h
      · split at h
        · cases h
          exact ⟨about_modest _ _, assertEvidence_fits _⟩
        · cases h
      · cases h
    · split at h
      · cases h
        exact ⟨about_modest _ _, fits_of_plain Gathered.none.add (by simp [plainWeights])⟩
      · split at h
        · cases h
          exact ⟨about_modest _ _, fits_of_plain Gathered.none.add (by simp [plainWeights])⟩
        · cases h

theorem Inclusion.evidence_fits (target : Node) : (Inclusion.evidence target).Fits := by
  unfold Inclusion.evidence
  exact fits_of_built (by simp [plainWeights]) (by simp [plainWeights])

theorem Inclusion.inspect_sound : Rule.Inspection.Sound Inclusion.inspect := by
  intro settings n site x e h
  unfold Inclusion.inspect at h
  injection h with h
  split at h
  · cases h
  · split at h
    · cases h
    · cases h
      exact ⟨.of_keys ["statement"] rfl (by decide), evidence_fits _⟩

theorem Traversal.evidence_fits (path : Node) : (Traversal.evidence path).Fits := by
  unfold Traversal.evidence
  exact fits_of_built (by simp [plainWeights]) (by simp [plainWeights])

theorem Traversal.inspect_sound : Rule.Inspection.Sound Traversal.inspect := by
  intro settings n site x e h
  unfold Traversal.inspect at h
  dsimp only at h
  injection h with h
  split at h
  · cases h
  · split at h
    · cases h
      exact ⟨.of_keys ["function"] rfl (by decide), evidence_fits _⟩
    · cases h

theorem Scripting.inspect_sound : Rule.Inspection.Sound Scripting.inspect := by
  intro settings n site x e h
  unfold Scripting.inspect at h
  injection h with h
  split at h
  · cases h
    exact ⟨.of_keys ["statement"] rfl (by decide),
      fits_of_plain Gathered.none.add (by simp [plainWeights])⟩
  · cases h

theorem Deserialization.evidence_fits (data : Node) : (Deserialization.evidence data).Fits := by
  unfold Deserialization.evidence
  exact fits_of_built (by simp [plainWeights]) (by simp [plainWeights])

theorem Deserialization.inspect_sound : Rule.Inspection.Sound Deserialization.inspect := by
  intro settings n site x e h
  unfold Deserialization.inspect at h
  injection h with h
  split at h
  · cases h
  · split at h
    · cases h
    · cases h
      exact ⟨.of_keys ["function"] rfl (by decide), evidence_fits _⟩

theorem Cryptography.weakness?_gathered {n : Node} {e : Evidence}
    (h : Cryptography.weakness? n = some e) :
    ∃ weights ∈ Cryptography.weaknessWeights, Gathered weights e := by
  unfold Cryptography.weakness? at h
  dsimp only at h
  split at h
  · cases h
    exact ⟨[0.6], by simp [weaknessWeights], .add .none⟩
  · split at h
    · split at h
      · cases h
      · split at h
        · cases h
          exact ⟨[0.6], by simp [weaknessWeights], .add .none⟩
        · cases h
    · split at h
      · cases h
        exact ⟨[0.5], by simp [weaknessWeights], .add .none⟩
      · split at h
        · cases h
          exact ⟨[0.8], by simp [weaknessWeights], .add .none⟩
        · cases h

theorem Cryptography.inspect_sound : Rule.Inspection.Sound Cryptography.inspect := by
  intro settings n site x e h
  unfold Cryptography.inspect at h
  injection h with h
  obtain ⟨weak, hweak, h⟩ := Option.map_eq_some_iff.1 h
  obtain ⟨weights, hmem, hgathered⟩ := weakness?_gathered hweak
  cases h
  refine ⟨.of_keys ["function"] rfl (by decide), ?_⟩
  split
  · exact fits_of_gathered hgathered.add (by simp [weightings, hmem])
  · exact fits_of_gathered hgathered (by simp [weightings, hmem])

theorem Credentials.evidence_fits (name secret : String) :
    (Credentials.evidence name secret).Fits := by
  unfold Credentials.evidence
  exact fits_of_built (by simp [plainWeights]) (by simp [plainWeights])

theorem Credentials.inspect_sound : Rule.Inspection.Sound Credentials.inspect := by
  intro settings n site x e h
  unfold Credentials.inspect at h
  split at h
  · cases h
  · dsimp only at h
    split at h
    · cases h
    · split at h
      · cases h
      · obtain ⟨ignored, _, h⟩ := of_bind_eq_ok h
        cases ignored with
        | true => cases h
        | false =>
            cases h
            exact ⟨.of_keys ["name"] rfl (by decide), evidence_fits _ _⟩

/-! ### The rules -/

/-- A security rule without settings of its own, whose inspection reads no settings. -/
theorem gated_guarded (p : Rule.Profile) (s : Rule.Security) {inspect : Rule.Inspection}
    (hblind : inspect.Blind) (hsound : inspect.Sound) :
    ∃ s', (Rule.guarded p s [] (fun _ => []) inspect).Gated s' inspect :=
  ⟨s, rfl, hblind, hsound, rfl, rfl, rfl, fun _ _ _ => rfl, fun _ _ => List.not_mem_nil⟩

/-- **In a security rule nothing but the gate reads the settings of the gate.** -/
theorem gated_of_mem {r : Rule} {inspect : Rule.Inspection} (h : (r, inspect) ∈ inspections) :
    ∃ s, r.Gated s inspect := by
  simp only [inspections, List.mem_cons, List.not_mem_nil, or_false, Prod.mk.injEq] at h
  rcases h with ⟨rfl, rfl⟩ | ⟨rfl, rfl⟩ | ⟨rfl, rfl⟩ | ⟨rfl, rfl⟩ | ⟨rfl, rfl⟩ | ⟨rfl, rfl⟩ |
    ⟨rfl, rfl⟩ | ⟨rfl, rfl⟩ | ⟨rfl, rfl⟩
  · exact gated_guarded _ _ Sql.inspect_blind Sql.inspect_sound
  · exact gated_guarded _ _ (fun _ _ _ _ _ _ _ _ => rfl) Command.inspect_sound
  · exact gated_guarded _ _ (fun _ _ _ _ _ _ _ _ => rfl) Code.inspect_sound
  · exact gated_guarded _ _ (fun _ _ _ _ _ _ _ _ => rfl) Inclusion.inspect_sound
  · exact gated_guarded _ _ (fun _ _ _ _ _ _ _ _ => rfl) Traversal.inspect_sound
  · exact gated_guarded _ _ (fun _ _ _ _ _ _ _ _ => rfl) Scripting.inspect_sound
  · exact gated_guarded _ _ (fun _ _ _ _ _ _ _ _ => rfl) Deserialization.inspect_sound
  · exact gated_guarded _ _ (fun _ _ _ _ _ _ _ _ => rfl) Cryptography.inspect_sound
  · exact ⟨_, rfl, Credentials.inspect_blind, Credentials.inspect_sound, rfl, rfl, rfl,
      fun _ _ => Credentials.ownProblems_eq,
      fun d => Rule.failure_notMem_problemIf d _ _ _⟩

theorem exists_gated {r : Rule} (h : r ∈ rules) :
    ∃ inspect s, (r, inspect) ∈ inspections ∧ r.Gated s inspect := by
  rw [← map_fst_inspections] at h
  obtain ⟨⟨_, inspect⟩, hmem, rfl⟩ := List.mem_map.1 h
  obtain ⟨s, hs⟩ := gated_of_mem hmem
  exact ⟨inspect, s, hmem, hs⟩

/-- The registration of a security rule does not fail. -/
theorem add_failure_eq_none {r : Rule} (h : r ∈ rules) (b : RuleBook) (settings : Dict) :
    (b.add r settings).failure = none := by
  obtain ⟨_, _, _, hgated⟩ := exists_gated h
  refine Option.eq_none_iff_forall_ne_some.2 fun cause hfailure => ?_
  obtain ⟨given, hmem⟩ := RuleBook.of_add_failure hfailure
  exact hgated.checks given cause hmem

/-- The security rules sign their findings. -/
theorem signs_of_mem_rules {r : Rule} (h : r ∈ rules) : r.Signs := by
  obtain ⟨_, _, _, hgated⟩ := exists_gated h
  exact hgated.signs

end Security

end PhpAudit
