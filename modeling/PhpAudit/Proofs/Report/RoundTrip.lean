/-
**A finding that was written is read again as the same finding.**

Reading a dictionary fills in what is missing, replaces null by an empty list or by the start of the
finding, and brings the confidence into its range; writing shows the fingerprint where there is no
identifier, and rounds the confidence.  So the finding that is read back is not the first one: it
has an identifier of its own and a shorter confidence.  Nobody sees the difference.  The end of a
finding that was read is null only where its start is, so it stays what it was; a fingerprint is
never empty, so it serves as the identifier; and the fingerprint looks at neither of the two fields
that changed.

Main definitions:

* `Finding.Texts` — a dictionary with texts for title, description and rule, as far as they are
  there;
* `Finding.ReadFrom` — what reading leaves of these texts, and of an end that was not given;
* `Finding.shown` — the finding with the two fields changed.

Main results:

* `Finding.readFrom_of_ofDict` — every finding that was read is so;
* `Finding.ofDict_of_toDict` — what is written is read as this finding;
* `Finding.written_is_read_back` — **dictionary, identifier, fingerprint, priority and place come
  back**.
-/

import PhpAudit.Proofs.Audit.Isolation

set_option autoImplicit false

namespace PhpAudit

/-! ### Values that are read as they were written -/

theorem Value.itemsOrEmpty_list (items : List Value) : (list items).itemsOrEmpty = .ok items := by
  cases items <;> rfl

theorem Value.toDict_dict (entries : Dict) : (dict entries).toDict = .ok entries := by
  cases entries <;> rfl

theorem Value.field?_of_entry {v x : Value} {key : String} (h : v.entry key = .ok x) :
    v.field? key = some x := by
  unfold entry at h
  split at h
  · split at h
    · rename_i hget
      cases h
      exact hget
    · cases h
  all_goals cases h

namespace Finding

theorem readSeverity_name (s : Severity) : readSeverity (.str s.name) = .ok s := by
  cases s <;> rfl

theorem readCategory_name (c : Category) : readCategory (.str c.name) = .ok c := by
  cases c <;> rfl

/-- An end that may be null only with its start is not replaced by it. -/
theorem unlessNull_self {last first : Value} (h : last = .null → first = .null) :
    (if last.isNull then first else last) = last := by
  cases last with
  | null => exact h rfl
  | _ => rfl

/-- An end that was replaced by its start is null only with it. -/
theorem null_of_unlessNull {last first : Value}
    (h : (if last.isNull then first else last) = .null) : first = .null := by
  cases last with
  | null => exact h
  | _ => cases h

/-! ### What reading leaves -/

/-- A dictionary with texts for title, description and rule, as far as they are there. -/
def Texts (data : Value) : Prop :=
  ∀ key ∈ ["title", "description", "rule_id"], ∀ v, data.field? key = some v → ∃ text, v = .str text

/-- What reading leaves of the texts of a dictionary, and of an end that was not given. -/
structure ReadFrom (data : Value) (f : Finding) : Prop where
  title : data.field? "title" = some f.title
  description : f.description = (data.field? "description").getD ""
  ruleId : f.ruleId = (data.field? "rule_id").getD ""
  endLine : f.endLine = .null → f.line = .null
  endColumn : f.endColumn = .null → f.column = .null

theorem readFrom_of_ofDict {data : Value} {f : Finding} (h : ofDict data = .ok f) :
    ReadFrom data f := by
  obtain ⟨title, htitle, h⟩ := of_bind_eq_ok h
  obtain ⟨givenSeverity, -, h⟩ := of_bind_eq_ok h
  obtain ⟨givenCategory, -, h⟩ := of_bind_eq_ok h
  obtain ⟨severity, -, h⟩ := of_bind_eq_ok h
  obtain ⟨category, -, h⟩ := of_bind_eq_ok h
  obtain ⟨tags, -, h⟩ := of_bind_eq_ok h
  obtain ⟨suggestions, -, h⟩ := of_bind_eq_ok h
  obtain ⟨metadata, -, h⟩ := of_bind_eq_ok h
  obtain ⟨confidence, -, h⟩ := of_bind_eq_ok h
  obtain ⟨cweIds, -, h⟩ := of_bind_eq_ok h
  cases h
  exact {
    title := Value.field?_of_entry (of_mapError_eq_ok htitle)
    description := rfl
    ruleId := rfl
    endLine := null_of_unlessNull
    endColumn := null_of_unlessNull }

theorem Texts.getD {data : Value} (h : Texts data) {key : String}
    (hkey : key ∈ ["title", "description", "rule_id"]) :
    ∃ text, (data.field? key).getD "" = .str text := by
  cases hv : data.field? key with
  | none => exact ⟨"", rfl⟩
  | some v => exact h key hkey v hv

theorem ReadFrom.textual {data : Value} {f : Finding} (h : ReadFrom data f) (ht : Texts data) :
    f.Textual where
  title := ht "title" (by decide) _ h.title
  description := h.description ▸ ht.getD (by decide)
  rule := h.ruleId ▸ ht.getD (by decide)

/-! ### Writing and reading -/

/-- A fingerprint starts with the name of a category. -/
theorem ne_empty_of_fingerprint {f : Finding} {key : String} (h : f.fingerprint = .ok key) :
    key ≠ "" := by
  obtain ⟨title, -, h⟩ := of_bind_eq_ok h
  obtain ⟨description, -, h⟩ := of_bind_eq_ok h
  split at h
  · cases h
    intro hempty
    have hlist := congrArg String.toList hempty
    simp at hlist
  · cases h

/-- The identifier that is shown can be given as the identifier. -/
theorem truthy_of_id {f : Finding} {id : Value} (h : f.id = .ok id) : id.truthy = true := by
  unfold Finding.id at h
  split at h
  · cases h
    assumption
  · -- no identifier was given, so the fingerprint is shown
    cases hkey : f.fingerprint with
    | error e => simp [hkey, Except.map] at h
    | ok key =>
        rw [hkey] at h
        cases h
        simpa [Value.truthy] using ne_empty_of_fingerprint hkey

/-- The finding as it is read back: with the identifier that was shown and a rounded confidence. -/
def shown (f : Finding) (id : Value) : Finding :=
  { f with confidence := Decimal.round f.confidence 3, givenId := id }

theorem ofDict_of_toDict {data : Value} {f : Finding} (h : ReadFrom data f)
    (hrange : clampConfidence (Decimal.round f.confidence 3) = Decimal.round f.confidence 3)
    {id : Value} (hid : f.id = .ok id) :
    ∃ d, f.toDict = .ok d ∧ ofDict (.dict d) = .ok (f.shown id) := by
  unfold toDict
  rw [hid]
  refine ⟨_, rfl, ?_⟩
  -- The look-ups are on fixed keys and compute; what is left are the six fields that are checked.
  change (do
      let severity ← readSeverity (.str f.severity.name)
      let category ← readCategory (.str f.category.name)
      let tags ← lift (Value.list f.tags).itemsOrEmpty
      let suggestions ← lift (Value.list f.suggestions).itemsOrEmpty
      let metadata ← lift (Value.dict f.metadata).toDict
      let cweIds ← lift (Value.list f.cweIds).itemsOrEmpty
      return { f.shown id with
        severity, category, tags, suggestions, metadata, cweIds
        endLine := if f.endLine.isNull then f.line else f.endLine
        endColumn := if f.endColumn.isNull then f.column else f.endColumn
        confidence := clampConfidence (Decimal.round f.confidence 3) }) = _
  simp only [readSeverity_name, readCategory_name, Value.itemsOrEmpty_list, Value.toDict_dict,
    unlessNull_self h.endLine, unlessNull_self h.endColumn, hrange]
  rfl

theorem id_shown {f : Finding} {id : Value} (h : f.id = .ok id) : (f.shown id).id = .ok id :=
  if_pos (truthy_of_id h)

theorem toDict_shown {f : Finding}
    (hround : Decimal.round (Decimal.round f.confidence 3) 3 = Decimal.round f.confidence 3)
    {id : Value} (h : f.id = .ok id) : (f.shown id).toDict = f.toDict := by
  unfold toDict
  rw [id_shown h, h]
  simp only [shown, hround]

/-- **A finding that was read from a dictionary of texts can be written, and what is written can be
read.**  The second finding has the dictionary, the identifier, the fingerprint, the priority and
the place of the first.  Of the confidence it is used that, once rounded, it is in its range and is
not changed by rounding it again. -/
theorem written_is_read_back {data : Value} {f : Finding} (hread : ofDict data = .ok f)
    (htexts : Texts data)
    (hround : Decimal.round (Decimal.round f.confidence 3) 3 = Decimal.round f.confidence 3)
    (hrange : clampConfidence (Decimal.round f.confidence 3) = Decimal.round f.confidence 3) :
    ∃ d g id key, f.toDict = .ok d ∧ ofDict (.dict d) = .ok g ∧ g.toDict = .ok d ∧
      f.id = .ok id ∧ g.id = .ok id ∧ f.fingerprint = .ok key ∧ g.fingerprint = .ok key ∧
      g.severity.priority = f.severity.priority ∧ g.location = f.location := by
  have hfrom := readFrom_of_ofDict hread
  obtain ⟨key, hkey⟩ := (hfrom.textual htexts).fingerprint_ok
  obtain ⟨id, hid⟩ : ∃ id, f.id = .ok id := by
    unfold Finding.id
    split
    · exact ⟨_, rfl⟩
    · exact ⟨.str key, by rw [hkey]; rfl⟩
  obtain ⟨d, hd, hback⟩ := ofDict_of_toDict hfrom hrange hid
  exact ⟨d, f.shown id, id, key, hd, hback, (toDict_shown hround hid).trans hd, hid, id_shown hid,
    hkey, hkey, rfl, rfl⟩

/-- A dictionary that leaves most of a finding out, with a confidence of five places. -/
def terse : Value :=
  .dict [("title", "Weak hash"), ("severity", "HIGH"), ("category", "security"), ("line", .int 7),
    ("end_line", .null), ("tags", .null), ("confidence", .float 0.98765)]

/-- The finding that `terse` describes. -/
def terseFinding : Finding where
  title := "Weak hash"
  description := ""
  severity := .high
  category := .security
  line := .int 7
  endLine := .int 7
  confidence := clampConfidence 0.98765

/-- What was left out, given as null or spelled in capitals makes no difference to what is read
back. -/
theorem terse_is_read_back :
    ofDict terse = .ok terseFinding ∧ Texts terse ∧
      ∃ d g, terseFinding.toDict = .ok d ∧ ofDict (.dict d) = .ok g ∧ g.toDict = .ok d ∧
        g.location = terseFinding.location := by
  have hread : ofDict terse = .ok terseFinding := rfl
  have htexts : Texts terse := by
    intro key hkey v hv
    simp only [List.mem_cons, List.not_mem_nil, or_false] at hkey
    rcases hkey with rfl | rfl | rfl <;> cases hv
    exact ⟨"Weak hash", rfl⟩
  obtain ⟨d, g, id, key, hd, hg, hback, -, -, -, -, -, hplace⟩ :=
    written_is_read_back hread htexts (by decide +kernel) (by decide +kernel)
  exact ⟨hread, htexts, d, g, hd, hg, hback, hplace⟩

end Finding

end PhpAudit
