/-
**What a cache of parsed files holds after any history.**

Files enter a cache in two ways: a parse stores what it has just made, and a caller stores a file
that the cache has handed out before, under whatever path and digest the caller likes.  So a key
says nothing about the file that is stored under it.  What can be relied on is a property of the
file alone: its tree and its faults are what the parser makes of its own content.  This module
describes histories and shows that every file in the cache, and every file that was ever handed out,
is genuine in this sense.

Main definitions:

* `SourceFile.Genuine` — a file that holds what a parse of its content gives;
* `TreeCache.Faithful` — a cache whose files are genuine, with contents from a given list;
* `TreeCache.Op`, `TreeCache.Session` — what can be done with a cache, and the cache with its clock
  and the files that it has handed out;
* `TreeCache.Session.run`, `TreeCache.Reachable` — a whole history, and what it leads to.

Main results:

* `TreeCache.get_cases`, `TreeCache.parse_cases` — what a lookup and a parse can do;
* `TreeCache.Session.step_faithful`, `TreeCache.Session.run_faithful` — **genuine files stay
  genuine**, through one step and through a whole history.
-/

import PhpAudit.Proofs.Assoc
import PhpAudit.TreeCache.Parse

set_option autoImplicit false

namespace PhpAudit

variable {τ : Type}

namespace TreeCache

/-! ### What a lookup, a store and a parse can do -/

/-- A lookup finds nothing, an entry that is too old, an entry that does not belong to its key, or a
file of the path and the digest. -/
theorem get_cases [Timeline τ] (c : TreeCache τ) (now : τ) (path digest : String) :
    (Assoc.get? c.entries (key path digest) = none ∧ c.get now path digest =
        (.miss, { c with counts := { c.counts with misses := c.counts.misses + 1 } })) ∨
    (∃ e, Assoc.get? c.entries (key path digest) = some e ∧ c.expired now e = true ∧
      c.get now path digest =
        (.miss, { c with entries := Assoc.erase c.entries (key path digest)
                         counts := { c.counts with misses := c.counts.misses + 1 } })) ∨
    (∃ e, Assoc.get? c.entries (key path digest) = some e ∧ c.expired now e = false ∧
      (e.file.digest ≠ digest ∨ e.file.path ≠ path) ∧ c.get now path digest =
        (.mismatch (key path digest),
          { c with entries := Assoc.erase c.entries (key path digest) })) ∨
    (∃ e, Assoc.get? c.entries (key path digest) = some e ∧ c.expired now e = false ∧
      e.file.digest = digest ∧ e.file.path = path ∧ c.get now path digest =
        (.hit e.file,
          { c with
            entries := Assoc.erase c.entries (key path digest) ++ [(key path digest, e)]
            counts := { c.counts with hits := c.counts.hits + 1 } })) := by
  cases hfound : Assoc.get? c.entries (key path digest) with
  | none =>
      refine Or.inl ⟨rfl, ?_⟩
      simp only [get, hfound]
  | some e =>
      refine Or.inr ?_
      cases hold : c.expired now e with
      | true =>
          refine Or.inl ⟨e, rfl, hold, ?_⟩
          simp only [get, hfound, hold, if_true]
      | false =>
          refine Or.inr ?_
          by_cases hwrong : e.file.digest ≠ digest ∨ e.file.path ≠ path
          · refine Or.inl ⟨e, rfl, hold, hwrong, ?_⟩
            simp only [get, hfound, hold, Bool.false_eq_true, if_false, if_pos hwrong]
          · have hright : e.file.digest = digest ∧ e.file.path = path := by
              simpa only [ne_eq, not_or, Decidable.not_not] using hwrong
            refine Or.inr ⟨e, rfl, hold, hright.1, hright.2, ?_⟩
            simp only [get, hfound, hold, Bool.false_eq_true, if_false, if_neg hwrong]

theorem get_grammar [Timeline τ] (c : TreeCache τ) (now : τ) (path digest : String) :
    (c.get now path digest).2.grammar = c.grammar := by
  obtain ⟨_, h⟩ | ⟨_, _, _, h⟩ | ⟨_, _, _, _, h⟩ | ⟨_, _, _, _, _, h⟩ := c.get_cases now path digest
  all_goals rw [h]

/-- A lookup brings nothing in. -/
theorem mem_of_mem_get [Timeline τ] {c : TreeCache τ} {now : τ} {path digest : String}
    {x : String × Entry τ} (hx : x ∈ (c.get now path digest).2.entries) : x ∈ c.entries := by
  obtain ⟨_, h⟩ | ⟨_, _, _, h⟩ | ⟨_, _, _, _, h⟩ | ⟨e, he, _, _, _, h⟩ :=
    c.get_cases now path digest
  · rwa [h] at hx
  · rw [h] at hx
    exact Assoc.mem_of_mem_erase hx
  · rw [h] at hx
    exact Assoc.mem_of_mem_erase hx
  · rw [h] at hx
    rcases List.mem_append.1 hx with hx | hx
    · exact Assoc.mem_of_mem_erase hx
    · rw [List.mem_singleton.1 hx]
      exact Assoc.mem_of_get? he

/-- What a lookup finds is stored, for the path and the digest that were asked for. -/
theorem hit_of_get [Timeline τ] {c : TreeCache τ} {now : τ} {path digest : String}
    {file : SourceFile} (h : (c.get now path digest).1 = .hit file) :
    (∃ x ∈ c.entries, x.2.file = file) ∧ file.digest = digest ∧ file.path = path := by
  obtain ⟨_, hget⟩ | ⟨_, _, _, hget⟩ | ⟨_, _, _, _, hget⟩ | ⟨e, he, _, hdigest, hpath, hget⟩ :=
    c.get_cases now path digest
  · rw [hget] at h
    exact absurd h (by simp)
  · rw [hget] at h
    exact absurd h (by simp)
  · rw [hget] at h
    exact absurd h (by simp)
  · rw [hget] at h
    have hfile : e.file = file := by simpa using h
    exact ⟨⟨_, Assoc.mem_of_get? he, hfile⟩, hfile ▸ hdigest, hfile ▸ hpath⟩

theorem put_grammar (c : TreeCache τ) (now : τ) (path digest : String) (file : SourceFile) :
    (c.put now path digest file).grammar = c.grammar := by
  simp only [put]
  split <;> rfl

/-- A store brings in the file that is stored, under its key, and nothing else. -/
theorem mem_of_mem_put {c : TreeCache τ} {now : τ} {path digest : String} {file : SourceFile}
    {x : String × Entry τ} (hx : x ∈ (c.put now path digest file).entries) :
    x ∈ c.entries ∨ x = (key path digest, ⟨file, now⟩) := by
  have hstored : x ∈ Assoc.erase c.entries (key path digest) ++
      [(key path digest, (⟨file, now⟩ : Entry τ))] := by
    simp only [put] at hx
    split at hx
    · exact List.mem_of_mem_drop hx
    · exact hx
  rcases List.mem_append.1 hstored with hx | hx
  · exact Or.inl (Assoc.mem_of_mem_erase hx)
  · exact Or.inr (List.mem_singleton.1 hx)

theorem parseAndStore_file (c : TreeCache τ) (now : τ) (path content encoding : String) :
    (c.parseAndStore now path content encoding).1 = (c.parseDirect path content encoding).1 :=
  rfl

theorem parseAndStore_grammar (c : TreeCache τ) (now : τ) (path content encoding : String) :
    (c.parseAndStore now path content encoding).2.grammar = c.grammar := by
  simp only [parseAndStore]
  split
  · rfl
  · exact put_grammar _ _ _ _ _

theorem mem_of_mem_parseAndStore {c : TreeCache τ} {now : τ} {path content encoding : String}
    {x : String × Entry τ} (hx : x ∈ (c.parseAndStore now path content encoding).2.entries) :
    x ∈ c.entries ∨
      x = (key path (digest content), ⟨(c.parseDirect path content encoding).1, now⟩) := by
  simp only [parseAndStore] at hx
  split at hx
  · exact Or.inl hx
  · have hput := mem_of_mem_put hx
    exact hput

/-- **A parse is served from an entry of the same path and digest, or it is a direct parse**, which
may then be stored. -/
theorem parse_cases [Timeline τ] (c : TreeCache τ) (now : τ) (path content encoding : String) :
    (∃ x ∈ c.entries, x.2.file.digest = digest content ∧ x.2.file.path = path ∧
      (c.parse now path content encoding).1 = { x.2.file with fromCache := true } ∧
      (c.parse now path content encoding).2 = (c.get now path (digest content)).2) ∨
    (∃ c' : TreeCache τ, c'.grammar = c.grammar ∧ (∀ x ∈ c'.entries, x ∈ c.entries) ∧
      c.parse now path content encoding = c'.parseAndStore now path content encoding) := by
  have hgrammar := c.get_grammar now path (digest content)
  have hkept : ∀ x ∈ (c.get now path (digest content)).2.entries, x ∈ c.entries :=
    fun _ hx => mem_of_mem_get hx
  cases hget : c.get now path (digest content) with
  | mk found c' =>
      rw [hget] at hgrammar hkept
      cases found with
      | hit file =>
          have hhit : (c.get now path (digest content)).1 = .hit file := by rw [hget]
          obtain ⟨⟨x, hx, rfl⟩, hdigest, hpath⟩ := hit_of_get hhit
          exact Or.inl ⟨x, hx, hdigest, hpath, by simp only [parse, hget],
            by simp only [parse, hget]⟩
      | miss => exact Or.inr ⟨c', hgrammar, hkept, by simp only [parse, hget]⟩
      | mismatch k => exact Or.inr ⟨c'.bypass, hgrammar, hkept, by simp only [parse, hget]⟩

end TreeCache

/-! ### Genuine files -/

/-- A file with the digest, the lines, the tree and the faults that its content has. -/
structure SourceFile.Genuine (g : Grammar) (f : SourceFile) : Prop where
  digest : f.digest = TreeCache.digest f.content
  lines : f.lines = Text.lines f.content
  tree : f.tree = (TreeCache.parseContent g f.content).1
  faults : f.faults = (TreeCache.parseContent g f.content).2.1

namespace TreeCache

theorem parseDirect_genuine (c : TreeCache τ) (path content encoding : String) :
    (c.parseDirect path content encoding).1.Genuine c.grammar :=
  ⟨rfl, rfl, rfl, rfl⟩

/-- A cache for a parser whose files are all genuine and have contents from a list. -/
structure Faithful (g : Grammar) (contents : List String) (c : TreeCache τ) : Prop where
  grammar : c.grammar = g
  genuine : ∀ x ∈ c.entries, x.2.file.Genuine g
  known : ∀ x ∈ c.entries, x.2.file.content ∈ contents

variable {g : Grammar} {contents : List String} {c : TreeCache τ}

/-- Nothing but a genuine file of a known content is new. -/
theorem Faithful.of_subset (h : c.Faithful g contents) {c' : TreeCache τ}
    (hg : c'.grammar = c.grammar) (hsub : ∀ x ∈ c'.entries, x ∈ c.entries ∨
      x.2.file.Genuine g ∧ x.2.file.content ∈ contents) : c'.Faithful g contents := by
  refine ⟨hg.trans h.grammar, ?_, ?_⟩
  · intro x hx
    rcases hsub x hx with hold | hnew
    · exact h.genuine x hold
    · exact hnew.1
  · intro x hx
    rcases hsub x hx with hold | hnew
    · exact h.known x hold
    · exact hnew.2

theorem Faithful.get [Timeline τ] (h : c.Faithful g contents) (now : τ) (path digest : String) :
    (c.get now path digest).2.Faithful g contents :=
  h.of_subset (c.get_grammar now path digest) fun _ hx => Or.inl (mem_of_mem_get hx)

theorem Faithful.put (h : c.Faithful g contents) {file : SourceFile} (hfile : file.Genuine g)
    (hknown : file.content ∈ contents) (now : τ) (path digest : String) :
    (c.put now path digest file).Faithful g contents := by
  refine h.of_subset (c.put_grammar now path digest file) ?_
  intro x hx
  rcases mem_of_mem_put hx with hold | hnew
  · exact Or.inl hold
  · exact Or.inr (hnew ▸ ⟨hfile, hknown⟩)

theorem Faithful.invalidate (h : c.Faithful g contents) (path : String) :
    (c.invalidate path).2.Faithful g contents :=
  h.of_subset rfl fun _ hx => Or.inl (List.mem_filter.1 hx).1

theorem Faithful.clear (h : c.Faithful g contents) : c.clear.Faithful g contents :=
  h.of_subset rfl fun _ hx => absurd hx (by simp [TreeCache.clear])

theorem Faithful.mono (h : c.Faithful g contents) {contents' : List String}
    (hsub : ∀ content ∈ contents, content ∈ contents') : c.Faithful g contents' :=
  ⟨h.grammar, h.genuine, fun x hx => hsub _ (h.known x hx)⟩

/-- A parse keeps a cache faithful, and what it returns is genuine and of a known content. -/
theorem Faithful.parse [Timeline τ] (h : c.Faithful g contents) {content : String}
    (hc : content ∈ contents) (now : τ) (path encoding : String) :
    (c.parse now path content encoding).2.Faithful g contents ∧
      (c.parse now path content encoding).1.Genuine g ∧
      (c.parse now path content encoding).1.content ∈ contents := by
  obtain ⟨x, hx, _, _, hfile, hcache⟩ | ⟨c', hg, hsub, hparse⟩ :=
    c.parse_cases now path content encoding
  · rw [hfile, hcache]
    have hgenuine := h.genuine x hx
    exact ⟨h.get now path _, ⟨hgenuine.digest, hgenuine.lines, hgenuine.tree, hgenuine.faults⟩,
      h.known x hx⟩
  · have hdirect : (c'.parseDirect path content encoding).1.Genuine g := by
      have hgenuine := c'.parseDirect_genuine path content encoding
      rwa [hg, h.grammar] at hgenuine
    rw [hparse, parseAndStore_file]
    refine ⟨h.of_subset ((c'.parseAndStore_grammar now path content encoding).trans hg) ?_, hdirect,
      hc⟩
    intro x hx
    rcases mem_of_mem_parseAndStore hx with hold | hnew
    · exact Or.inl (hsub x hold)
    · exact Or.inr (hnew ▸ ⟨hdirect, hc⟩)

/-! ### Histories -/

/-- What can be done with a cache.  A file that is stored is named by its place among those that the
cache has handed out; the path and the digest under which it is stored are free. -/
inductive Op (τ : Type) where
  | parse (path content encoding : String)
  | parseDirect (path content encoding : String)
  | get (path digest : String)
  | put (path digest : String) (which : Nat)
  | invalidate (path : String)
  | clear
  | advance (time : τ)

/-- The contents that a step brings in. -/
def Op.brings : Op τ → List String
  | parse _ content _ => [content]
  | parseDirect _ content _ => [content]
  | _ => []

/-- A cache, the moment on its clock, and the files that it has handed out. -/
structure Session (τ : Type) where
  cache : TreeCache τ
  now : τ
  produced : List SourceFile := []

namespace Session

/-- One step.  A store that fails changes nothing. -/
def step [Timeline τ] (s : Session τ) : Op τ → Session τ
  | .parse path content encoding =>
    let r := s.cache.parse s.now path content encoding
    { s with cache := r.2, produced := s.produced ++ [r.1] }
  | .parseDirect path content encoding =>
    let r := s.cache.parseDirect path content encoding
    { s with cache := r.2, produced := s.produced ++ [r.1] }
  | .get path digest =>
    let r := s.cache.get s.now path digest
    match r.1 with
    | .hit file => { s with cache := r.2, produced := s.produced ++ [file] }
    | _ => { s with cache := r.2 }
  | .put path digest which =>
    match s.produced[which]? with
    | some file =>
      if s.cache.storeFails then s else { s with cache := s.cache.put s.now path digest file }
    | none => s
  | .invalidate path => { s with cache := (s.cache.invalidate path).2 }
  | .clear => { s with cache := s.cache.clear }
  | .advance time => { s with now := Timeline.add s.now time }

/-- A whole history. -/
def run [Timeline τ] (s : Session τ) (ops : List (Op τ)) : Session τ :=
  ops.foldl step s

/-- The cache is faithful, and so is everything that it has handed out. -/
structure Faithful (g : Grammar) (contents : List String) (s : Session τ) : Prop where
  cache : s.cache.Faithful g contents
  genuine : ∀ f ∈ s.produced, f.Genuine g
  known : ∀ f ∈ s.produced, f.content ∈ contents

/-- Another cache is faithful, and one more file is handed out. -/
theorem Faithful.hand_out {s : Session τ} (h : s.Faithful g contents) {c : TreeCache τ}
    (hcache : c.Faithful g contents) {file : SourceFile} (hfile : file.Genuine g)
    (hknown : file.content ∈ contents) :
    Faithful g contents { s with cache := c, produced := s.produced ++ [file] } := by
  refine ⟨hcache, ?_, ?_⟩
  · intro f hf
    rcases List.mem_append.1 hf with hf | hf
    · exact h.genuine f hf
    · rw [List.mem_singleton.1 hf]
      exact hfile
  · intro f hf
    rcases List.mem_append.1 hf with hf | hf
    · exact h.known f hf
    · rw [List.mem_singleton.1 hf]
      exact hknown

/-- **A step keeps files genuine**, one case for each kind of step. -/
theorem step_faithful [Timeline τ] {s : Session τ} (h : s.Faithful g contents) (op : Op τ)
    (hop : ∀ content ∈ op.brings, content ∈ contents) : (s.step op).Faithful g contents := by
  cases op with
  | parse path content encoding =>
      obtain ⟨hcache, hfile, hknown⟩ :=
        h.cache.parse (hop content List.mem_cons_self) s.now path encoding
      exact h.hand_out hcache hfile hknown
  | parseDirect path content encoding =>
      have hfile := s.cache.parseDirect_genuine path content encoding
      rw [h.cache.grammar] at hfile
      have hcache : (s.cache.parseDirect path content encoding).2.Faithful g contents :=
        h.cache.of_subset rfl fun _ hx => Or.inl hx
      exact h.hand_out hcache hfile (hop content List.mem_cons_self)
  | get path digest =>
      have hcache := h.cache.get s.now path digest
      simp only [step]
      split
      · rename_i file hhit
        obtain ⟨⟨x, hx, rfl⟩, _, _⟩ := hit_of_get hhit
        exact h.hand_out hcache (h.cache.genuine x hx) (h.cache.known x hx)
      · exact ⟨hcache, h.genuine, h.known⟩
  | put path digest which =>
      simp only [step]
      split
      · rename_i file hfile
        split
        · exact h
        · have hmem := List.mem_of_getElem? hfile
          exact ⟨h.cache.put (h.genuine file hmem) (h.known file hmem) s.now path digest, h.genuine,
            h.known⟩
      · exact h
  | invalidate path => exact ⟨h.cache.invalidate path, h.genuine, h.known⟩
  | clear => exact ⟨h.cache.clear, h.genuine, h.known⟩
  | advance time => exact ⟨h.cache, h.genuine, h.known⟩

/-- **A history keeps files genuine.** -/
theorem run_faithful [Timeline τ] {s : Session τ} (h : s.Faithful g contents) (ops : List (Op τ))
    (hops : ∀ content ∈ ops.flatMap Op.brings, content ∈ contents) :
    (s.run ops).Faithful g contents := by
  induction ops generalizing s with
  | nil => exact h
  | cons op ops ih =>
      refine ih (step_faithful h op ?_) ?_
      · intro content hc
        exact hops content (List.mem_flatMap.2 ⟨op, List.mem_cons_self, hc⟩)
      · intro content hc
        obtain ⟨op', hop', hc'⟩ := List.mem_flatMap.1 hc
        exact hops content (List.mem_flatMap.2 ⟨op', List.mem_cons_of_mem _ hop', hc'⟩)

/-- An empty cache that has handed out nothing is faithful for whatever contents come. -/
theorem faithful_start (c : TreeCache τ) (hc : c.entries = []) (now : τ) (contents : List String) :
    Faithful c.grammar contents { cache := c, now } := by
  refine ⟨⟨rfl, ?_, ?_⟩, ?_, ?_⟩
  · simp [hc]
  · simp [hc]
  · simp
  · simp

end Session

/-- A cache that some history of an empty one leads to, with no contents but those of a list. -/
def Reachable [Timeline τ] (contents : List String) (c : TreeCache τ) : Prop :=
  ∃ (empty : TreeCache τ) (start : τ) (ops : List (Op τ)), empty.entries = [] ∧
    (∀ content ∈ ops.flatMap Op.brings, content ∈ contents) ∧
    c = (Session.run { cache := empty, now := start } ops).cache

theorem Reachable.faithful [Timeline τ] (h : c.Reachable contents) :
    c.Faithful c.grammar contents := by
  obtain ⟨empty, start, ops, hempty, hops, rfl⟩ := h
  have hrun := Session.run_faithful (Session.faithful_start empty hempty start contents) ops hops
  rw [hrun.cache.grammar]
  exact hrun.cache

end TreeCache

end PhpAudit
