/-
**A cache of parsed files does not show.**

An entry is found by the text of its key, and a text does not tell where the path ends and the
digest begins; a caller may besides have stored a file under a key that is not its own.  A lookup
therefore looks at the file that it finds, and lets it pass only if it has the path and the digest
that were asked for.  As every file in the cache is genuine, such a file differs from a fresh parse
at most in what does not matter to an analysis, unless two contents have one digest.

Main definitions:

* `TreeCache.NoCollision` — no two contents of a list have one digest;
* `SourceFile.Agrees` — two files that an analysis cannot tell apart.

Main results:

* `TreeCache.Faithful.parse_agrees` — a parse through a faithful cache agrees with a direct one;
* `TreeCache.parse_agrees_after_any_history` — **so does a parse after any history**.
-/

import PhpAudit.Proofs.TreeCache.History

set_option autoImplicit false

namespace PhpAudit

variable {τ : Type}

/-- Two files with the same path, content, digest, lines, tree and faults.  The encoding that the
content was read in, and whether the file comes from a cache, are left open. -/
structure SourceFile.Agrees (f f' : SourceFile) : Prop where
  path : f.path = f'.path
  content : f.content = f'.content
  digest : f.digest = f'.digest
  lines : f.lines = f'.lines
  tree : f.tree = f'.tree
  faults : f.faults = f'.faults

/-- Genuine files are told apart by path and content. -/
theorem SourceFile.Genuine.agrees {g : Grammar} {f f' : SourceFile} (h : f.Genuine g)
    (h' : f'.Genuine g) (hpath : f.path = f'.path) (hcontent : f.content = f'.content) :
    f.Agrees f' := by
  refine ⟨hpath, hcontent, ?_, ?_, ?_, ?_⟩
  · rw [h.digest, h'.digest, hcontent]
  · rw [h.lines, h'.lines, hcontent]
  · rw [h.tree, h'.tree, hcontent]
  · rw [h.faults, h'.faults, hcontent]

namespace TreeCache

/-- No two contents of a list have one digest. -/
def NoCollision (contents : List String) : Prop :=
  ∀ x ∈ contents, ∀ y ∈ contents, digest x = digest y → x = y

instance (contents : List String) : Decidable (NoCollision contents) :=
  inferInstanceAs (Decidable (∀ x ∈ contents, ∀ y ∈ contents, digest x = digest y → x = y))

variable {g : Grammar} {contents : List String} {c : TreeCache τ}

/-- A parse through a faithful cache is about the path and the content that were asked for. -/
theorem Faithful.parse_content [Timeline τ] (h : c.Faithful g contents)
    (hn : NoCollision contents) {content : String} (hc : content ∈ contents) (now : τ)
    (path encoding : String) :
    (c.parse now path content encoding).1.path = path ∧
      (c.parse now path content encoding).1.content = content := by
  obtain ⟨x, hx, hdigest, hpath, hfile, _⟩ | ⟨c', _, _, hparse⟩ :=
    c.parse_cases now path content encoding
  · rw [hfile]
    have hsame : digest x.2.file.content = digest content := by
      rw [← (h.genuine x hx).digest, hdigest]
    exact ⟨hpath, hn _ (h.known x hx) _ hc hsame⟩
  · rw [hparse, parseAndStore_file]
    exact ⟨rfl, rfl⟩

/-- **A parse through a faithful cache agrees with a direct parse.** -/
theorem Faithful.parse_agrees [Timeline τ] (h : c.Faithful g contents) (hn : NoCollision contents)
    {content : String} (hc : content ∈ contents) (now : τ) (path encoding : String)
    (direct : TreeCache τ) (hg : direct.grammar = g) (encoding' : String) :
    (c.parse now path content encoding).1.Agrees (direct.parseDirect path content encoding').1 := by
  obtain ⟨_, hgenuine, _⟩ := h.parse hc now path encoding
  obtain ⟨hpath, hcontent⟩ := h.parse_content hn hc now path encoding
  have hdirect := direct.parseDirect_genuine path content encoding'
  rw [hg] at hdirect
  exact hgenuine.agrees hdirect hpath hcontent

/-- **A parse after any history returns, and agrees with a direct parse.**  The cache starts empty,
with any parser, capacity, batch and life time; the history is any sequence of parses, lookups,
stores of what the cache has handed out under any key, invalidations and moves of the clock.  All
that is assumed is that no two of the contents that occur have one digest. -/
theorem parse_agrees_after_any_history [Timeline τ] (c : TreeCache τ) (hc : c.entries = [])
    (start : τ) (ops : List (Op τ)) (path content encoding : String)
    (hn : NoCollision (content :: ops.flatMap Op.brings)) :
    let s := Session.run { cache := c, now := start } ops
    ∃ file later, s.cache.parse s.now path content encoding = (file, later) ∧
      file.Agrees (c.parseDirect path content encoding).1 := by
  intro s
  have hstart := Session.faithful_start c hc start (content :: ops.flatMap Op.brings)
  have hs : s.Faithful c.grammar (content :: ops.flatMap Op.brings) :=
    Session.run_faithful hstart ops fun _ h => List.mem_cons_of_mem _ h
  exact ⟨_, _, rfl, hs.cache.parse_agrees hn List.mem_cons_self s.now path encoding c rfl encoding⟩

/-- A parser that reads single words and breaks down on anything else. -/
def wordGrammar : Grammar where
  language := "words"
  parse text :=
    if text.toList.contains ' ' then .error (.crashed "ValueError" "more than one word")
    else .ok ({ root := { kind := "word", span := { startLine := 1 }, text }, nodeCount := 1 }, [])

/-- A cache of two files. -/
def wordCache : TreeCache Float :=
  { grammar := wordGrammar, capacity := 2, batch := 1, batchShown := .int 1, ttl := some 60.0 }

/-- A history that stores the parse of one content under the key of another, and under a key of
which the same text stands for other paths and digests. -/
def strayPuts : List (Op Float) :=
  [.parse "a" "one" "utf-8", .put "b" (digest "two words") 0, .advance 5.0, .put "b:c" "d" 0,
   .get "b" "c:d", .parse "b:c" "one" "latin-1", .invalidate "a"]

/-- After stray entries a lookup meets a file that does not belong to its key; the parse is the
right one all the same. -/
theorem parse_agrees_after_strayPuts :
    NoCollision ("two words" :: strayPuts.flatMap Op.brings) ∧
      let s := Session.run { cache := wordCache, now := 0.0 } strayPuts
      (s.cache.parse s.now "b" "two words" "utf-8").2.counts.bypasses = 1 ∧
      ∃ file later, s.cache.parse s.now "b" "two words" "utf-8" = (file, later) ∧
        file.Agrees (wordCache.parseDirect "b" "two words" "utf-8").1 := by
  have hn : NoCollision ("two words" :: strayPuts.flatMap Op.brings) := by decide +kernel
  exact ⟨hn, by decide +kernel,
    parse_agrees_after_any_history wordCache rfl 0.0 strayPuts "b" "two words" "utf-8" hn⟩

end TreeCache

end PhpAudit
