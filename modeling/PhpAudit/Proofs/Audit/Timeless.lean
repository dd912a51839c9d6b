/-
**What a report depends on, times aside.**

A report tells how long things took, and that is never the same twice.  Everything else in it comes
from the settings, the listed analyzers and the parsed file, provided that the answer of an analyzer
comes from the parsed file alone.  The file in turn comes from the path, the content and the parser,
whether the cache was asked or not.  So two audits with the same settings, the same analyzers and
the same parser say the same about a file, whatever either has been through.

Main definitions:

* `Outcome.timeless`, `Report.timeless` — an outcome and a report without the times;
* `Analyzer.DependsOnParse` — an analyzer whose answer comes from the parsed file;
* `Audit.Equipped` — an audit with given settings, analyzers and parser, and a cache that has seen
  no contents but given ones.

Main results:

* `Audit.consultAll_timeless`, `Audit.analyzeParsed_timeless` — the same for files that agree;
* `Audit.Equipped.analyzeFile_timeless` — **equipped alike, two audits report alike**;
* `Audit.Equipped.analyzeFile` — and they stay equipped.
-/

import PhpAudit.Audit.Files
import PhpAudit.Proofs.Audit.Consult
import PhpAudit.Proofs.Except
import PhpAudit.Proofs.TreeCache.Transparency

set_option autoImplicit false

namespace PhpAudit

/-! ### Without the times -/

/-- The outcome without the time that it took. -/
def Outcome.timeless (o : Outcome) : Outcome :=
  { o with time := .null }

/-- The answer without the time that an outcome took. -/
def Analyzer.Answer.timeless : Analyzer.Answer → Analyzer.Answer
  | .outcome o => .outcome o.timeless
  | answer => answer

/-- The report without the times that it and its outcomes took. -/
def Report.timeless (r : Report) : Report :=
  { r with outcomes := r.outcomes.map Outcome.timeless, time := .null }

/-- An analyzer whose answer comes from the parsed file, whatever it takes in time. -/
def Analyzer.DependsOnParse (an : Analyzer) : Prop :=
  ∀ locked locked' f g, f.Agrees g →
    (an.react locked f).answer.timeless = (an.react locked' g).answer.timeless

theorem Analyzer.Answer.toOutcome_timeless {x y : Answer} (h : x.timeless = y.timeless) (name : Key)
    (path : String) (t u : Float) :
    (x.toOutcome name path t).timeless = (y.toOutcome name path u).timeless := by
  cases x with
  | outcome o =>
      cases y with
      | outcome o' => exact Answer.outcome.inj h
      | other kind => cases h
      | crash cause message => cases h
  | other kind =>
      cases y with
      | outcome o' => cases h
      | other kind' =>
          cases h
          rfl
      | crash cause message => cases h
  | crash cause message =>
      cases y with
      | outcome o' => cases h
      | other kind => cases h
      | crash cause' message' =>
          cases h
          rfl

/-! ### The analyzers -/

namespace Audit

theorem asks_agrees (a : Audit) (an : Analyzer) {f g : SourceFile} (h : f.Agrees g) :
    a.asks an f = a.asks an g := by
  unfold asks Analyzer.isReady SourceFile.hasErrors SourceFile.extension
  rw [h.faults, h.tree, h.path]

theorem consult_timeless {a b : Audit} {an : Analyzer} (han : an.DependsOnParse)
    {f g : SourceFile} (h : f.Agrees g) :
    (a.consult an f).1.timeless = (b.consult an g).1.timeless := by
  rw [consult_outcome, consult_outcome, h.path]
  exact Analyzer.Answer.toOutcome_timeless (han _ _ f g h) _ _ _ _

/-- With the same settings, analyzers leave the same outcomes about files that agree. -/
theorem consultAll_timeless {f g : SourceFile} (h : f.Agrees g) {ans : List Analyzer}
    (hans : ∀ an ∈ ans, an.DependsOnParse) {a b : Audit} (hs : a.settings = b.settings) :
    (consultAll f ans a).1.map (List.map Outcome.timeless) =
      (consultAll g ans b).1.map (List.map Outcome.timeless) := by
  induction ans generalizing a b with
  | nil => rfl
  | cons an ans ih =>
      have hrest : ∀ an' ∈ ans, an'.DependsOnParse :=
        fun an' han' => hans an' (List.mem_cons_of_mem _ han')
      have hasks : a.asks an f = b.asks an g := (asks_congr hs an f).trans (b.asks_agrees an h)
      cases hwanted : b.asks an g with
      | error m => simp only [consultAll, hasks, hwanted]
      | ok wanted =>
          cases wanted with
          | false =>
              simp only [consultAll, hasks, hwanted]
              exact ih hrest hs
          | true =>
              -- the two audits may differ afterwards, but not in their settings
              have hlater : (a.consult an f).2.settings = (b.consult an g).2.settings :=
                (a.consult_later an f).settings.trans
                  (hs.trans (b.consult_later an g).settings.symm)
              have hfirst := consult_timeless (a := a) (b := b) (hans an List.mem_cons_self) h
              have hothers := ih hrest hlater
              simp only [consultAll, hasks, hwanted]
              rw [map_cons_map, map_cons_map, hfirst, hothers]

end Audit

/-! ### The report -/

theorem Report.allFindings_timeless (path : Value) (outcomes : List Outcome) :
    allFindings path (outcomes.map Outcome.timeless) = allFindings path outcomes := by
  unfold allFindings
  rw [List.flatMap_map]
  rfl

/-- The times have no part in collecting. -/
theorem Report.collect_timeless (path : Value) (outcomes : List Outcome) (parseErrors : List Value)
    (isPartial time : Value) :
    (collect path outcomes parseErrors isPartial time).map Report.timeless =
      collect path (outcomes.map Outcome.timeless) parseErrors isPartial .null := by
  unfold collect
  dsimp only
  rw [allFindings_timeless]
  cases distinct (allFindings path outcomes) with
  | error m => rfl
  | ok kept => rfl

namespace Audit

theorem soundLines?_agrees {f g : SourceFile} (h : f.Agrees g) : soundLines? f = soundLines? g := by
  unfold soundLines? SourceFile.isPartial SourceFile.firstFaultLine?
  rw [h.tree, h.faults]

/-- What is reported about a parsed file, times aside, for given outcomes. -/
def verdict (file : SourceFile) (answers : Except Misuse (List Outcome)) : Report :=
  let faults := file.faults.map fun f => Value.dict f.toDict
  let made : Except Misuse Report := do
    let _ ← soundLines? file
    Report.collect file.path (← answers) faults (.bool file.isPartial) .null
  match made with
  | .ok r => r
  | .error m => .failure file.path ("Analysis error: " ++ m.label) "failed" .null

theorem verdict_agrees {f g : SourceFile} (h : f.Agrees g)
    (answers : Except Misuse (List Outcome)) : verdict f answers = verdict g answers := by
  unfold verdict SourceFile.isPartial
  rw [soundLines?_agrees h, h.path, h.faults, h.tree]

theorem analyzeParsed_verdict (a : Audit) (file : SourceFile) (started : Float) :
    (a.analyzeParsed file started).1.timeless =
      verdict file ((consultAll file a.roster.list a).1.map (List.map Outcome.timeless)) := by
  unfold analyzeParsed verdict
  dsimp only
  cases soundLines? file with
  | error m => rfl
  | ok lines =>
      cases consultAll file a.roster.list a with
      | mk answers b =>
          cases answers with
          | error m => rfl
          | ok outcomes =>
              -- collecting without the times gives the report without the times
              have hcollect := Report.collect_timeless file.path outcomes
                (file.faults.map fun f => Value.dict f.toDict) (.bool file.isPartial)
                (.float (b.now - started))
              simp only [bind, Except.bind, Except.map]
              rw [← hcollect]
              cases Report.collect file.path outcomes (file.faults.map fun f => Value.dict f.toDict)
                (.bool file.isPartial) (.float (b.now - started)) with
              | error m => rfl
              | ok r => rfl

/-- With the same settings and the same analyzers, files that agree get the same report. -/
theorem analyzeParsed_timeless {a b : Audit} (hs : a.settings = b.settings)
    (hlist : a.roster.list = b.roster.list) (hans : ∀ an ∈ b.roster.list, an.DependsOnParse)
    {f g : SourceFile} (h : f.Agrees g) (t u : Float) :
    (a.analyzeParsed f t).1.timeless = (b.analyzeParsed g u).1.timeless := by
  rw [analyzeParsed_verdict, analyzeParsed_verdict, hlist, verdict_agrees h,
    consultAll_timeless h hans hs]

/-- What the analysis of a parsed file makes of an audit: new counts, and what asking the analyzers
has made of it. -/
theorem analyzeParsed_state (a : Audit) (file : SourceFile) (started : Float) :
    ∃ b ledger counts, (b = a ∨ b = (consultAll file a.roster.list a).2) ∧
      (a.analyzeParsed file started).2 = { b with ledger, counts } := by
  unfold analyzeParsed
  split
  · exact ⟨a, a.ledger, a.counts.fail 1, Or.inl rfl, rfl⟩
  · dsimp only
    split
    · exact ⟨_, _, _, Or.inr rfl, rfl⟩
    · exact ⟨_, _, _, Or.inr rfl, rfl⟩

/-! ### Audits that are equipped alike -/

/-- What is read at a path: a content with its encoding, or why there is none. -/
def fetch (a : Audit) (shelf : Shelf) (path : String) : Except Disk.Refusal (String × String) :=
  match a.sizeLimit with
  | .error m => .error (.misuse m)
  | .ok limit => shelf.disk.readSource (Path.ofText path) (.int limit) shelf.guess

/-- The content at a path, if it can be read. -/
def contentsAt (a : Audit) (shelf : Shelf) (path : String) : List String :=
  match a.fetch shelf path with
  | .ok (content, _) => [content]
  | .error _ => []

theorem fetch_congr {a b : Audit} (h : a.settings = b.settings) (shelf : Shelf) (path : String) :
    a.fetch shelf path = b.fetch shelf path := by
  unfold fetch sizeLimit
  rw [h]

theorem contentsAt_congr {a b : Audit} (h : a.settings = b.settings) (shelf : Shelf) :
    a.contentsAt shelf = b.contentsAt shelf := by
  funext path
  unfold contentsAt
  rw [fetch_congr h]

/-- A file is analyzed as what is read at its path. -/
theorem analyzeFile_eq (a : Audit) (shelf : Shelf) (path : String) :
    a.analyzeFile shelf path =
      match a.fetch shelf path with
      | .ok (content, encoding) =>
        (.ok (a.analyzeText path content encoding).1, (a.analyzeText path content encoding).2)
      | .error (.misuse m) => (.error m, a)
      | .error cause => (.ok (a.unreadable path cause).1, (a.unreadable path cause).2) := by
  unfold analyzeFile fetch
  cases a.sizeLimit with
  | error m => rfl
  | ok limit => rfl

/-- An audit with given settings, analyzers and parser, and a cache that can be used and has seen no
contents but given ones. -/
structure Equipped (settings : Settings) (analyzers : List Analyzer) (g : Grammar)
    (contents : List String) (a : Audit) : Prop where
  settings : a.settings = settings
  analyzers : a.roster.list = analyzers
  cacheFault : a.cacheFault = none
  cache : a.cache.Faithful g contents

namespace Equipped

variable {settings : Settings} {analyzers : List Analyzer} {g : Grammar} {contents : List String}
  {a b : Audit}

theorem analyzeText_timeless (ha : a.Equipped settings analyzers g contents)
    (hb : b.Equipped settings analyzers g contents) (hn : TreeCache.NoCollision contents)
    (hans : ∀ an ∈ analyzers, an.DependsOnParse) {content : String} (hc : content ∈ contents)
    (path encoding : String) :
    (a.analyzeText path content encoding).1.timeless =
      (b.analyzeText path content encoding).1.timeless := by
  obtain ⟨_, hfa, _⟩ := ha.cache.parse hc a.now path encoding
  obtain ⟨_, hfb, _⟩ := hb.cache.parse hc b.now path encoding
  obtain ⟨hpa, hca⟩ := ha.cache.parse_content hn hc a.now path encoding
  obtain ⟨hpb, hcb⟩ := hb.cache.parse_content hn hc b.now path encoding
  rw [analyzeText_eq ha.cacheFault, analyzeText_eq hb.cacheFault]
  exact analyzeParsed_timeless
    (a := { a with cache := (a.cache.parse a.now path content encoding).2 })
    (b := { b with cache := (b.cache.parse b.now path content encoding).2 })
    (ha.settings.trans hb.settings.symm) (ha.analyzers.trans hb.analyzers.symm)
    (fun an han => hans an (hb.analyzers ▸ han))
    (hfa.agrees hfb (hpa.trans hpb.symm) (hca.trans hcb.symm)) a.now b.now

/-- **Equipped alike, two audits report alike.** -/
theorem analyzeFile_timeless (ha : a.Equipped settings analyzers g contents)
    (hb : b.Equipped settings analyzers g contents) (hn : TreeCache.NoCollision contents)
    (hans : ∀ an ∈ analyzers, an.DependsOnParse) (shelf : Shelf) {path : String}
    (hpath : ∀ content ∈ b.contentsAt shelf path, content ∈ contents) :
    (a.analyzeFile shelf path).1.map Report.timeless =
      (b.analyzeFile shelf path).1.map Report.timeless := by
  rw [analyzeFile_eq, analyzeFile_eq, fetch_congr (ha.settings.trans hb.settings.symm)]
  unfold contentsAt at hpath
  cases hfetch : b.fetch shelf path with
  | ok source =>
      obtain ⟨content, encoding⟩ := source
      simp only [hfetch, List.mem_singleton, forall_eq] at hpath
      exact congrArg Except.ok (ha.analyzeText_timeless hb hn hans hpath path encoding)
  | error cause =>
      cases cause with
      | misuse m => rfl
      | trouble cause path => rfl
      | tooLarge path size => rfl
      | binary path => rfl

/-- The analysis of a text leaves an audit equipped, unless somebody joins the roster. -/
theorem analyzeText (ha : a.Equipped settings analyzers g contents)
    (hroster : a.roster.locks ≠ 0 ∨ ∀ an ∈ analyzers, an.BringsNobody) {content : String}
    (hc : content ∈ contents) (path encoding : String) :
    (a.analyzeText path content encoding).2.Equipped settings analyzers g contents ∧
      (a.analyzeText path content encoding).2.roster = a.roster := by
  obtain ⟨hcache, _, _⟩ := ha.cache.parse hc a.now path encoding
  rw [analyzeText_eq ha.cacheFault]
  obtain ⟨b, ledger, counts, hb, hstate⟩ := analyzeParsed_state
    { a with cache := (a.cache.parse a.now path content encoding).2 }
    (a.cache.parse a.now path content encoding).1 a.now
  have hlater : Later { a with cache := (a.cache.parse a.now path content encoding).2 } b := by
    rcases hb with rfl | rfl
    · exact Later.refl _
    · exact consultAll_later _ _ _
  have hsame : b.roster = a.roster := by
    -- the analyzers are asked by the audit with its new cache, whose roster is the old one
    rcases hb with rfl | rfl
    · rfl
    · exact consultAll_roster _ _ { a with cache := _ } (by rwa [ha.analyzers])
  rw [hstate]
  refine ⟨⟨hlater.settings.trans ha.settings, ?_, hlater.cacheFault.trans ha.cacheFault, ?_⟩, hsame⟩
  · show b.roster.list = analyzers
    rw [hsame]
    exact ha.analyzers
  · show b.cache.Faithful g contents
    rw [hlater.cache]
    exact hcache

/-- So does the analysis of a file. -/
theorem analyzeFile (ha : a.Equipped settings analyzers g contents)
    (hroster : a.roster.locks ≠ 0 ∨ ∀ an ∈ analyzers, an.BringsNobody) (shelf : Shelf)
    {path : String} (hpath : ∀ content ∈ a.contentsAt shelf path, content ∈ contents) :
    (a.analyzeFile shelf path).2.Equipped settings analyzers g contents ∧
      (a.analyzeFile shelf path).2.roster = a.roster := by
  rw [analyzeFile_eq]
  unfold contentsAt at hpath
  cases hfetch : a.fetch shelf path with
  | ok source =>
      obtain ⟨content, encoding⟩ := source
      simp only [hfetch, List.mem_singleton, forall_eq] at hpath
      exact ha.analyzeText hroster hpath path encoding
  | error cause =>
      have hunread : ∀ cause, (a.unreadable path cause).2.Equipped settings analyzers g contents :=
        fun _ => ⟨ha.settings, ha.analyzers, ha.cacheFault, ha.cache⟩
      cases cause with
      | misuse m => exact ⟨ha, rfl⟩
      | trouble cause place => exact ⟨hunread (.trouble cause place), rfl⟩
      | tooLarge place size => exact ⟨hunread (.tooLarge place size), rfl⟩
      | binary place => exact ⟨hunread (.binary place), rfl⟩

end Equipped

end Audit

end PhpAudit
