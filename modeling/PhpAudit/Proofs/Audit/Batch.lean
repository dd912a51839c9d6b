/-
**A batch says what single files say.**

A batch works on many files with one cache between them and on as many workers as there are; what
the cache holds when a file's turn comes depends on all the files before it.  None of this shows in
the reports.  As long as no file takes too long and nobody cancels, the files take a calm course
through the pool; as long as no two contents have one digest, each of them is analyzed as if it were
alone.

Main definitions:

* `Audit.Undisturbed` — files that are worked through in time and without cancellation;
* `Audit.FreshLike` — an audit with the same settings, analyzers and parser, and an empty cache;
* `Audit.SaysAlone` — what an audit says about a file alone, times aside.

Main results:

* `Audit.Undisturbed.calm` — undisturbed files have a calm course;
* `Audit.analyzeFiles_saysAlone` — one after another, each file is reported on as if it were alone;
* `Audit.analyzeBatch_says_what_single_files_say` — **so is each file of a batch**.
-/

import PhpAudit.Proofs.Audit.Timeless
import PhpAudit.Proofs.WorkPool.Calm

set_option autoImplicit false

namespace PhpAudit.Audit

/-! ### Files alone -/

/-- An audit with the settings, the analyzers and the parser of another and an empty cache that can
be used. -/
structure FreshLike (a fresh : Audit) : Prop where
  settings : fresh.settings = a.settings
  analyzers : fresh.roster.list = a.roster.list
  grammar : fresh.cache.grammar = a.cache.grammar
  entries : fresh.cache.entries = []
  cacheFault : fresh.cacheFault = none

/-- A report that, times aside, is what an audit says about a file alone.  Where the audit breaks
down on the file, it is the report of this failure. -/
def SaysAlone (a : Audit) (shelf : Shelf) (path : String) (r : Report) : Prop :=
  match (a.analyzeFile shelf path).1 with
  | .ok alone => r.timeless = alone.timeless
  | .error m => r.timeless = Report.failure path m.message "failed" .null

theorem SaysAlone.timeless_eq {a : Audit} {shelf : Shelf} {path : String} {r r' : Report}
    (h : a.SaysAlone shelf path r) (h' : a.SaysAlone shelf path r') : r.timeless = r'.timeless := by
  unfold SaysAlone at h h'
  split at h
  · rename_i alone halone
    rw [halone] at h'
    exact h.trans h'.symm
  · rename_i m hm
    rw [hm] at h'
    exact h.trans h'.symm

section

variable {settings : Settings} {analyzers : List Analyzer} {g : Grammar} {contents : List String}
  {shelf : Shelf}

theorem FreshLike.equipped {a fresh : Audit} (h : FreshLike a fresh) (contents : List String) :
    fresh.Equipped a.settings a.roster.list a.cache.grammar contents :=
  ⟨h.settings, h.analyzers, h.cacheFault, h.grammar, by simp [h.entries], by simp [h.entries]⟩

/-- A report of one audit is what another, equipped alike, says about the file alone. -/
theorem Equipped.saysAlone {a b : Audit} (ha : a.Equipped settings analyzers g contents)
    (hb : b.Equipped settings analyzers g contents) (hn : TreeCache.NoCollision contents)
    (hans : ∀ an ∈ analyzers, an.DependsOnParse) {path : String}
    (hpath : ∀ content ∈ b.contentsAt shelf path, content ∈ contents) {r : Report}
    (hr : a.SaysAlone shelf path r) : b.SaysAlone shelf path r := by
  have hsame := ha.analyzeFile_timeless hb hn hans shelf hpath
  unfold SaysAlone at hr ⊢
  cases hafile : (a.analyzeFile shelf path).1 with
  | ok alone =>
      cases hbfile : (b.analyzeFile shelf path).1 with
      | ok alone' =>
          rw [hafile, hbfile] at hsame
          rw [hafile] at hr
          exact hr.trans (Except.ok.inj hsame)
      | error m =>
          rw [hafile, hbfile] at hsame
          cases hsame
  | error m =>
      cases hbfile : (b.analyzeFile shelf path).1 with
      | ok alone' =>
          rw [hafile, hbfile] at hsame
          cases hsame
      | error m' =>
          rw [hafile, hbfile] at hsame
          rw [hafile] at hr
          cases hsame
          exact hr

/-! ### A calm course -/

/-- Files that are worked through one after another without a cancellation in front of any, none of
which takes longer than it may.  Analyses from before may end meanwhile. -/
def Undisturbed (shelf : Shelf) (cancellable : Bool) (timeout : Float) : List String → Audit → Prop
  | [], _ => True
  | path :: rest, a =>
    (cancellable && a.cancelled) = false ∧
      ¬timeout < ((a.hear .start).analyzeFile shelf path).2.now - a.now ∧
      Undisturbed shelf cancellable timeout rest ((a.hear .start).analyzeFile shelf path).2

instance decidableUndisturbed (shelf : Shelf) (cancellable : Bool) (timeout : Float) :
    ∀ (paths : List String) (a : Audit), Decidable (Undisturbed shelf cancellable timeout paths a)
  | [], _ => isTrue trivial
  | path :: rest, a =>
    have := decidableUndisturbed shelf cancellable timeout rest
      ((a.hear .start).analyzeFile shelf path).2
    inferInstanceAs (Decidable (_ ∧ _ ∧ _))

/-- **Undisturbed files have a calm course**, on which each is analyzed by an audit that is equipped
as the first one was. -/
theorem Undisturbed.calm (staff : Staff) {cancellable : Bool} {timeout : Float}
    {paths : List String} {a : Audit} (h : Undisturbed shelf cancellable timeout paths a)
    (ha : a.Equipped settings analyzers g contents) (hlocks : a.roster.locks ≠ 0)
    (hpaths : ∀ path ∈ paths, ∀ content ∈ a.contentsAt shelf path, content ∈ contents) :
    ∃ course last,
      WorkPool.Calm (surroundings shelf staff cancellable timeout) (some timeout) a course last ∧
      course.map Prod.fst = paths ∧
      ∀ e ∈ course, ∃ b : Audit, b.Equipped settings analyzers g contents ∧
        e.2 = (b.analyzeFile shelf e.1).1.mapError Misuse.message := by
  induction paths generalizing a with
  | nil => exact ⟨[], a, .nil a, rfl, List.forall_mem_nil _⟩
  | cons path paths ih =>
      obtain ⟨hcancel, htime, hrest⟩ := h
      -- analyses that end change the counts and the ledger only
      have hheard : (a.hear .start).Equipped settings analyzers g contents :=
        ⟨ha.settings, ha.analyzers, ha.cacheFault, ha.cache⟩
      -- the roster is locked, so the analyzers of the next file are those of this one
      obtain ⟨hafter, hroster⟩ := hheard.analyzeFile (Or.inl hlocks) shelf
        (hpaths path List.mem_cons_self)
      obtain ⟨course, last, hcalm, hkeys, hcourse⟩ := ih hrest hafter (by rwa [hroster])
        fun path' hpath' => by
          rw [contentsAt_congr (hafter.settings.trans ha.settings.symm)]
          exact hpaths path' (List.mem_cons_of_mem _ hpath')
      refine ⟨(path, ((a.hear .start).analyzeFile shelf path).1.mapError Misuse.message) :: course,
        last, .cons hcancel rfl ?_ hcalm, by rw [List.map_cons, hkeys], ?_⟩
      · intro most hmost
        cases hmost
        exact decide_eq_false htime
      · intro e he
        rcases List.mem_cons.1 he with rfl | he
        · exact ⟨_, hheard, rfl⟩
        · exact hcourse e he

/-- What a result tells about a file is reported. -/
theorem saysAlone_reportOf {a : Audit} {r : WorkPool.Result String Report Float}
    {e : String × Except String Report} (h : r.Tells e)
    (he : e.2 = (a.analyzeFile shelf e.1).1.mapError Misuse.message) :
    a.SaysAlone shelf e.1 (reportOf r) := by
  unfold SaysAlone reportOf WorkPool.Result.succeeded
  cases hfile : (a.analyzeFile shelf e.1).1 with
  | ok alone =>
      rw [hfile] at he
      obtain ⟨hstatus, hvalue⟩ := h.value alone he
      rw [hstatus, hvalue]
      rfl
  | error m =>
      rw [hfile] at he
      obtain ⟨hstatus, herror⟩ := h.error m.message he
      rw [hstatus, herror, h.key]
      rfl

/-! ### One after another -/

/-- A map lists reports under paths, each of which fits its path. -/
abbrev ListsReports (fits : String → Report → Prop) (paths : List String)
    (reports : Assoc Key Report) : Prop :=
  List.Forall₂ (fun path entry => entry.1 = Key.str path ∧ fits path entry.2) paths reports

/-- A report that is written last joins the others, unless its path is there already. -/
theorem ListsReports.put {fits : String → Report → Prop} {paths : List String}
    {reports : Assoc Key Report} (h : ListsReports fits paths reports) {path : String} {r : Report}
    (hr : fits path r) :
    ListsReports fits (if path ∈ paths then paths else paths ++ [path])
      (Assoc.put reports (.str path) r) := by
  induction h with
  | nil => exact List.Forall₂.cons ⟨rfl, hr⟩ .nil
  | cons hentry hrest ih =>
      rename_i first entry others entries
      obtain ⟨key, report⟩ := entry
      obtain ⟨rfl, hfirst⟩ := hentry
      have hkey : (Key.str first == Key.str path) = (first == path) := rfl
      simp only [Assoc.put, hkey]
      by_cases hsame : first = path
      · subst hsame
        simp only [beq_self_eq_true, if_true, List.mem_cons_self]
        exact List.Forall₂.cons ⟨rfl, hr⟩ hrest
      · have hother : (first == path) = false := by simpa using hsame
        simp only [hother, Bool.false_eq_true, if_false]
        by_cases hmem : path ∈ others
        · rw [if_pos hmem] at ih
          rw [if_pos (List.mem_cons_of_mem _ hmem)]
          exact List.Forall₂.cons ⟨rfl, hfirst⟩ ih
        · rw [if_neg hmem] at ih
          rw [if_neg (by simp [hmem, Ne.symm hsame])]
          exact List.Forall₂.cons ⟨rfl, hfirst⟩ ih

/-- Two maps that list what one audit says about files alone say the same, times aside. -/
theorem ListsReports.timeless_eq {a : Audit} {paths : List String} {xs ys : Assoc Key Report}
    (hx : ListsReports (a.SaysAlone shelf) paths xs)
    (hy : ListsReports (a.SaysAlone shelf) paths ys) :
    List.Forall₂ (fun x y => x.1 = y.1 ∧ x.2.timeless = y.2.timeless) xs ys := by
  induction hx generalizing ys with
  | nil =>
      cases hy
      exact .nil
  | cons hentry _ ih =>
      cases hy with
      | cons hentry' hrest' =>
          exact List.Forall₂.cons
            ⟨hentry.1.trans hentry'.1.symm, hentry.2.timeless_eq hentry'.2⟩ (ih hrest')

/-- One more path is a new one or not. -/
theorem eraseDups_concat (paths : List String) (path : String) :
    (paths ++ [path]).eraseDups =
      if path ∈ paths.eraseDups then paths.eraseDups else paths.eraseDups ++ [path] := by
  rw [List.eraseDups_append]
  by_cases hmem : path ∈ paths
  · simp [List.removeAll, hmem]
  · simp [List.removeAll, hmem, List.eraseDups_cons]

/-- **One after another, each file is reported on as if it were alone.**  The reports stand in the
order in which their paths come first. -/
theorem analyzeFiles_saysAlone {fresh : Audit}
    (hfresh : fresh.Equipped settings analyzers g contents)
    (hn : TreeCache.NoCollision contents) (hans : ∀ an ∈ analyzers, an.DependsOnParse)
    (hnobody : ∀ an ∈ analyzers, an.BringsNobody) {paths : List String}
    (hpaths : ∀ path ∈ paths, ∀ content ∈ fresh.contentsAt shelf path, content ∈ contents)
    (hok : ∀ path ∈ paths, ∃ r, (fresh.analyzeFile shelf path).1 = .ok r) {before : List String}
    {done : Batch} (hdone : ListsReports (fresh.SaysAlone shelf) before.eraseDups done.reports)
    {a : Audit} (ha : a.Equipped settings analyzers g contents) :
    ∃ all, (analyzeFiles shelf paths done a).1 = .ok all ∧
      ListsReports (fresh.SaysAlone shelf) (before ++ paths).eraseDups all.reports := by
  induction paths generalizing before done a with
  | nil => exact ⟨done, rfl, by rwa [List.append_nil]⟩
  | cons path paths ih =>
      have hpath := hpaths path List.mem_cons_self
      obtain ⟨alone, halone⟩ := hok path List.mem_cons_self
      have hsame := ha.analyzeFile_timeless hfresh hn hans shelf hpath
      have hcontents := contentsAt_congr (ha.settings.trans hfresh.settings.symm) shelf
      have hafter := (ha.analyzeFile (Or.inr hnobody) shelf (by rwa [hcontents])).1
      cases hfile : a.analyzeFile shelf path with
      | mk answer b =>
          rw [hfile] at hsame hafter
          cases answer with
          | error m =>
              -- alone the file has a report, so it has one here
              rw [halone] at hsame
              cases hsame
          | ok r =>
              rw [halone] at hsame
              have hsays : fresh.SaysAlone shelf path r := by
                unfold SaysAlone
                rw [halone]
                exact Except.ok.inj hsame
              have hput : ListsReports (fresh.SaysAlone shelf) (before ++ [path]).eraseDups
                  ({ reports := Assoc.put done.reports (.str path) r } : Batch).reports := by
                rw [eraseDups_concat]
                exact hdone.put hsays
              obtain ⟨all, hall, hlists⟩ := ih
                (fun path' hpath' => hpaths path' (List.mem_cons_of_mem _ hpath'))
                (fun path' hpath' => hok path' (List.mem_cons_of_mem _ hpath')) hput hafter
              refine ⟨all, ?_, by rwa [List.append_assoc] at hlists⟩
              simp only [analyzeFiles, hfile]
              exact hall

/-! ### On workers -/

/-- A batch is a run of the pool. -/
theorem analyzeBatch_eq {a : Audit} {workers : Value} {timeout : Float}
    (hworkers : a.settings.workerCount = .ok workers)
    (htimeout : a.settings.perFileTimeout = .ok timeout) (shelf : Shelf) (paths : List String)
    (cancellable : Bool) (staff : Staff) (pace : Pace) :
    a.analyzeBatch shelf paths cancellable staff pace =
      .ok ((WorkPool.run (surroundings shelf staff cancellable timeout pace)
        { workers := workers.int?.getD 0, timeout := some timeout }
        (paths.eraseDups.length * 2 + pace.rounds) paths.eraseDups
        { a with roster := a.roster.lock }).map conclude) := by
  unfold analyzeBatch
  rw [hworkers, htimeout]
  rfl

theorem surroundings_prompt (shelf : Shelf) (staff : Staff) (cancellable : Bool) (timeout : Float)
    {pace : Pace} (h : ∀ path, pace.stay path = none) :
    (surroundings shelf staff cancellable timeout pace).Prompt := by
  intro path a
  simp only [surroundings, call, h path]
  rfl

theorem workers_le_staff {plan : WorkPool.Plan Float} (h : plan.staff = plan.workers * 2)
    (hpos : 0 < plan.workers) : plan.workers ≤ plan.staff := by
  omega

/-- A calm batch returns, and reports what its course tells. -/
theorem analyzeBatch_calm {a : Audit} {paths : List String} {cancellable : Bool} {staff : Staff}
    {workers : Value} {timeout : Float} (hworkers : a.settings.workerCount = .ok workers)
    (htimeout : a.settings.perFileTimeout = .ok timeout)
    {course : List (String × Except String Report)} {last : Audit}
    (hcalm : WorkPool.Calm (surroundings shelf staff cancellable timeout) (some timeout)
      { a with roster := a.roster.lock } course last)
    (hkeys : course.map Prod.fst = paths.eraseDups) :
    ∃ results later, List.Forall₂ WorkPool.Result.Tells results course ∧
      a.analyzeBatch shelf paths cancellable staff =
        .ok (some ({ reports := results.map fun r => (Key.str r.key, reportOf r) }, later)) := by
  have hdistinct : WorkPool.Distinct (course.map Prod.fst) := by
    rw [hkeys]
    exact WorkPool.distinct_eraseDups paths
  have hbound : course.length * 2 ≤ paths.eraseDups.length * 2 + 0 := by
    rw [← hkeys, List.length_map]
    exact Nat.le_add_right _ _
  let plan : WorkPool.Plan Float := { workers := workers.int?.getD 0, timeout := some timeout }
  obtain ⟨fin, hfin, htells⟩ :=
    WorkPool.run_calm (surroundings_prompt shelf staff cancellable timeout fun _ => rfl)
      (show plan.retries = 0 from rfl) (workers_le_staff rfl) hcalm hdistinct hbound
  rw [hkeys] at hfin
  exact ⟨fin.results, _, htells, by
    rw [analyzeBatch_eq hworkers htimeout, hfin]
    rfl⟩

/-- A batch lists the paths of its course, each with the report of its result. -/
theorem listsReports_of_tells {course : List (String × Except String Report)}
    {results : List (WorkPool.Result String Report Float)} {fits : String → Report → Prop}
    (h : List.Forall₂ WorkPool.Result.Tells results course)
    (hfits : ∀ r, ∀ e ∈ course, r.Tells e → fits e.1 (reportOf r)) :
    ListsReports fits (course.map Prod.fst)
      (results.map fun r => (Key.str r.key, reportOf r)) := by
  induction h with
  | nil => exact .nil
  | cons htells _ ih =>
      exact List.Forall₂.cons
        ⟨congrArg Key.str htells.key, hfits _ _ List.mem_cons_self htells⟩
        (ih fun r e he => hfits r e (List.mem_cons_of_mem _ he))

end

/-- **A batch says what single files say.**  The audit may have any cache that a history leads to
and any analyzers whose answers come from the parsed file; there may be any number of workers, and
any of their groups may fail to be made and any call to be handed over.  If no file takes longer
than it may and no cancellation comes in front of one, and no two of the contents that occur have
one digest, then the batch returns one report for each distinct path, in the order in which the
paths come first.  Times aside, each is the report that a fresh audit gives about the file alone, or
tells why it gives none; where a fresh audit gives one for every file and no analyzer brings in
others, the reports are also those that it gives for the files one after another. -/
theorem analyzeBatch_says_what_single_files_say (a : Audit) (shelf : Shelf) (paths : List String)
    (cancellable : Bool) (staff : Staff) (contents : List String) (workers : Value)
    (timeout : Float) (hcache : a.cache.Reachable contents) (hfault : a.cacheFault = none)
    (hlocks : 0 ≤ a.roster.locks) (hworkers : a.settings.workerCount = .ok workers)
    (htimeout : a.settings.perFileTimeout = .ok timeout)
    (hans : ∀ an ∈ a.roster.list, an.DependsOnParse)
    (hn : TreeCache.NoCollision (contents ++ paths.flatMap (a.contentsAt shelf)))
    (hcalm : Undisturbed shelf cancellable timeout paths.eraseDups
      { a with roster := a.roster.lock }) :
    ∃ batch later, a.analyzeBatch shelf paths cancellable staff = .ok (some (batch, later)) ∧
      ∀ fresh, FreshLike a fresh →
        ListsReports (fresh.SaysAlone shelf) paths.eraseDups batch.reports ∧
        ((∀ an ∈ a.roster.list, an.BringsNobody) →
          (∀ path ∈ paths, ∃ r, (fresh.analyzeFile shelf path).1 = .ok r) →
          ∃ all, (analyzeFiles shelf paths {} fresh).1 = .ok all ∧
            List.Forall₂ (fun x y => x.1 = y.1 ∧ x.2.timeless = y.2.timeless) batch.reports
              all.reports) := by
  -- whatever is in the cache at any time during the batch has one of these contents
  let known := contents ++ paths.flatMap (a.contentsAt shelf)
  have hfaithful : a.cache.Faithful a.cache.grammar known :=
    hcache.faithful.mono fun _ h => List.mem_append_left _ h
  have hpaths : ∀ path ∈ paths, ∀ content ∈ a.contentsAt shelf path, content ∈ known :=
    fun path hpath _ h => List.mem_append_right _ (List.mem_flatMap.2 ⟨path, hpath, h⟩)
  have hlocked : Equipped a.settings a.roster.list a.cache.grammar known
      { a with roster := a.roster.lock } := ⟨rfl, rfl, hfault, hfaithful⟩
  have hlocks' : a.roster.lock.locks ≠ 0 := by
    show a.roster.locks + 1 ≠ 0
    omega
  obtain ⟨course, last, hcourse, hkeys, halone⟩ := hcalm.calm staff hlocked hlocks'
    fun path hpath => hpaths path (List.mem_eraseDups.1 hpath)
  obtain ⟨results, later, htells, hbatch⟩ := analyzeBatch_calm hworkers htimeout hcourse hkeys
  refine ⟨_, later, hbatch, ?_⟩
  intro fresh hfresh
  have hequipped := hfresh.equipped known
  rw [← contentsAt_congr hfresh.settings] at hpaths
  have hlists : ListsReports (fresh.SaysAlone shelf) paths.eraseDups
      (results.map fun r => (Key.str r.key, reportOf r)) := by
    rw [← hkeys]
    refine listsReports_of_tells htells ?_
    intro r e he hr
    obtain ⟨b, hb, hbe⟩ := halone e he
    have hpath : e.1 ∈ paths := by
      rw [← List.mem_eraseDups, ← hkeys]
      exact List.mem_map_of_mem he
    exact hb.saysAlone hequipped hn hans (hpaths e.1 hpath) (saysAlone_reportOf hr hbe)
  refine ⟨hlists, ?_⟩
  intro hnobody hok
  have hnone : ListsReports (fresh.SaysAlone shelf) ([] : List String).eraseDups
      ({} : Batch).reports := .nil
  obtain ⟨all, hall, hlists'⟩ :=
    analyzeFiles_saysAlone hequipped hn hans hnobody hpaths hok hnone hequipped
  exact ⟨all, hall, hlists.timeless_eq hlists'⟩

/-- An analyzer that warns of the length of every file and takes a second for it. -/
def measurer : Analyzer :=
  .foreign "measurer" (.list [.str "php"]) true fun _ file =>
    { answer := .outcome
        { analyzer := .str "measurer", filePath := .str file.path
          warnings := [.nat file.content.length] }
      seconds := 1.0 }

/-- An audit with a cache that has been through stray entries. -/
def measuringAudit : Audit where
  settings := Settings.defaults
  cache :=
    (TreeCache.Session.run { cache := TreeCache.wordCache, now := 0.0 } TreeCache.strayPuts).cache
  roster := { members := [(measurer.name, measurer)] }

/-- Two files. -/
def twoFiles : Shelf where
  disk := { top := .folder [("a.php", .file "one".toUTF8), ("b.php", .file "two words".toUTF8)] }

/-- Workers that take one call and then no more. -/
def oneCall : Staff where
  canSubmit n := decide (n < 2)

/-- A batch with a repeated path, a file that the parser breaks down on, a file that is missing, and
workers that fail: three reports, the same as for single files. -/
theorem measuringAudit_says_what_single_files_say :
    let paths := ["b.php", "none.php", "b.php", "a.php"]
    let fresh : Audit := { measuringAudit with cache := TreeCache.wordCache }
    FreshLike measuringAudit fresh ∧
      Undisturbed twoFiles true 30.0 paths.eraseDups
        { measuringAudit with roster := measuringAudit.roster.lock } ∧
      ∃ batch later all,
        measuringAudit.analyzeBatch twoFiles paths true oneCall = .ok (some (batch, later)) ∧
        batch.reports.length = 3 ∧
        ListsReports (fresh.SaysAlone twoFiles) ["b.php", "none.php", "a.php"] batch.reports ∧
        (analyzeFiles twoFiles paths {} fresh).1 = .ok all ∧
        List.Forall₂ (fun x y => x.1 = y.1 ∧ x.2.timeless = y.2.timeless) batch.reports
          all.reports := by
  intro paths fresh
  have hgrammar : measuringAudit.cache.grammar = TreeCache.wordGrammar :=
    (TreeCache.Session.run_faithful (TreeCache.Session.faithful_start TreeCache.wordCache rfl 0.0 _)
      TreeCache.strayPuts fun _ h => h).cache.grammar
  have hfresh : FreshLike measuringAudit fresh := ⟨rfl, rfl, hgrammar.symm, rfl, rfl⟩
  have hcache : measuringAudit.cache.Reachable (TreeCache.strayPuts.flatMap TreeCache.Op.brings) :=
    ⟨TreeCache.wordCache, 0.0, TreeCache.strayPuts, rfl, fun _ h => h, rfl⟩
  have hans : ∀ an ∈ measuringAudit.roster.list, an.DependsOnParse := by
    intro an han
    rw [List.mem_singleton.1 han]
    intro locked locked' f g h
    simp only [measurer, Analyzer.react, h.path, h.content]
  have hcalm : Undisturbed twoFiles true 30.0 paths.eraseDups
      { measuringAudit with roster := measuringAudit.roster.lock } := by decide +kernel
  have hn : TreeCache.NoCollision (TreeCache.strayPuts.flatMap TreeCache.Op.brings ++
      paths.flatMap (measuringAudit.contentsAt twoFiles)) := by decide +kernel
  have hnobody : ∀ an ∈ measuringAudit.roster.list, an.BringsNobody := by
    intro an han
    rw [List.mem_singleton.1 han]
    exact fun _ _ => rfl
  have hsome : ∀ path ∈ paths, (fresh.analyzeFile twoFiles path).1.toOption.isSome = true := by
    decide +kernel
  have hok : ∀ path ∈ paths, ∃ r, (fresh.analyzeFile twoFiles path).1 = .ok r := by
    intro path hpath
    have hpath := hsome path hpath
    cases hfile : (fresh.analyzeFile twoFiles path).1 with
    | ok r => exact ⟨r, rfl⟩
    | error m =>
        rw [hfile] at hpath
        cases hpath
  obtain ⟨batch, later, hbatch, hall⟩ := analyzeBatch_says_what_single_files_say measuringAudit
    twoFiles paths true oneCall _ (.int 4) 30.0 hcache rfl (by decide) rfl rfl hans hn hcalm
  obtain ⟨hlists, hfiles⟩ := hall fresh hfresh
  obtain ⟨all, hfiles, hsame⟩ := hfiles hnobody hok
  have hpaths : paths.eraseDups = ["b.php", "none.php", "a.php"] := by decide
  rw [hpaths] at hlists
  exact ⟨hfresh, hcalm, batch, later, all, hbatch, hlists.length_eq.symm, hlists, hfiles, hsame⟩

end PhpAudit.Audit
