/-
Asking the analyzers of an audit.

An analyzer that is asked may move the clock, cancel the run and bring in further analyzers, and
that is all it can do to the audit: settings, cache, counts and the locks of the roster stay, and so
does the roster itself while it is locked.  What an analyzer leaves in the report is therefore a
matter between the analyzer and the file.

Main definitions:

* `Audit.Later` — what an audit may have become by asking analyzers;
* `Audit.wants` — whether an analyzer is asked about a file;
* `Analyzer.Leaves` — what an analyzer may leave in a report.

Main results:

* `Audit.consult_later`, `Audit.consultAll_later` — asking changes no more than that;
* `Audit.consultAll_leaves` — **one outcome for every analyzer that is asked, in order, each
  its own**.
-/

import Mathlib.Data.List.Forall2
import PhpAudit.Audit.Basic

set_option autoImplicit false

namespace PhpAudit

/-- An analyzer that brings in no others. -/
def Analyzer.BringsNobody (an : Analyzer) : Prop :=
  ∀ locked file, (an.react locked file).newcomers = []

namespace Audit

/-! ### What asking changes -/

/-- An audit that differs from an earlier one in the clock, the cancellation and the list of
analyzers only. -/
structure Later (a b : Audit) : Prop where
  settings : b.settings = a.settings
  cache : b.cache = a.cache
  cacheFault : b.cacheFault = a.cacheFault
  ledger : b.ledger = a.ledger
  counts : b.counts = a.counts
  running : b.running = a.running
  locks : b.roster.locks = a.roster.locks

theorem Later.refl (a : Audit) : Later a a :=
  ⟨rfl, rfl, rfl, rfl, rfl, rfl, rfl⟩

theorem Later.trans {a b c : Audit} (hab : Later a b) (hbc : Later b c) : Later a c :=
  ⟨hbc.settings.trans hab.settings, hbc.cache.trans hab.cache,
    hbc.cacheFault.trans hab.cacheFault, hbc.ledger.trans hab.ledger, hbc.counts.trans hab.counts,
    hbc.running.trans hab.running, hbc.locks.trans hab.locks⟩

theorem Later.isLocked {a b : Audit} (h : Later a b) : b.roster.isLocked = a.roster.isLocked := by
  unfold Roster.isLocked
  rw [h.locks]

theorem register_later {a b : Audit} {n : Analyzer} (h : a.register n = .ok b) : Later a b := by
  unfold register Roster.register at h
  split at h
  · cases h
  · cases h
    exact ⟨rfl, rfl, rfl, rfl, rfl, rfl, rfl⟩

theorem welcome_later (a : Audit) (newcomers : List Analyzer) : Later a (a.welcome newcomers) := by
  unfold welcome
  induction newcomers generalizing a with
  | nil => exact Later.refl a
  | cons n newcomers ih =>
      rw [List.foldl_cons]
      split
      · rename_i b hb
        exact (register_later hb).trans (ih b)
      · exact ih a

/-- A locked roster takes nobody in. -/
theorem welcome_of_locked {a : Audit} (h : a.roster.locks ≠ 0) (newcomers : List Analyzer) :
    a.welcome newcomers = a := by
  have hrefused : ∀ n, a.register n = .error .locked := by
    intro n
    unfold register Roster.register
    rw [if_pos h]
    rfl
  unfold welcome
  induction newcomers with
  | nil => rfl
  | cons n newcomers ih => rw [List.foldl_cons, hrefused n, ih]

theorem consult_later (a : Audit) (an : Analyzer) (file : SourceFile) :
    Later a (a.consult an file).2 := by
  -- the clock and the cancellation first, then whoever was brought in
  have h := welcome_later
    { a with
      now := a.now + (an.react a.roster.isLocked file).seconds
      cancelled := a.cancelled || (an.react a.roster.isLocked file).cancels }
    (an.react a.roster.isLocked file).newcomers
  exact ⟨h.settings, h.cache, h.cacheFault, h.ledger, h.counts, h.running, h.locks⟩

/-- **Asking changes the clock, the cancellation and the list of analyzers only.** -/
theorem consultAll_later (file : SourceFile) (ans : List Analyzer) (a : Audit) :
    Later a (consultAll file ans a).2 := by
  induction ans generalizing a with
  | nil => exact Later.refl a
  | cons an ans ih =>
      unfold consultAll
      split
      · exact Later.refl a
      · exact ih a
      · exact (a.consult_later an file).trans (ih _)

/-- Nobody joins the roster while it is locked, nor if nobody is brought in. -/
theorem consultAll_roster (file : SourceFile) (ans : List Analyzer) (a : Audit)
    (h : a.roster.locks ≠ 0 ∨ ∀ an ∈ ans, an.BringsNobody) :
    (consultAll file ans a).2.roster = a.roster := by
  induction ans generalizing a with
  | nil => rfl
  | cons an ans ih =>
      have hrest : a.roster.locks ≠ 0 ∨ ∀ an' ∈ ans, an'.BringsNobody :=
        h.imp_right fun hans an' han' => hans an' (List.mem_cons_of_mem _ han')
      unfold consultAll
      split
      · rfl
      · exact ih a hrest
      · have hconsult : (a.consult an file).2.roster = a.roster := by
          simp only [consult]
          rcases h with hlocked | hnobody
          · rw [welcome_of_locked]
            exact hlocked
          · rw [hnobody an List.mem_cons_self a.roster.isLocked file]
            rfl
        exact (ih _ (by rwa [hconsult])).trans hconsult

/-- Whether an analyzer is asked depends on the settings alone. -/
theorem asks_congr {a b : Audit} (h : b.settings = a.settings) (an : Analyzer)
    (file : SourceFile) : b.asks an file = a.asks an file := by
  unfold asks
  rw [h]

/-- Whether an analyzer is asked about a file, where this can be said. -/
def wants (a : Audit) (file : SourceFile) (an : Analyzer) : Bool :=
  match a.asks an file with
  | .ok wanted => wanted
  | .error _ => false

theorem wants_congr {a b : Audit} (h : b.settings = a.settings) (file : SourceFile) :
    b.wants file = a.wants file := by
  funext an
  unfold wants
  rw [asks_congr h]

end Audit

/-! ### What an analyzer leaves -/

/-- What an analyzer may leave in the report about a file: its own outcome, or the record that it
answered with something else or broke down.  Only the time in a record is open. -/
inductive Analyzer.Leaves (an : Analyzer) (locked : Bool) (file : SourceFile) : Outcome → Prop
  | own {o : Outcome} (h : (an.react locked file).answer = .outcome o) : Leaves an locked file o
  | other {kind : String} (h : (an.react locked file).answer = .other kind) (time : Float) :
      Leaves an locked file
        (.failure (.ofKey an.name) file.path
          (failureText an.name ("returned " ++ kind ++ ", expected AnalyzerResult")) (.float time))
  | crash {cause message : String} (h : (an.react locked file).answer = .crash cause message)
      (time : Float) :
      Leaves an locked file
        (.failure (.ofKey an.name) file.path (failureText an.name (cause ++ ": " ++ message))
          (.float time))

namespace Audit

theorem consult_outcome (a : Audit) (an : Analyzer) (file : SourceFile) :
    (a.consult an file).1 = (an.react a.roster.isLocked file).answer.toOutcome an.name file.path
      (a.now + (an.react a.roster.isLocked file).seconds - a.now) :=
  rfl

theorem consult_leaves (a : Audit) (an : Analyzer) (file : SourceFile) :
    an.Leaves a.roster.isLocked file (a.consult an file).1 := by
  rw [consult_outcome]
  cases h : (an.react a.roster.isLocked file).answer with
  | outcome o => exact .own h
  | other kind => exact .other h _
  | crash cause message => exact .crash h _

/-- **One outcome for every analyzer that is asked, in order, each its own.** -/
theorem consultAll_leaves (file : SourceFile) (ans : List Analyzer) (a : Audit)
    (hasks : ∀ an ∈ ans, ∃ wanted, a.asks an file = .ok wanted) :
    ∃ outcomes, (consultAll file ans a).1 = .ok outcomes ∧
      List.Forall₂ (fun an o => an.Leaves a.roster.isLocked file o)
        (ans.filter (a.wants file)) outcomes := by
  induction ans generalizing a with
  | nil => exact ⟨[], rfl, List.Forall₂.nil⟩
  | cons an ans ih =>
      have hrest : ∀ an' ∈ ans, ∃ wanted, a.asks an' file = .ok wanted :=
        fun an' han' => hasks an' (List.mem_cons_of_mem _ han')
      obtain ⟨wanted, hwanted⟩ := hasks an List.mem_cons_self
      cases wanted with
      | false =>
          have hskip : a.wants file an = false := by simp only [wants, hwanted]
          obtain ⟨outcomes, hos, hall⟩ := ih a hrest
          refine ⟨outcomes, ?_, ?_⟩
          · simp only [consultAll, hwanted]
            exact hos
          · rwa [List.filter_cons_of_neg (by simp [hskip])]
      | true =>
          have hask : a.wants file an = true := by simp only [wants, hwanted]
          -- the analyzers that follow meet the same settings and the same locks
          have hlater := a.consult_later an file
          obtain ⟨outcomes, hos, hall⟩ := ih (a.consult an file).2 fun an' han' => by
            rw [asks_congr hlater.settings]
            exact hrest an' han'
          rw [wants_congr hlater.settings, hlater.isLocked] at hall
          refine ⟨(a.consult an file).1 :: outcomes, ?_, ?_⟩
          · simp only [consultAll, hwanted, hos]
            rfl
          · rw [List.filter_cons_of_pos hask]
            exact List.Forall₂.cons (a.consult_leaves an file) hall

/-- With a cache that can be used, a text is parsed through it and the parsed file is analyzed. -/
theorem analyzeText_eq {a : Audit} (h : a.cacheFault = none) (path content encoding : String) :
    a.analyzeText path content encoding =
      ({ a with cache := (a.cache.parse a.now path content encoding).2 } : Audit).analyzeParsed
        (a.cache.parse a.now path content encoding).1 a.now := by
  unfold analyzeText
  rw [h]

end Audit

end PhpAudit
