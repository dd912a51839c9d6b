/-
**What a batch adds to the counts.**

The analysis of a file enters it once, as analyzed or as failed, unless the audit breaks down on it;
a batch enters each file once more whose result is not a success.  So every distinct path is entered
once, unless it took too long.  Without workers a file is analyzed to its end, and on workers its
analysis goes on where it was left behind; so a report that came too late is dropped, but is entered
when the analysis ends, during the batch or after it, and the batch enters the path as failed.

Main definitions:

* `Audit.isLate` — a report that says that a file took too long;
* `Audit.Counts.Enters` — counts after some more reports;
* `Audit.underWay`, `Audit.coming` — the analyses that are under way, and their reports;
* `Audit.given`, `Audit.lasting` — the reports of the calls that have ended, and the other calls;
* `Audit.Follows` — an audit after some calls.

Main results:

* `Audit.analyzeFile_entered` — the analysis of a file enters the report that it gives, if any;
* `Audit.way_follows` — so do the calls of a pool, when their analyses end;
* `Audit.analyzeBatch_counts_files` — **a batch enters each distinct path once, and each report that
  came too late once more**.
-/

import PhpAudit.Proofs.Audit.Batch
import PhpAudit.Proofs.WorkPool.Answers
import PhpAudit.Proofs.WorkPool.Termination

set_option autoImplicit false

namespace PhpAudit.Audit

/-! ### One file -/

/-- A report that says that a file took too long. -/
def isLate (r : Report) : Bool :=
  r.status.str? == some "timeout"

/-- The counts of analyzed and of failed files after some more reports. -/
structure Counts.Enters (c : Counts) (reports : List Report) (c' : Counts) : Prop where
  analyzed : c'.analyzed = c.analyzed + reports.countP fun r => !r.failed
  failed : c'.failed = c.failed + reports.countP Report.failed

namespace Counts.Enters

theorem refl (c : Counts) : c.Enters [] c :=
  ⟨rfl, rfl⟩

theorem trans {c c' c'' : Counts} {rs rs' : List Report} (h : c.Enters rs c')
    (h' : c'.Enters rs' c'') : c.Enters (rs ++ rs') c'' := by
  refine ⟨?_, ?_⟩
  · rw [h'.analyzed, h.analyzed, List.countP_append, Nat.add_assoc]
  · rw [h'.failed, h.failed, List.countP_append, Nat.add_assoc]

theorem perm {c c' : Counts} {rs rs' : List Report} (h : c.Enters rs c') (hp : rs.Perm rs') :
    c.Enters rs' c' :=
  ⟨by rw [h.analyzed, hp.countP_eq], by rw [h.failed, hp.countP_eq]⟩

theorem total {c c' : Counts} {rs : List Report} (h : c.Enters rs c') :
    c'.analyzed + c'.failed = c.analyzed + c.failed + rs.length := by
  rw [h.analyzed, h.failed, List.length_eq_countP_add_countP Report.failed]
  simp only [Bool.not_eq_true, Bool.decide_eq_false]
  omega

theorem failure (c : Counts) {r : Report} (h : r.failed = true) : c.Enters [r] (c.fail 1) :=
  ⟨by simp [Counts.fail, h], by simp [Counts.fail, h]⟩

end Counts.Enters

/-- What an analysis enters when it ends. -/
theorem Counts.Enters.take (c : Counts) (e : Entry) : c.Enters e.report.toList (c.take e) := by
  unfold Counts.take
  cases e.report with
  | none => exact .refl c
  | some r =>
      dsimp only
      split
      · rename_i hfailed
        exact .failure c hfailed
      · rename_i hfailed
        exact ⟨by simp [Counts.enter, hfailed], by simp [Counts.enter, hfailed]⟩

/-- The analysis of a file has led from one audit to another with a report: it has entered the
report, and does not say that the file took too long. -/
structure Entered (a : Audit) (r : Report) (b : Audit) : Prop where
  counts : b.counts = a.counts.take (.of a (.ok r) b)
  ledger : b.ledger = (Entry.of a (.ok r) b).record a.ledger
  running : b.running = a.running
  inTime : isLate r = false

theorem analyzeParsed_entered (a : Audit) (file : SourceFile) :
    Entered a (a.analyzeParsed file a.now).1 (a.analyzeParsed file a.now).2 := by
  have hlater := consultAll_later file a.roster.list a
  unfold analyzeParsed
  dsimp only
  cases soundLines? file with
  | error m => exact ⟨rfl, rfl, rfl, rfl⟩
  | ok lines =>
      dsimp only
      generalize consultAll file a.roster.list a = consulted at hlater ⊢
      obtain ⟨answers, b⟩ := consulted
      have hcounts : b.counts = a.counts := hlater.counts
      have hledger : b.ledger = a.ledger := hlater.ledger
      split
      · exact ⟨congrArg (Counts.fail · 1) hcounts, hledger, hlater.running, rfl⟩
      · rename_i r hr
        cases answers with
        | error m => cases hr
        | ok outcomes =>
            -- a report of outcomes is not that of a failure
            have hfields : r.failed = false ∧ isLate r = false := by
              simp only [bind, Except.bind, Report.collect] at hr
              split at hr
              · cases hr
              · cases hr
                exact ⟨rfl, rfl⟩
            refine ⟨?_, ?_, hlater.running, hfields.2⟩
            · simp [Counts.take, Entry.of, Except.toOption, hfields.1, hcounts]
            · simp [Entry.record, Entry.of, Except.toOption, hfields.1, hledger]

theorem analyzeText_entered (a : Audit) (path content encoding : String) :
    Entered a (a.analyzeText path content encoding).1
      (a.analyzeText path content encoding).2 := by
  cases hfault : a.cacheFault with
  | none =>
      rw [analyzeText_eq hfault]
      have hparsed := analyzeParsed_entered
        { a with cache := (a.cache.parse a.now path content encoding).2 }
        (a.cache.parse a.now path content encoding).1
      exact ⟨hparsed.counts, hparsed.ledger, hparsed.running, hparsed.inTime⟩
  | some fault =>
      unfold analyzeText
      rw [hfault]
      exact ⟨rfl, rfl, rfl, rfl⟩

/-- **The analysis of a file enters the report that it gives**, and changes nothing if it gives
none. -/
theorem analyzeFile_entered (a : Audit) (shelf : Shelf) (path : String) :
    (∃ r, (a.analyzeFile shelf path).1 = .ok r ∧ Entered a r (a.analyzeFile shelf path).2) ∨
      ∃ m, a.analyzeFile shelf path = (.error m, a) := by
  rw [analyzeFile_eq]
  cases a.fetch shelf path with
  | ok source => exact .inl ⟨_, rfl, a.analyzeText_entered path source.1 source.2⟩
  | error cause =>
      cases cause with
      | misuse m => exact .inr ⟨m, rfl⟩
      | trouble cause path => exact .inl ⟨_, rfl, rfl, rfl, rfl, rfl⟩
      | tooLarge path size => exact .inl ⟨_, rfl, rfl, rfl, rfl, rfl⟩
      | binary path => exact .inl ⟨_, rfl, rfl, rfl, rfl, rfl⟩

/-- The report that an analysis gives does not say that the file took too long. -/
theorem isLate_of_analyzeFile {a : Audit} {shelf : Shelf} {path : String} {r : Report}
    (h : (a.analyzeFile shelf path).1 = .ok r) : isLate r = false := by
  rcases a.analyzeFile_entered shelf path with ⟨r', hr', hentered⟩ | ⟨m, hm⟩
  · rw [hr'] at h
    cases h
    exact hentered.inTime
  · rw [hm] at h
    cases h

theorem toOption_mapError {α : Type} (x : Except Misuse α) :
    (x.mapError Misuse.message).toOption = x.toOption := by
  cases x <;> rfl

/-! ### Analyses under way -/

section

variable {beat : WorkPool.Beat}

/-- How long an analysis stays under way, and the report that it enters then, if any. -/
abbrev Lasting : Type := WorkPool.Stay × Option Report

/-- The report of an analysis that ends now. -/
def Lasting.ends? (beat : WorkPool.Beat) (x : Lasting) : Option Report :=
  if (x.1.after? beat).isNone then x.2 else none

/-- An analysis that does not end now. -/
def Lasting.next? (beat : WorkPool.Beat) (x : Lasting) : Option Lasting :=
  (x.1.after? beat).map fun stay => (stay, x.2)

/-- The analyses that are under way. -/
def underWay (a : Audit) : List Lasting :=
  a.running.map fun x => (x.stay, x.entry.report)

/-- The reports that are still to come. -/
def coming (xs : List Lasting) : List Report :=
  xs.filterMap Prod.snd

/-- Each analysis that is under way ends now or stays so. -/
theorem coming_perm (beat : WorkPool.Beat) (xs : List Lasting) :
    (coming xs).Perm
      (xs.filterMap (Lasting.ends? beat) ++ coming (xs.filterMap (Lasting.next? beat))) := by
  induction xs with
  | nil => exact .refl _
  | cons x xs ih =>
      obtain ⟨stay, report⟩ := x
      cases hafter : stay.after? beat <;> cases report <;>
        simp only [coming, Lasting.ends?, Lasting.next?, List.filterMap_cons, hafter,
          Option.isNone_none, Option.isNone_some, Bool.false_eq_true, if_true, if_false,
          Option.map_none, Option.map_some, List.cons_append] at ih ⊢
      · exact ih
      · exact ih.cons _
      · exact ih
      · exact (ih.cons _).trans List.perm_middle.symm

theorem hear_underWay (beat : WorkPool.Beat) (a : Audit) :
    (a.hear beat).underWay = a.underWay.filterMap (Lasting.next? beat) := by
  simp only [underWay, hear, List.map_filterMap, List.filterMap_map]
  refine List.filterMap_congr fun x _ => ?_
  simp only [Function.comp_apply, Lasting.next?, Option.map_map]
  rfl

/-- Analyses that end enter their reports. -/
theorem hear_enters (beat : WorkPool.Beat) (a : Audit) :
    a.counts.Enters (a.underWay.filterMap (Lasting.ends? beat)) (a.hear beat).counts := by
  have hfold : ∀ (es : List Entry) (c : Counts),
      c.Enters (es.filterMap Entry.report) (es.foldl Counts.take c) := by
    intro es c
    induction es generalizing c with
    | nil => exact .refl c
    | cons e es ih =>
        have hrest := (Counts.Enters.take c e).trans (ih (c.take e))
        rw [List.filterMap_cons]
        cases hreport : e.report <;> simpa [hreport] using hrest
  have hends : ∀ xs : List Running,
      ((xs.filter fun x => (x.stay.after? beat).isNone).map Running.entry).filterMap Entry.report =
        (xs.map fun x => (x.stay, x.entry.report)).filterMap (Lasting.ends? beat) := by
    intro xs
    rw [List.filterMap_map, List.filterMap_map, List.filterMap_filter]
    rfl
  rw [underWay, ← hends]
  exact hfold _ _

end

/-! ### The calls of a pool -/

section

variable {shelf : Shelf} {staff : Staff} {cancellable : Bool} {timeout : Float} {pace : Pace}

/-- What the analysis in a call comes to, now or later. -/
def outcomeOf : WorkPool.Work Report → Except String Report
  | .ended outcome => outcome
  | .stuck _ later => later

/-- The report of a call that has ended. -/
def given? : WorkPool.Work Report → Option Report
  | .ended outcome => outcome.toOption
  | .stuck _ _ => none

/-- The analysis in a call that has not ended. -/
def lasting? : WorkPool.Work Report → Option Lasting
  | .ended _ => none
  | .stuck stay later => some (stay, later.toOption)

/-- The reports of the calls that have ended. -/
def given (calls : List (String × WorkPool.Work Report)) : List Report :=
  calls.filterMap fun e => given? e.2

/-- The analyses in the calls that have not ended. -/
def lasting (calls : List (String × WorkPool.Work Report)) : List Lasting :=
  calls.filterMap fun e => lasting? e.2

theorem calls_concat (calls : List (String × WorkPool.Work Report)) (path : String)
    (w : WorkPool.Work Report) :
    given (calls ++ [(path, w)]) = given calls ++ (given? w).toList ∧
      lasting (calls ++ [(path, w)]) = lasting calls ++ (lasting? w).toList := by
  simp only [given, lasting, List.filterMap_append, List.filterMap_cons, List.filterMap_nil]
  constructor
  · cases given? w <;> rfl
  · cases lasting? w <;> rfl

theorem tick_cases (beat : WorkPool.Beat) (w : WorkPool.Work Report) :
    outcomeOf (w.tick beat) = outcomeOf w ∧
      lasting? (w.tick beat) = (lasting? w).bind (Lasting.next? beat) ∧
      given? (w.tick beat) = (given? w).or ((lasting? w).bind (Lasting.ends? beat)) := by
  cases w with
  | ended outcome => exact ⟨rfl, rfl, by simp [WorkPool.Work.tick, given?, lasting?]⟩
  | stuck stay later =>
      cases hafter : stay.after? beat <;>
        simp [WorkPool.Work.tick, outcomeOf, given?, lasting?, Lasting.next?, Lasting.ends?, hafter]

theorem lasting_heard (beat : WorkPool.Beat) (calls : List (String × WorkPool.Work Report)) :
    lasting (WorkPool.heard beat calls) = (lasting calls).filterMap (Lasting.next? beat) := by
  simp only [lasting, WorkPool.heard, List.filterMap_map, List.filterMap_filterMap]
  exact List.filterMap_congr fun e _ => (tick_cases beat e.2).2.1

/-- Analyses that end give their reports. -/
theorem given_heard (beat : WorkPool.Beat) (calls : List (String × WorkPool.Work Report)) :
    (given (WorkPool.heard beat calls)).Perm
      (given calls ++ (lasting calls).filterMap (Lasting.ends? beat)) := by
  induction calls with
  | nil => exact .refl _
  | cons e calls ih =>
      obtain ⟨path, w⟩ := e
      have hgiven := (tick_cases beat w).2.2
      simp only [given, lasting, WorkPool.heard, List.map_cons, List.filterMap_cons] at ih ⊢
      rw [hgiven]
      cases w with
      | ended outcome =>
          cases outcome with
          | error m => exact ih
          | ok r => exact ih.cons _
      | stuck stay later =>
          simp only [given?, lasting?, Option.none_or, Option.bind_some, List.filterMap_cons]
          cases Lasting.ends? beat (stay, later.toOption) with
          | none => exact ih
          | some r => exact (ih.cons r).trans List.perm_middle.symm

/-- An audit after some calls: their reports are entered or to come, and so are those of the
analyses that were under way before. -/
structure Follows (a : Audit) (made : List (String × WorkPool.Work Report)) (b : Audit)
    (earlier : List Report) (kept : List Lasting) : Prop where
  underWay : b.underWay = kept ++ lasting made
  reports : (coming a.underWay).Perm (earlier ++ coming kept)
  counts : a.counts.Enters (earlier ++ given made) b.counts

namespace Follows

variable {a b : Audit} {made : List (String × WorkPool.Work Report)} {earlier : List Report}
  {kept : List Lasting}

/-- Analyses end. -/
theorem hear (h : a.Follows made b earlier kept) (beat : WorkPool.Beat) :
    a.Follows (WorkPool.heard beat made) (b.hear beat)
      (earlier ++ kept.filterMap (Lasting.ends? beat)) (kept.filterMap (Lasting.next? beat)) := by
  have hentered := b.hear_enters beat
  rw [h.underWay, List.filterMap_append] at hentered
  refine ⟨?_, ?_, (h.counts.trans hentered).perm ?_⟩
  · rw [hear_underWay, h.underWay, List.filterMap_append, lasting_heard]
  · rw [List.append_assoc]
    exact h.reports.trans ((coming_perm beat kept).append_left earlier)
  · rw [List.append_assoc, List.append_assoc]
    refine List.Perm.append_left earlier ?_
    refine List.Perm.trans ?_ ((given_heard beat made).symm.append_left _)
    rw [← List.append_assoc, ← List.append_assoc]
    exact List.perm_append_comm.append_right _

/-- A further call is made, of which the analyses under way have heard. -/
theorem call (h : a.Follows made (b.hear .start) earlier kept) (path : String) :
    a.Follows (made ++ [(path, (b.call shelf pace path).1)]) (b.call shelf pace path).2 earlier
      kept := by
  have hentered := (b.hear .start).analyzeFile_entered shelf path
  unfold Audit.call
  dsimp only
  generalize (b.hear .start).analyzeFile shelf path = analyzed at hentered ⊢
  obtain ⟨r, c⟩ := analyzed
  cases pace.stay path with
  | some stay =>
      obtain ⟨hgiven, hlasting⟩ := calls_concat made path (.stuck stay (r.mapError Misuse.message))
      refine ⟨?_, h.reports, ?_⟩
      · rw [hlasting, ← List.append_assoc, ← h.underWay, Audit.underWay, List.map_append,
          lasting?, toOption_mapError]
        rfl
      · rw [hgiven, given?, Option.toList_none, List.append_nil]
        exact h.counts
  | none =>
      obtain ⟨hgiven, hlasting⟩ := calls_concat made path (.ended (r.mapError Misuse.message))
      rw [lasting?, Option.toList_none, List.append_nil] at hlasting
      rw [given?, toOption_mapError] at hgiven
      rcases hentered with ⟨report, rfl, hentered⟩ | ⟨m, hm⟩
      · refine ⟨?_, h.reports, ?_⟩
        · rw [hlasting, ← h.underWay, Audit.underWay, hentered.running]
          rfl
        · have hcounts := h.counts.trans (Counts.Enters.take _ (.of (b.hear .start) (.ok report) c))
          rw [← hentered.counts, List.append_assoc] at hcounts
          rw [hgiven]
          exact hcounts
      · cases hm
        refine ⟨?_, h.reports, ?_⟩
        · rw [hlasting]
          exact h.underWay
        · rw [hgiven, Except.toOption, Option.toList_none, List.append_nil]
          exact h.counts

end Follows

/-- **The calls of a pool enter the reports of the analyses that end.** -/
theorem way_follows {a b : Audit} {made : List (String × WorkPool.Work Report)}
    (h : (surroundings shelf staff cancellable timeout pace).Way a made b) :
    ∃ earlier kept, a.Follows made b earlier kept := by
  induction h with
  | refl => exact ⟨[], a.underWay, by simp [lasting], .refl _, .refl _⟩
  | call _ path ih =>
      obtain ⟨_, _, hfollows⟩ := ih
      exact ⟨_, _, (hfollows.hear .start).call path⟩
  | pause _ ih =>
      rename_i made w _
      obtain ⟨earlier, kept, hfollows⟩ := ih
      have hclock : a.Follows made { w with now := w.now + pollInterval } earlier kept :=
        ⟨hfollows.underWay, hfollows.reports, hfollows.counts⟩
      exact ⟨_, _, hclock.hear .pause⟩

/-- What a call comes to is what the analysis of its file says on the way. -/
theorem way_outcomes {a b : Audit} {made : List (String × WorkPool.Work Report)}
    (h : (surroundings shelf staff cancellable timeout pace).Way a made b) :
    ∀ e ∈ made, ∃ before w,
      (surroundings shelf staff cancellable timeout pace).Way a before w ∧
      outcomeOf e.2 = ((w.hear .start).analyzeFile shelf e.1).1.mapError Misuse.message := by
  have hheard : ∀ {beat : WorkPool.Beat} {made : List (String × WorkPool.Work Report)} {e},
      e ∈ WorkPool.heard beat made → ∃ e' ∈ made, e'.1 = e.1 ∧ outcomeOf e.2 = outcomeOf e'.2 := by
    intro beat made e he
    obtain ⟨e', he', rfl⟩ := List.mem_map.1 he
    exact ⟨e', he', rfl, (tick_cases beat e'.2).1⟩
  induction h with
  | refl => exact List.forall_mem_nil _
  | call hway path ih =>
      rename_i made w
      intro e he
      rcases List.mem_append.1 he with he | he
      · obtain ⟨e', he', hpath, houtcome⟩ := hheard he
        rw [← hpath, houtcome]
        exact ih e' he'
      · refine ⟨made, w, hway, ?_⟩
        rw [List.mem_singleton.1 he]
        simp only [surroundings, Audit.call]
        cases pace.stay path <;> rfl
  | pause _ ih =>
      intro e he
      obtain ⟨e', he', hpath, houtcome⟩ := hheard he
      rw [← hpath, houtcome]
      exact ih e' he'

end

/-! ### Results -/

section

variable {told : List (WorkPool.Result String Report Float × WorkPool.Work Report)}

/-- The calls that took too long, under their paths. -/
def late (told : List (WorkPool.Result String Report Float × WorkPool.Work Report)) :
    List (String × WorkPool.Work Report) :=
  (told.filter fun p => p.1.status == .timedOut).map fun p => (p.1.key, p.2)

/-- A result that is not a success is reported as a failure with its status. -/
theorem reportOf_of_not_completed {x : WorkPool.Result String Report Float}
    (h : x.status ≠ .completed) :
    (reportOf x).failed = true ∧ (reportOf x).status = x.status.name := by
  have hnot : x.succeeded = false := by simpa [WorkPool.Result.succeeded] using h
  unfold reportOf
  rw [hnot]
  exact ⟨rfl, rfl⟩

/-- What files were entered for, once by their analyses and once by the batch, against what is
reported about them. -/
theorem told_counts (h : ∀ p ∈ told, p.1.Answers p.2) :
    (given (told.map fun p => (p.1.key, p.2))).length +
          (told.map Prod.fst).countP (fun x => !x.succeeded) =
        told.length + (given (late told)).length ∧
      (given (told.map fun p => (p.1.key, p.2))).countP Report.failed +
          (told.map Prod.fst).countP (fun x => !x.succeeded) =
        (told.map Prod.fst).countP (fun x => (reportOf x).failed) +
          (given (late told)).countP Report.failed := by
  induction told with
  | nil => exact ⟨rfl, rfl⟩
  | cons p told ih =>
      obtain ⟨x, work⟩ := p
      obtain ⟨hlength, hfailed⟩ := ih fun q hq => h q (List.mem_cons_of_mem _ hq)
      have hx : x.Answers work := h (x, work) List.mem_cons_self
      simp only [given, late] at hlength hfailed ⊢
      rcases hx with hlate | ⟨r, rfl, hdone, hvalue⟩ | ⟨e, rfl, hfault, _⟩
      · have hreport := (reportOf_of_not_completed (x := x) (by simp [hlate])).1
        cases hgiven : given? work <;>
        · simp [hlate, hreport, hgiven, WorkPool.Result.succeeded, List.countP_cons]
            at hlength hfailed ⊢
          omega
      · have hreport : reportOf x = r := by
          simp [reportOf, WorkPool.Result.succeeded, hdone, hvalue]
        simp [hdone, hreport, given?, Except.toOption, WorkPool.Result.succeeded,
          List.countP_cons] at hlength hfailed ⊢
        omega
      · have hreport := (reportOf_of_not_completed (x := x) (by simp [hfault])).1
        simp [hfault, hreport, given?, Except.toOption,
          WorkPool.Result.succeeded] at hlength hfailed ⊢
        omega

/-- Only calls that took too long have not ended. -/
theorem lasting_told (h : ∀ p ∈ told, p.1.Answers p.2) :
    lasting (told.map fun p => (p.1.key, p.2)) = lasting (late told) := by
  induction told with
  | nil => rfl
  | cons p told ih =>
      obtain ⟨x, work⟩ := p
      have ih := ih fun q hq => h q (List.mem_cons_of_mem _ hq)
      have hx : x.Answers work := h (x, work) List.mem_cons_self
      simp only [lasting, late] at ih ⊢
      rcases hx with hlate | ⟨r, rfl, hdone, _⟩ | ⟨e, rfl, hfault, _⟩
      · simp only [List.map_cons, List.filterMap_cons, List.filter_cons, hlate, beq_self_eq_true,
          if_true, ih]
      · simpa [hdone, lasting?] using ih
      · simpa [hfault, lasting?] using ih

/-- A path that was cancelled is entered once, by the batch. -/
theorem results_counts {results : List (WorkPool.Result String Report Float)}
    (hresults : (results.filter fun x => x.status != .cancelled).Perm (told.map Prod.fst))
    (h : ∀ p ∈ told, p.1.Answers p.2) :
    (given (told.map fun p => (p.1.key, p.2))).length + results.countP (fun x => !x.succeeded) =
        results.length + (given (late told)).length ∧
      (given (told.map fun p => (p.1.key, p.2))).countP Report.failed +
          results.countP (fun x => !x.succeeded) =
        results.countP (fun x => (reportOf x).failed) +
          (given (late told)).countP Report.failed := by
  obtain ⟨hlength, hfailed⟩ := told_counts h
  let cancelled := results.filter fun x => !(x.status != .cancelled)
  have hcancelled : ∀ x ∈ cancelled, x.status = .cancelled := by
    intro x hx
    simpa using (List.mem_filter.1 hx).2
  have hall : cancelled.countP (fun x => !x.succeeded) = cancelled.length :=
    List.countP_eq_length.2 fun x hx => by simp [WorkPool.Result.succeeded, hcancelled x hx]
  have hallFailed : cancelled.countP (fun x => (reportOf x).failed) = cancelled.length :=
    List.countP_eq_length.2 fun x hx =>
      (reportOf_of_not_completed (by simp [hcancelled x hx])).1
  -- the results are those that answer calls and the cancelled ones
  have hsplit : ∀ p : WorkPool.Result String Report Float → Bool,
      results.countP p = (told.map Prod.fst).countP p + cancelled.countP p := by
    intro p
    rw [List.countP_eq_countP_filter_add results p fun x => x.status != .cancelled,
      hresults.countP_eq]
  have htotal : results.length = told.length + cancelled.length := by
    rw [List.length_eq_length_filter_add fun x => x.status != .cancelled, hresults.length_eq,
      List.length_map]
  rw [hsplit, hsplit, htotal]
  omega

/-- The paths of the calls that took too long are those that are reported so. -/
theorem late_paths {results : List (WorkPool.Result String Report Float)}
    (hresults : (results.filter fun x => x.status != .cancelled).Perm (told.map Prod.fst))
    (h : ∀ p ∈ told, p.1.Answers p.2)
    (hgiven : ∀ p ∈ told, ∀ r, outcomeOf p.2 = .ok r → isLate r = false) :
    ((late told).map Prod.fst).Perm
      ((results.filter fun x => isLate (reportOf x)).map WorkPool.Result.key) := by
  have hlate : ∀ x ∈ results, isLate (reportOf x) = (x.status == .timedOut) := by
    intro x hx
    by_cases hstatus : x.status = .completed
    · -- its report was given by a call
      obtain ⟨p, hp, rfl⟩ := List.mem_map.1
        (hresults.mem_iff.1 (List.mem_filter.2 ⟨hx, by simp [hstatus]⟩))
      rcases h p hp with hother | ⟨r, hr, _, hvalue⟩ | ⟨_, _, hother, _⟩
      · rw [hstatus] at hother
        cases hother
      · have hreport : reportOf p.1 = r := by
          simp [reportOf, WorkPool.Result.succeeded, hstatus, hvalue]
        rw [hreport, hgiven p hp r (by rw [hr]; rfl), hstatus]
        rfl
      · rw [hstatus] at hother
        cases hother
    · rw [isLate, (reportOf_of_not_completed hstatus).2]
      cases x.status <;> rfl
  have hfilter := hresults.filter fun x => x.status == .timedOut
  rw [List.filter_filter, List.filter_map] at hfilter
  rw [late, List.map_map, List.filter_congr hlate]
  refine List.Perm.trans ?_ ((hfilter.symm.trans (List.Perm.of_eq ?_)).map WorkPool.Result.key)
  · rw [List.map_map]
    exact .refl _
  · refine List.filter_congr fun x _ => ?_
    cases x.status <;> rfl

end

/-! ### A batch -/

/-- An analysis that waits bring to its end gives up its worker, and ends without one. -/
theorem surroundings_leaves (shelf : Shelf) (staff : Staff) (cancellable : Bool) (timeout : Float)
    {pace : Pace} (h : ∀ path stay, pace.stay path = some stay → stay.pauses.isSome = true)
    (plan : WorkPool.Plan Float) :
    (surroundings shelf staff cancellable timeout pace).Leaves plan ∧
      ∀ path a, ((surroundings shelf staff cancellable timeout pace).callInline path a).isSome =
        true := by
  constructor
  · intro path attempt a world
    cases hstay : pace.stay path with
    | none => exact ⟨0, by simp [WorkPool.Task.leavesWithin, surroundings, call, hstay,
        WorkPool.Work.endsWithin]⟩
    | some stay =>
        obtain ⟨n, hn⟩ := Option.isSome_iff_exists.1 (h path stay hstay)
        exact ⟨n, by simp [WorkPool.Task.leavesWithin, surroundings, call, hstay,
          WorkPool.Work.endsWithin, hn]⟩
  · intro path a
    cases hstay : pace.stay path with
    | none => simp [WorkPool.Surroundings.callInline, surroundings, call, hstay]
    | some stay =>
        simpa [WorkPool.Surroundings.callInline, surroundings, call, hstay] using h path stay hstay

/-- A batch returns if its pool does. -/
theorem exists_analyzeBatch {a : Audit} {workers : Value} {timeout : Float}
    (hworkers : a.settings.workerCount = .ok workers)
    (htimeout : a.settings.perFileTimeout = .ok timeout) {shelf : Shelf} {paths : List String}
    {cancellable : Bool} {staff : Staff} {pace : Pace}
    (h : ∃ fin, WorkPool.run (surroundings shelf staff cancellable timeout pace)
      { workers := workers.int?.getD 0, timeout := some timeout }
      (paths.eraseDups.length * 2 + pace.rounds) paths.eraseDups
      { a with roster := a.roster.lock } = some fin) :
    ∃ batch later, a.analyzeBatch shelf paths cancellable staff pace =
      .ok (some (batch, later)) := by
  obtain ⟨fin, hfin⟩ := h
  refine ⟨(conclude fin).1, (conclude fin).2, ?_⟩
  rw [analyzeBatch_eq hworkers htimeout, hfin]
  rfl

/-- **A batch enters each distinct path once, and each report that came too late once more.**  It
returns if every analysis ends at once, and after enough rounds if every analysis ends after some
waits.  Whenever it returns, it reports on each distinct path once.  For the calls that took too
long, which are those of the paths that are reported so, it is told what has become of them: those
that have ended meanwhile, on a worker that was left behind or without workers, have entered their
reports as analyzed or failed; the others will do so after the batch, as the analyses of earlier
batches do that are still under way. -/
theorem analyzeBatch_counts_files (a : Audit) (shelf : Shelf) (paths : List String)
    (cancellable : Bool) (staff : Staff) (pace : Pace) (workers : Value) (timeout : Float)
    (hworkers : a.settings.workerCount = .ok workers)
    (htimeout : a.settings.perFileTimeout = .ok timeout) :
    ((∀ path, pace.stay path = none) →
      ∃ batch later,
        a.analyzeBatch shelf paths cancellable staff pace = .ok (some (batch, later))) ∧
    ((∀ path stay, pace.stay path = some stay → stay.pauses.isSome = true) →
      ∃ enough, ∀ rounds, enough ≤ rounds → ∃ batch later,
        a.analyzeBatch shelf paths cancellable staff { pace with rounds } =
          .ok (some (batch, later))) ∧
    ∀ batch later, a.analyzeBatch shelf paths cancellable staff pace = .ok (some (batch, later)) →
      batch.reports.map Prod.fst = paths.eraseDups.map Key.str ∧
      ∃ late : List (String × WorkPool.Work Report), ∃ (earlier : List Report)
        (kept : List Lasting),
        (late.map fun e => Key.str e.1).Perm
          ((batch.reports.filter fun e => isLate e.2).map Prod.fst) ∧
        later.counts.analyzed + later.counts.failed =
          a.counts.analyzed + a.counts.failed + paths.eraseDups.length + (given late).length +
            earlier.length ∧
        later.counts.failed = a.counts.failed + (batch.reports.countP fun e => e.2.failed) +
          (given late).countP Report.failed + earlier.countP Report.failed ∧
        (coming a.underWay).Perm (earlier ++ coming kept) ∧
        later.underWay.Perm (kept ++ lasting late) ∧
        ∀ e ∈ late, ∃ made w,
          (surroundings shelf staff cancellable timeout pace).Way
            { a with roster := a.roster.lock } made w ∧
          outcomeOf e.2 = ((w.hear .start).analyzeFile shelf e.1).1.mapError Misuse.message := by
  let plan : WorkPool.Plan Float := { workers := workers.int?.getD 0, timeout := some timeout }
  have hstaff : 0 < plan.workers → plan.workers ≤ plan.staff := workers_le_staff rfl
  refine ⟨fun hprompt => ?_, fun hpauses => ?_, fun batch later hbatch => ?_⟩
  · have hprompt := surroundings_prompt shelf staff cancellable timeout hprompt
    exact exists_analyzeBatch hworkers htimeout
      (WorkPool.run_returns hprompt hstaff (Nat.le_add_right _ _) _)
  · obtain ⟨hleaves, hinline⟩ := surroundings_leaves shelf staff cancellable timeout hpauses plan
    obtain ⟨enough, hend⟩ := WorkPool.exists_run hleaves hinline hstaff paths.eraseDups
      { a with roster := a.roster.lock }
    exact ⟨enough, fun rounds hrounds => exists_analyzeBatch hworkers htimeout
      (hend _ (Nat.le_add_left_of_le hrounds))⟩
  rw [analyzeBatch_eq hworkers htimeout] at hbatch
  obtain ⟨fin, hfin, hend⟩ := Option.map_eq_some_iff.1 (Except.ok.inj hbatch)
  obtain ⟨rfl, rfl⟩ := Prod.mk.inj hend
  obtain ⟨made, told, hkeys, hway, hmade, hresults, hanswers⟩ :=
    WorkPool.run_tells (show plan.retries = 0 from rfl) (WorkPool.distinct_eraseDups paths) hfin
  obtain ⟨earlier, kept, hfollows⟩ := way_follows hway
  have htold : ∀ p ∈ told, ∃ made w, (surroundings shelf staff cancellable timeout pace).Way
      { a with roster := a.roster.lock } made w ∧
      outcomeOf p.2 = ((w.hear .start).analyzeFile shelf p.1.key).1.mapError Misuse.message :=
    fun p hp => way_outcomes hway (p.1.key, p.2) (hmade.mem_iff.2 (List.mem_map_of_mem hp))
  have hgiven : (given made).Perm (given (told.map fun p => (p.1.key, p.2))) := hmade.filterMap _
  have hlasting : (lasting made).Perm (lasting (late told)) :=
    lasting_told hanswers ▸ hmade.filterMap _
  have hentered : a.counts.Enters (earlier ++ given (told.map fun p => (p.1.key, p.2)))
      fin.world.counts := hfollows.counts.perm (hgiven.append_left earlier)
  have htotal := hentered.total
  have hcount := hentered.failed
  obtain ⟨hlength, hfailed⟩ := results_counts hresults hanswers
  have hnumber : fin.results.length = paths.eraseDups.length := by
    rw [← hkeys, List.length_map]
  rw [List.length_append] at htotal
  rw [List.countP_append] at hcount
  refine ⟨?_, late told, earlier, kept, ?_, ?_, ?_, hfollows.reports, ?_, ?_⟩
  · simp [← hkeys]
  · have hlate := (late_paths hresults hanswers fun p hp r hr => by
      obtain ⟨_, w, _, houtcome⟩ := htold p hp
      exact isLate_of_analyzeFile (of_mapError_eq_ok (houtcome.symm.trans hr))).map Key.str
    rw [List.map_map, List.map_map] at hlate
    rw [List.filter_map, List.map_map]
    exact hlate
  · simp only [Counts.fail, ← List.countP_eq_length_filter]
    omega
  · have hfailures : (fin.results.map fun r => (Key.str r.key, reportOf r)).countP
        (fun e => e.2.failed) = fin.results.countP fun x => (reportOf x).failed :=
      List.countP_map
    simp only [Counts.fail, ← List.countP_eq_length_filter]
    omega
  · exact (List.Perm.of_eq hfollows.underWay).trans (hlasting.append_left kept)
  · intro e he
    obtain ⟨p, hp, rfl⟩ := List.mem_map.1 he
    exact htold p (List.mem_filter.1 hp).1

/-- Figures of a batch that returns. -/
theorem exists_of_figures {α : Type} {x : Except Misuse (Option (Batch × Audit))}
    {figures : Batch × Audit → α} {v : α} (h : x.toOption.join.map figures = some v) :
    ∃ batch later, x = .ok (some (batch, later)) ∧ figures (batch, later) = v := by
  rcases x with m | _ | ⟨batch, later⟩
  · cases h
  · cases h
  · exact ⟨batch, later, rfl, Option.some.inj h⟩

/-- An audit that gives each file half a second, on so many workers. -/
def halfSecondAudit (workers : Int) : Audit :=
  { measuringAudit with
    settings := Settings.defaults.merge
      [("analysis", .dict [("worker_count", .int workers), ("per_file_timeout_ms", .int 500)])] }

/-- The first file takes a second, the second one half a second. -/
def secondAndHalf : Pace where
  stay path := some { pauses := if path = "a.php" then some 19 else some 9 }
  rounds := 30

/-- One worker is left behind with the first file and ends it while another works on the second one:
three entries for two paths. -/
theorem halfSecondAudit_counts_files :
    let a := halfSecondAudit 1
    let paths := ["a.php", "b.php", "a.php"]
    a.settings.workerCount = .ok (.int 1) ∧ a.settings.perFileTimeout = .ok 0.5 ∧
      ∃ batch later, ∃ late : List (String × WorkPool.Work Report),
        a.analyzeBatch twoFiles paths true {} secondAndHalf = .ok (some (batch, later)) ∧
        batch.reports.map Prod.fst = [.str "a.php", .str "b.php"] ∧
        late.length = 1 ∧ (given late).length = 1 ∧
        later.counts.analyzed = 2 ∧ later.counts.failed = 1 := by
  intro a paths
  have hworkers : a.settings.workerCount = .ok (.int 1) := rfl
  have htimeout : a.settings.perFileTimeout = .ok 0.5 := rfl
  have hfigures : ((a.analyzeBatch twoFiles paths true {} secondAndHalf).toOption.join.map fun x =>
      ((x.1.reports.filter fun e => isLate e.2).length, x.2.counts.analyzed, x.2.counts.failed)) =
        some (1, 2, 1) := by decide +kernel
  obtain ⟨batch, later, hbatch, hvalues⟩ := exists_of_figures hfigures
  obtain ⟨hnumber, hanalyzed, hfailed⟩ := by simpa only [Prod.mk.injEq] using hvalues
  obtain ⟨hkeys, late, earlier, kept, hlate, htotal, -, hreports, -, -⟩ :=
    (analyzeBatch_counts_files a twoFiles paths true {} secondAndHalf (.int 1) 0.5 hworkers
      htimeout).2.2 batch later hbatch
  have hnone : earlier = [] := (List.append_eq_nil_iff.1 (List.nil_perm.1 hreports)).1
  have hlength := hlate.length_eq
  rw [List.length_map, List.length_map, hnumber] at hlength
  refine ⟨hworkers, htimeout, batch, later, late, hbatch, hkeys, hlength, ?_, hanalyzed, hfailed⟩
  have hpaths : paths.eraseDups.length = 2 := rfl
  have hbefore : a.counts.analyzed + a.counts.failed = 0 := rfl
  rw [hanalyzed, hfailed, hbefore, hpaths, hnone, List.length_nil] at htotal
  omega

/-- **A file can be entered twice**: without workers it is analyzed, and as the report comes too
late it has failed as well. -/
theorem late_report_enters_twice :
    ∃ batch later,
      (halfSecondAudit 0).analyzeBatch twoFiles ["a.php"] = .ok (some (batch, later)) ∧
      batch.reports.length = 1 ∧ (batch.reports.countP fun e => e.2.failed) = 1 ∧
      later.counts.analyzed = 1 ∧ later.counts.failed = 1 := by
  have hfigures : (((halfSecondAudit 0).analyzeBatch twoFiles ["a.php"]).toOption.join.map fun x =>
      (x.1.reports.length, x.1.reports.countP fun e => e.2.failed, x.2.counts.analyzed,
        x.2.counts.failed)) = some (1, 1, 1, 1) := by decide +kernel
  obtain ⟨batch, later, hbatch, hvalues⟩ := exists_of_figures hfigures
  exact ⟨batch, later, hbatch, by simpa only [Prod.mk.injEq] using hvalues⟩

end PhpAudit.Audit
