/-
**Lines by line feeds, and lines by all line ends.**

A place in a text is numbered by the line feeds in front of it, but the lines of a text end at
eleven kinds of line end.  This module compares the two: the front of a text through its `n`-th line
feed against the first `n` lines.

Main definitions:

* `Text.throughFeeds` — the front of a text that ends with its `n`-th line feed;
* `Text.strayEnds` — how many line ends are neither a line feed nor a carriage return in front of
  one;
* `Text.unified` — a line feed alone in place of a carriage return with a line feed behind it;
* `Text.fed` — lines with a line feed behind each.

Main results:

* `Text.take_lines` — **the first `n` lines lie in the front of the text through its `n`-th line
  feed**;
* `Text.length_lines_throughFeeds` — **the front has one more line for each stray line end**;
* `Text.fed_take_lines_eq_iff` — so the first `n` lines are all of it just when there is none.
-/

import PhpAudit.Text.Lines

set_option autoImplicit false

namespace PhpAudit.Text

/-- The front of a text that ends with its `n`-th line feed. -/
def throughFeeds : List Char → Nat → List Char
  | [], _ => []
  | _ :: _, 0 => []
  | c :: cs, n + 1 => c :: throughFeeds cs (if c = '\n' then n else n + 1)

/-- The number of line ends that are neither a line feed nor a carriage return in front of one. -/
def strayEnds : List Char → Nat
  | [] => 0
  | c :: cs =>
    (if isLineEnd c ∧ c ≠ '\n' ∧ ¬ (c = '\r' ∧ cs.head? = some '\n') then 1 else 0) + strayEnds cs

/-- The text with a line feed alone for each carriage return with a line feed behind it. -/
def unified : List Char → List Char
  | [] => []
  | c :: cs => if c = '\r' ∧ cs.head? = some '\n' then unified cs else c :: unified cs

/-- Lines with a line feed behind each. -/
def fed (ls : List String) : List Char :=
  ls.flatMap fun l => l.toList ++ ['\n']

/-! ### The front through a line feed -/

theorem countP_throughFeeds {cs : List Char} {n : Nat} (h : n ≤ cs.countP (· == '\n')) :
    (throughFeeds cs n).countP (· == '\n') = n := by
  induction cs generalizing n with
  | nil => simpa [throughFeeds, eq_comm] using h
  | cons c cs ih =>
      cases n with
      | zero => rfl
      | succ n =>
          by_cases hc : c = '\n'
          · simp only [hc, List.countP_cons, beq_self_eq_true, if_true] at h
            simp [throughFeeds, hc, ih (Nat.le_of_succ_le_succ h)]
          · have hrest : n + 1 ≤ cs.countP (· == '\n') := by simpa [hc] using h
            simp [throughFeeds, hc, ih hrest]

/-- The front is empty or ends with a line feed. -/
theorem getLast?_throughFeeds {cs : List Char} {n : Nat} (h : n ≤ cs.countP (· == '\n')) :
    throughFeeds cs n = [] ∨ (throughFeeds cs n).getLast? = some '\n' := by
  induction cs generalizing n with
  | nil => exact Or.inl rfl
  | cons c cs ih =>
      cases n with
      | zero => exact Or.inl rfl
      | succ n =>
          refine Or.inr ?_
          by_cases hc : c = '\n'
          · simp only [hc, List.countP_cons, beq_self_eq_true, if_true] at h
            rw [throughFeeds, if_pos hc, List.getLast?_cons, hc]
            rcases ih (Nat.le_of_succ_le_succ h) with hnil | hlast
            · rw [hnil]
              rfl
            · rw [hlast]
              rfl
          · have hrest : n + 1 ≤ cs.countP (· == '\n') := by simpa [hc] using h
            rw [throughFeeds, if_neg hc, List.getLast?_cons]
            rcases ih hrest with hnil | hlast
            · have hcount := countP_throughFeeds hrest
              rw [hnil] at hcount
              cases hcount
            · rw [hlast]
              rfl

/-! ### The first lines -/

/-- The first `m` lines are seen before the `n`-th line feed.  A line feed right after a carriage
return ends no line of its own, so one more line feed is needed there. -/
theorem take_linesFrom (cs : List Char) {m n : Nat} (line : List Char) (afterReturn : Bool)
    (h : m + afterReturn.toNat ≤ n) :
    (linesFrom line afterReturn cs).take m =
      (linesFrom line afterReturn (throughFeeds cs n)).take m := by
  induction cs generalizing m n line afterReturn with
  | nil => rfl
  | cons c cs ih =>
      cases n with
      | zero =>
          have hm : m = 0 := by omega
          rw [hm, List.take_zero, List.take_zero]
      | succ n =>
          rw [throughFeeds, linesFrom, linesFrom]
          split
          · rename_i hfeed
            obtain ⟨rfl, rfl⟩ : afterReturn = true ∧ c = '\n' := by simpa using hfeed
            rw [if_pos rfl]
            exact ih [] false (by simpa using h)
          · split
            · cases m with
              | zero => rfl
              | succ m =>
                  rw [List.take_succ_cons, List.take_succ_cons]
                  congr 1
                  refine ih [] (c == '\r') ?_
                  by_cases hc : c = '\n'
                  · rw [if_pos hc, hc]
                    have : ('\n' == '\r') = false := rfl
                    rw [this]
                    simp only [Bool.toNat_false]
                    omega
                  · rw [if_neg hc]
                    have := (c == '\r').toNat_le
                    omega
            · rename_i hend
              have hc : c ≠ '\n' := by
                rintro rfl
                exact hend rfl
              rw [if_neg hc]
              refine ih (c :: line) false ?_
              simp only [Bool.toNat_false]
              omega

/-- **The first lines of a text lie in front of the line feed of the same number.** -/
theorem take_lines (s : String) (n : Nat) :
    (lines s).take n = (lines (String.ofList (throughFeeds s.toList n))).take n := by
  rw [lines, lines, String.toList_ofList]
  exact take_linesFrom s.toList [] false (by simp)

/-- No line has a line end in it. -/
theorem not_isLineEnd_of_mem_linesFrom {cs line : List Char} {afterReturn : Bool}
    (hline : ∀ c ∈ line, isLineEnd c = false) :
    ∀ l ∈ linesFrom line afterReturn cs, ∀ c ∈ l.toList, isLineEnd c = false := by
  induction cs generalizing line afterReturn with
  | nil =>
      intro l hl c hc
      rw [linesFrom] at hl
      split at hl
      · cases hl
      · rw [List.mem_singleton.1 hl, String.toList_ofList, List.mem_reverse] at hc
        exact hline c hc
  | cons d cs ih =>
      rw [linesFrom]
      split
      · exact ih (by simp)
      · split
        · intro l hl
          rcases List.mem_cons.1 hl with rfl | hl
          · intro c hc
            rw [String.toList_ofList, List.mem_reverse] at hc
            exact hline c hc
          · exact ih (by simp) l hl
        · rename_i hend
          refine ih ?_
          intro c hc
          rcases List.mem_cons.1 hc with rfl | hc
          · simpa using hend
          · exact hline c hc

/-! ### Stray line ends -/

/-- What follows a character in a text that ends with a line feed. -/
theorem getLast?_of_cons {c : Char} {cs line : List Char}
    (h : (c :: cs).getLast? = some '\n' ∨ c :: cs = [] ∧ line = []) :
    cs.getLast? = some '\n' ∨ cs = [] ∧ c = '\n' := by
  cases cs with
  | nil => simpa using h
  | cons d cs => simpa [List.getLast?_cons_cons] using h

/-- A text that ends with a line feed has a line for each line feed and each stray line end.  After
a carriage return the line of the line feed that is still to come has been counted already. -/
theorem length_linesFrom {cs line : List Char} {afterReturn : Bool}
    (hlast : cs.getLast? = some '\n' ∨ cs = [] ∧ line = []) :
    (linesFrom line afterReturn cs).length +
        (if afterReturn = true ∧ cs.head? = some '\n' then 1 else 0) =
      cs.countP (· == '\n') + strayEnds cs := by
  induction cs generalizing line afterReturn with
  | nil =>
      have hempty : line = [] := by simpa using hlast
      simp [hempty, linesFrom, strayEnds]
  | cons c cs ih =>
      have hrest := getLast?_of_cons hlast
      have hfresh := fun b => @ih [] b (hrest.imp_right fun h => ⟨h.1, rfl⟩)
      rw [linesFrom, strayEnds, List.countP_cons, List.head?_cons]
      split
      · rename_i hfeed
        obtain ⟨rfl, rfl⟩ : afterReturn = true ∧ c = '\n' := by simpa using hfeed
        have h := hfresh false
        simp only [Bool.false_eq_true, false_and, if_false] at h
        simp only [ne_eq, not_true_eq_false, false_and, and_false, and_self, if_true, if_false,
          beq_self_eq_true]
        omega
      · rename_i hnot
        have hnone : ¬ (afterReturn = true ∧ some c = some '\n') := by simpa using hnot
        rw [if_neg hnone]
        split
        · rename_i hend
          have h := hfresh (c == '\r')
          rw [List.length_cons]
          simp only [beq_iff_eq] at h ⊢
          by_cases hc : c = '\n'
          · subst hc
            have hno : ¬ ('\n' = '\r' ∧ cs.head? = some '\n') := fun h => absurd h.1 (by decide)
            rw [if_neg hno] at h
            rw [if_pos rfl, if_neg fun h => h.2.1 rfl]
            omega
          · by_cases hpair : c = '\r' ∧ cs.head? = some '\n'
            · rw [if_pos hpair] at h
              rw [if_neg hc, if_neg fun h => h.2.2 hpair]
              omega
            · rw [if_neg hpair] at h
              rw [if_neg hc, if_pos ⟨hend, hc, hpair⟩]
              omega
        · rename_i hend
          have hne : c ≠ '\n' := by
            rintro rfl
            exact hend rfl
          have h := @ih (c :: line) false (hrest.imp_right fun h => absurd h.2 hne)
          simpa [hne, hend] using h

/-- **The front of a text has one more line for each stray line end in it.** -/
theorem length_lines_throughFeeds {s : String} {n : Nat} (h : n ≤ countFeeds s) :
    (lines (String.ofList (throughFeeds s.toList n))).length =
      n + strayEnds (throughFeeds s.toList n) := by
  have hlength := @length_linesFrom _ [] false
    ((getLast?_throughFeeds h).symm.imp_right fun hnil => ⟨hnil, rfl⟩)
  rw [countP_throughFeeds h] at hlength
  rw [lines, String.toList_ofList]
  simpa using hlength

theorem unified_cons_of_ne {c : Char} (hc : c ≠ '\r') (cs : List Char) :
    unified (c :: cs) = c :: unified cs := by
  rw [unified, if_neg fun h => hc h.1]

/-- A text in which nothing but line feeds is left of its line ends had no stray ones. -/
theorem strayEnds_eq_zero_of_unified {cs : List Char}
    (h : ∀ c ∈ unified cs, c = '\n' ∨ isLineEnd c = false) : strayEnds cs = 0 := by
  induction cs with
  | nil => rfl
  | cons c cs ih =>
      rw [unified] at h
      rw [strayEnds]
      split at h
      · rename_i hpair
        rw [if_neg fun hstray => hstray.2.2 hpair, ih h]
      · rw [ih fun d hd => h d (List.mem_cons_of_mem _ hd)]
        rcases h c List.mem_cons_self with rfl | hc
        · rfl
        · simp [hc]

/-- Lines put together again, for a text that ends with a line feed.  After a carriage return the
line feed that is still to come has been written already. -/
theorem fed_linesFrom {cs line : List Char} {afterReturn : Bool} (hplain : strayEnds cs = 0)
    (hlast : cs.getLast? = some '\n' ∨ cs = [] ∧ line = [])
    (hreturn : afterReturn = true → cs.head? = some '\n' ∧ line = []) :
    (if afterReturn then ['\n'] else []) ++ fed (linesFrom line afterReturn cs) =
      line.reverse ++ unified cs := by
  induction cs generalizing line afterReturn with
  | nil =>
      have hfalse : afterReturn = false := Bool.eq_false_iff.2 fun h => by simpa using hreturn h
      have hempty : line = [] := by simpa using hlast
      simp [hfalse, hempty, linesFrom, fed, unified]
  | cons c cs ih =>
      rw [strayEnds, Nat.add_eq_zero_iff] at hplain
      have hrest := getLast?_of_cons hlast
      have hfresh : fed (linesFrom [] false cs) = unified cs := by
        have h := @ih [] false hplain.2 (hrest.imp_right fun h => ⟨h.1, rfl⟩) (by simp)
        simpa using h
      cases afterReturn with
      | true =>
          obtain ⟨hc, rfl⟩ := hreturn rfl
          obtain rfl : c = '\n' := by simpa using hc
          simpa [linesFrom, unified_cons_of_ne] using hfresh
      | false =>
          have hstart : linesFrom line false (c :: cs) =
              if isLineEnd c then String.ofList line.reverse :: linesFrom [] (c == '\r') cs
              else linesFrom (c :: line) false cs := by simp [linesFrom]
          rw [hstart, if_neg Bool.false_ne_true, List.nil_append]
          split
          · rename_i hend
            obtain rfl | ⟨rfl, hhead⟩ : c = '\n' ∨ c = '\r' ∧ cs.head? = some '\n' := by
              have hone := hplain.1
              by_cases hc : c = '\n'
              · exact Or.inl hc
              · by_cases hpair : c = '\r' ∧ cs.head? = some '\n'
                · exact Or.inr hpair
                · rw [if_pos ⟨hend, hc, hpair⟩] at hone
                  cases hone
            · have hfalse : ('\n' == '\r') = false := rfl
              rw [unified_cons_of_ne (by decide), hfalse, ← hfresh]
              simp [fed]
            · have h := @ih [] true hplain.2 (hrest.imp_right fun h => ⟨h.1, rfl⟩)
                fun _ => ⟨hhead, rfl⟩
              rw [unified, if_pos ⟨rfl, hhead⟩]
              simpa [fed] using h
          · rename_i hend
            have hne : c ≠ '\r' ∧ c ≠ '\n' :=
              ⟨by rintro rfl; exact hend rfl, by rintro rfl; exact hend rfl⟩
            have h := @ih (c :: line) false hplain.2 (hrest.imp_right fun h => absurd h.2 hne.2)
              (by simp)
            rw [unified_cons_of_ne hne.1]
            simpa using h

/-- **The first lines are the whole front just when it has no stray line end.** -/
theorem fed_take_lines_eq_iff {s : String} {n : Nat} (h : n ≤ countFeeds s) :
    fed ((lines s).take n) = unified (throughFeeds s.toList n) ↔
      strayEnds (throughFeeds s.toList n) = 0 := by
  have hlength := length_lines_throughFeeds h
  rw [lines, String.toList_ofList] at hlength
  rw [take_lines, lines, String.toList_ofList]
  constructor
  · intro heq
    refine strayEnds_eq_zero_of_unified fun c hc => ?_
    rw [← heq, fed, List.mem_flatMap] at hc
    obtain ⟨l, hl, hc⟩ := hc
    rcases List.mem_append.1 hc with hc | hc
    · exact Or.inr (not_isLineEnd_of_mem_linesFrom (by simp) l (List.mem_of_mem_take hl) c hc)
    · exact Or.inl (List.mem_singleton.1 hc)
  · intro hplain
    have hall := @fed_linesFrom _ [] false hplain
      ((getLast?_throughFeeds h).symm.imp_right fun hnil => ⟨hnil, rfl⟩) (by simp)
    rw [List.take_of_length_le (by omega)]
    simpa using hall

end PhpAudit.Text
