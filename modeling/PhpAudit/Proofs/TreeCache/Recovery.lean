/-
**What is parsed again when a text is faulty.**

When a parser reports faults, the text in front of the first faulty line is parsed once more, with a
remark in place of the rest.  A parser numbers its lines by line feeds, but the front is cut by all
kinds of line ends.  So nothing of the faulty line or behind it is ever parsed again, but the front
is parsed as a whole only when it has no stray line end; each of these, such as a form feed, pushes
a line out at the end.

Main definitions:

* `Text.HasLine` — the lines of a text, numbered by line feeds;
* `Grammar.ByFeeds` — a parser that reports its faults on lines of the text.

Main results:

* `Native.grammar_byFeeds`, `Script.linesGrammar_byFeeds` — the parsers do so;
* `TreeCache.recovery_covers_front_iff` — **the second parse**: its text, and the tree and the
  faults of the file.
-/

import PhpAudit.Proofs.Text.Lines
import PhpAudit.Script.Trees
import PhpAudit.TreeCache.Parse

set_option autoImplicit false

namespace PhpAudit

/-- The lines of a text, numbered by line feeds from one. -/
def Text.HasLine (text : String) (line : Int) : Prop :=
  1 ≤ line ∧ line ≤ Text.countFeeds text + 1

/-- A parser that reports faults on lines of the text, and gives up on one of them. -/
structure Grammar.ByFeeds (g : Grammar) : Prop where
  fault : ∀ {text : String} {tree : Tree} {faults : List SyntaxFault},
    g.parse text = .ok (tree, faults) → ∀ f ∈ faults, Text.HasLine text f.line
  refusal : ∀ {text message : String} {line : Int},
    g.parse text = .error (.refused message line) → line ≤ Text.countFeeds text + 1

/-! ### Concrete trees -/

namespace Native

theorem beq_ten_eq_false {k : Nat} (hlow : 128 ≤ k) (hhigh : k < 256) :
    (UInt8.ofNat k == 10) = false := by
  refine beq_eq_false_iff_ne.2 fun h => ?_
  have hk := congrArg UInt8.toNat h
  rw [UInt8.toNat_ofNat_of_lt' hhigh] at hk
  have : (10 : UInt8).toNat = 10 := rfl
  omega

/-- A byte of ten is a line feed and no part of another character: all bytes of a longer one are at
least 128. -/
theorem countP_utf8EncodeChar (c : Char) :
    (String.utf8EncodeChar c).countP (· == 10) = if c == '\n' then 1 else 0 := by
  have hfeed : c = '\n' ↔ c.val.toNat = 10 := by
    rw [← Char.val_inj, ← UInt32.toNat_inj]
    rfl
  simp only [String.utf8EncodeChar]
  split
  · rename_i hshort
    have hbyte : (UInt8.ofNat c.val.toNat == 10) = (c == '\n') := by
      rw [Bool.eq_iff_iff, beq_iff_eq, beq_iff_eq, hfeed, ← UInt8.toNat_inj,
        UInt8.toNat_ofNat_of_lt' (Nat.lt_of_le_of_lt hshort (by decide))]
      rfl
    rw [List.countP_singleton, hbyte]
  · have hne : (c == '\n') = false := beq_eq_false_iff_ne.2 fun h => by
      have := hfeed.1 h
      omega
    rw [hne]
    split
    · simp (disch := omega) only [List.countP_cons, List.countP_nil, beq_ten_eq_false]
      rfl
    · split
      · simp (disch := omega) only [List.countP_cons, List.countP_nil, beq_ten_eq_false]
        rfl
      · simp (disch := omega) only [List.countP_cons, List.countP_nil, beq_ten_eq_false]
        rfl

theorem countP_toUTF8 (s : String) :
    s.toUTF8.data.toList.countP (· == 10) = Text.countFeeds s := by
  have hbytes : s.toUTF8.data.toList = s.toList.flatMap String.utf8EncodeChar := by
    rw [String.toUTF8, ← String.utf8Encode_toList, List.utf8Encode, List.toList_data_toByteArray]
  rw [hbytes, Text.countFeeds]
  induction s.toList with
  | nil => rfl
  | cons c cs ih =>
      rw [List.flatMap_cons, List.countP_append, ih, countP_utf8EncodeChar, List.countP_cons,
        Nat.add_comm]

/-- No point lies on a row behind the last line feed. -/
theorem row_le_of_mem_foldl {bytes : List UInt8} {points : Array Point} {p : Point}
    (h : ∀ q ∈ points, q.row ≤ p.row) :
    ∀ q ∈ (bytes.foldl (fun (acc : Array Point × Point) b =>
        let p := acc.2.next b
        (acc.1.push p, p)) (points, p)).1, q.row ≤ p.row + bytes.countP (· == 10) := by
  induction bytes generalizing points p with
  | nil => simpa using h
  | cons b bytes ih =>
      have hnext : (p.next b).row = p.row + if b == 10 then 1 else 0 := by
        rw [Point.next]
        split <;> rfl
      intro q hq
      have hpoints : ∀ q ∈ points.push (p.next b), q.row ≤ (p.next b).row := by
        intro q hq
        rcases Array.mem_push.1 hq with hold | rfl
        · have := h q hold
          omega
        · exact Nat.le_refl _
      have := ih hpoints q hq
      rw [List.countP_cons]
      omega

theorem point_row_le (s : String) (offset : Nat) :
    ((Source.ofText s).point offset).row ≤ Text.countFeeds s := by
  rw [Source.point, Array.getD]
  split
  · rename_i hin
    have h := @row_le_of_mem_foldl s.toUTF8.data.toList #[{}] {} (by simp)
    rw [countP_toUTF8, Array.foldl_toList] at h
    have hmem : (Source.ofText s).points[offset] ∈ (Source.ofText s).points :=
      Array.getElem_mem hin
    exact Nat.le_trans (h _ hmem) (Nat.le_of_eq (Nat.zero_add _))
  · exact Nat.zero_le _

theorem fault?_hasLine {s : String} {n : Native} {f : SyntaxFault}
    (h : fault? (Source.ofText s) n = some f) : Text.HasLine s f.line := by
  have hrow := point_row_le s n.startByte
  have hline : f.line = ((Source.ofText s).point n.startByte).row + 1 := by
    simp only [fault?] at h
    split at h
    · rw [← Option.some.inj h]
    · split at h
      · rw [← Option.some.inj h]
      · cases h
  rw [Text.HasLine, hline]
  omega

/-- The conversion reports the faults of nodes only. -/
theorem run_faults {source : Source} {P : SyntaxFault → Prop}
    (hP : ∀ n f, fault? source n = some f → P f) {s : State} (hs : ∀ f ∈ s.faults, P f)
    (frames : List Frame) : ∀ f ∈ (run source s frames).2.faults, P f := by
  have hclose : ∀ (s : State) (n : Native) (built : Option Node), (∀ f ∈ s.faults, P f) →
      ∀ f ∈ (s.close source n built).faults, P f := by
    intro s n built hs f hf
    simp only [State.close] at hf
    split at hf
    · rename_i g hg
      rcases List.mem_cons.1 hf with rfl | hold
      · exact hP n f hg
      · exact hs f hold
    · exact hs f hf
  fun_induction run source s frames with
  | case1 => exact hs
  | case2 s n done marks child more rest ih => exact ih hs
  | case3 => exact hclose _ _ _ hs
  | case4 s n done marks parent outer built ih =>
      have hbuilt : built = build? source n done.reverse marks := by simp [built]
      rw [hbuilt] at ih
      exact ih (hclose _ _ _ hs)

theorem parse_hasLine (s : String) (n : Native) : ∀ f ∈ (parse s n).2, Text.HasLine s f.line := by
  intro f hf
  have hconverted : f ∈ (convert (Source.ofText s) n).2.1 := (List.mem_mergeSort.1 hf)
  rw [convert, List.mem_reverse] at hconverted
  exact run_faults (P := fun f => Text.HasLine s f.line) (fun _ _ h => fault?_hasLine h) (by simp) _
    f hconverted

/-- **A parser with concrete trees numbers lines by line feeds.** -/
theorem grammar_byFeeds (lookup : String → Option Native) : (grammar lookup).ByFeeds := by
  constructor
  · intro text tree faults h
    simp only [grammar] at h
    split at h
    · rename_i n _
      have hfaults : (parse text n).2 = faults := by rw [Except.ok.inj h]
      rw [← hfaults]
      exact parse_hasLine text n
    · cases h
  · intro text message line h
    simp only [grammar] at h
    split at h
    · cases h
    · cases h

end Native

/-! ### Lines as a language -/

namespace Script

theorem length_feedLines (s : String) : (feedLines s).length = Text.countFeeds s + 1 := by
  rw [feedLines, List.length_map, Text.countFeeds, List.splitOn_eq_splitOnP]
  induction s.toList with
  | nil => rfl
  | cons c cs ih =>
      rw [List.splitOnP_cons_eq_if_modifyHead, List.countP_cons]
      split
      · rw [List.length_cons, ih]
      · rw [List.length_modifyHead, ih]

theorem startLine_of_mem_lineNodes {number offset : Nat} {ls : List String} {n : Node}
    (h : n ∈ lineNodes number offset ls) :
    (number : Int) ≤ n.span.startLine ∧ n.span.startLine < number + ls.length := by
  induction ls generalizing number offset with
  | nil => cases h
  | cons l ls ih =>
      rw [List.length_cons]
      rcases List.mem_cons.1 h with rfl | h
      · exact ⟨Int.le_refl _, by simp only [lineNode]; omega⟩
      · obtain ⟨hlow, hhigh⟩ := ih h
        omega

/-- **The grammar of lines numbers lines by line feeds.** -/
theorem linesGrammar_byFeeds : linesGrammar.ByFeeds := by
  constructor
  · intro text tree faults h f hf
    have hfaults : (linesTree text).2 = faults := by rw [Except.ok.inj h]
    rw [← hfaults] at hf
    obtain ⟨n, hn, hfault⟩ := List.mem_filterMap.1 hf
    obtain ⟨hlow, hhigh⟩ := startLine_of_mem_lineNodes hn
    rw [length_feedLines] at hhigh
    have hline : f.line = n.span.startLine := by
      simp only [lineFault?] at hfault
      split at hfault
      · rw [← Option.some.inj hfault]
      · cases hfault
    rw [Text.HasLine, hline]
    omega
  · intro text message line h
    cases h

end Script

/-! ### The second parse -/

theorem SourceFile.mem_of_least? {xs : List Int} {x : Int} (h : least? xs = some x) : x ∈ xs := by
  cases xs with
  | nil => cases h
  | cons y ys =>
      rw [← Option.some.inj h]
      clear h
      induction ys generalizing y with
      | nil => exact List.mem_singleton.2 rfl
      | cons z ys ih =>
          rw [List.foldl_cons]
          rcases List.mem_cons.1 (ih (min y z)) with hmin | hmem
          · rw [hmin]
            rcases Int.le_total y z with hle | hle
            · rw [Int.min_eq_left hle]
              exact List.mem_cons_self
            · rw [Int.min_eq_right hle]
              exact List.mem_cons_of_mem _ List.mem_cons_self
          · exact List.mem_cons_of_mem _ (List.mem_cons_of_mem _ hmem)

namespace TreeCache

variable {τ : Type}

/-- Every fault of the first attempt is on a line of the text; a parser that breaks down counts as a
fault on the first line. -/
theorem firstAttempt_hasLine {g : Grammar} (hg : g.ByFeeds) (content : String) :
    ∀ f ∈ (firstAttempt g content).2.1, Text.HasLine content f.line := by
  simp only [firstAttempt]
  split
  · rename_i h
    exact hg.fault h
  · rename_i h
    have := hg.refusal h
    simp only [List.mem_singleton, forall_eq, Text.HasLine]
    omega
  · simp only [List.mem_singleton, forall_eq, Text.HasLine]
    omega

theorem prefixText_succ (content : String) (n : Nat) :
    prefixText content (n + 1) =
      "\n".intercalate ((Text.lines content).take n ++ [sentinel]) := by
  have hcount : (max 0 ((n : Int) + 1 - 1)).toNat = n := by omega
  rw [prefixText, hcount]

/-- The text that is parsed again, as characters. -/
theorem toList_prefixText (content : String) (n : Nat) :
    (prefixText content (n + 1)).toList =
      Text.fed ((Text.lines content).take n) ++ sentinel.toList := by
  have hjoin : ∀ ls : List String, ['\n'].intercalate ((ls ++ [sentinel]).map String.toList) =
      Text.fed ls ++ sentinel.toList := by
    intro ls
    induction ls with
    | nil => simp [Text.fed]
    | cons l ls ih =>
        have hne : (ls ++ [sentinel]).map String.toList ≠ [] := by simp
        rw [List.cons_append, List.map_cons, List.intercalate_cons_of_ne_nil hne, ih]
        simp [Text.fed]
  rw [prefixText_succ, String.toList_intercalate]
  exact hjoin _

/-- **The text that is parsed again is all of the front just when it has no stray line end.** -/
theorem prefixText_eq_iff {content : String} {n : Nat} (h : n ≤ Text.countFeeds content) :
    prefixText content (n + 1) =
        String.ofList (Text.unified (Text.throughFeeds content.toList n)) ++ sentinel ↔
      Text.strayEnds (Text.throughFeeds content.toList n) = 0 := by
  rw [← Text.fed_take_lines_eq_iff h, ← String.toList_inj, toList_prefixText, String.toList_append,
    String.toList_ofList, List.append_cancel_right_eq]

/-- What becomes of the tree when there are faults. -/
theorem parseContent_of_faulty {g : Grammar} {content : String} {line : Int}
    (h : SourceFile.least? ((firstAttempt g content).2.1.map SyntaxFault.line) = some line) :
    (parseContent g content).1 = (recover g content line (firstAttempt g content).1).1 := by
  simp only [parseContent, h]

theorem parseContent_faults (g : Grammar) (content : String) :
    (parseContent g content).2.1 = (firstAttempt g content).2.1 := by
  simp only [parseContent]
  split <;> rfl

/-- **The second parse of a faulty text.**  Let the first fault be on line `n + 1`, by line feeds.
What is parsed again are the first `n` lines of the front of the text through its `n`-th line feed.
The front has one more line for each stray line end, so it is parsed as a whole just when there is
none.  The file keeps the faults of the first parse, and its tree, which is that of the second parse
unless that fails as well, is marked. -/
theorem recovery_covers_front_iff {c : TreeCache τ} (hg : c.grammar.ByFeeds)
    (path : String) {content : String} (encoding : String)
    (hfaulty : (firstAttempt c.grammar content).2.1 ≠ []) :
    let file := (c.parseDirect path content encoding).1
    ∃ n : Nat, file.firstFaultLine? = some (n + 1 : Int) ∧ n ≤ Text.countFeeds content ∧
      let front := Text.throughFeeds content.toList n
      let text := prefixText content (n + 1)
      text = "\n".intercalate ((Text.lines (String.ofList front)).take n ++ [sentinel]) ∧
      (Text.lines (String.ofList front)).length = n + Text.strayEnds front ∧
      (text = String.ofList (Text.unified front) ++ sentinel ↔ Text.strayEnds front = 0) ∧
      file.faults = (firstAttempt c.grammar content).2.1 ∧
      file.tree.hasErrors = true ∧ file.tree.isPartial = true ∧
      (∀ tree faults, c.grammar.parse text = .ok (tree, faults) → file.tree = tree.markPartial) ∧
      (∀ e, c.grammar.parse text = .error e →
        file.tree = (firstAttempt c.grammar content).1.markPartial) := by
  intro file
  have hfaults : file.faults = (firstAttempt c.grammar content).2.1 := parseContent_faults _ _
  obtain ⟨line, hleast⟩ : ∃ line, SourceFile.least?
      ((firstAttempt c.grammar content).2.1.map SyntaxFault.line) = some line := by
    cases hlist : (firstAttempt c.grammar content).2.1 with
    | nil => exact absurd hlist hfaulty
    | cons f fs => exact ⟨_, rfl⟩
  have hline : file.firstFaultLine? = some line := by rwa [SourceFile.firstFaultLine?, hfaults]
  obtain ⟨f, hf, hf'⟩ := List.mem_map.1 (SourceFile.mem_of_least? hleast)
  obtain ⟨hlow, hhigh⟩ := firstAttempt_hasLine hg content f hf
  obtain ⟨n, rfl⟩ : ∃ n : Nat, line = n + 1 := ⟨(line - 1).toNat, by omega⟩
  have hfeeds : n ≤ Text.countFeeds content := by omega
  have htree : file.tree =
      (recover c.grammar content (n + 1) (firstAttempt c.grammar content).1).1 :=
    parseContent_of_faulty hleast
  refine ⟨n, hline, hfeeds, ?_, Text.length_lines_throughFeeds hfeeds, prefixText_eq_iff hfeeds,
    hfaults, ?_, ?_, ?_, ?_⟩
  · rw [prefixText_succ, Text.take_lines]
  · rw [htree, recover]
    split <;> rfl
  · rw [htree, recover]
    split <;> rfl
  · intro tree faults hparse
    simp only [htree, recover, hparse]
  · intro e hparse
    simp only [htree, recover, hparse]

/-- A cache for the language of lines. -/
def lineCache : TreeCache Float :=
  { grammar := Script.linesGrammar, capacity := 10, batch := 1, batchShown := .int 1 }

/-- A carriage return in front of a line feed does no harm. -/
theorem recovery_covers_two_lines :
    let content := "one\r\ntwo\n@@"
    let file := (lineCache.parseDirect "a.php" content "utf-8").1
    lineCache.grammar.ByFeeds ∧ (firstAttempt lineCache.grammar content).2.1 ≠ [] ∧
      file.firstFaultLine? = some 3 ∧ file.tree.hasErrors = true ∧ file.tree.isPartial = true ∧
      prefixText content 3 = "one\ntwo\n" ++ sentinel := by
  intro content file
  have hg : lineCache.grammar.ByFeeds := Script.linesGrammar_byFeeds
  have hfaulty : (firstAttempt lineCache.grammar content).2.1 ≠ [] := by decide +kernel
  have hthree : file.firstFaultLine? = some 3 := by decide +kernel
  obtain ⟨n, hline, -, -, -, hfront, -, herrors, hpartial, -⟩ :=
    recovery_covers_front_iff hg "a.php" "utf-8" hfaulty
  obtain rfl : n = 2 := by
    have := Option.some.inj (hline.symm.trans hthree)
    omega
  refine ⟨hg, hfaulty, hthree, herrors, hpartial, (hfront.2 (by decide +kernel)).trans ?_⟩
  decide +kernel

/-- A form feed in the front pushes text out of it. -/
theorem form_feed_pushes_text_out :
    let content := "one\x0ctwo\n@@"
    let file := (lineCache.parseDirect "a.php" content "utf-8").1
    file.firstFaultLine? = some 2 ∧
      String.ofList (Text.throughFeeds content.toList 1) = "one\x0ctwo\n" ∧
      prefixText content 2 = "one\n" ++ sentinel ∧
      file.tree.root.children.map (fun n => n.text) = ["one", sentinel] ∧
      prefixText content 2 ≠
        String.ofList (Text.unified (Text.throughFeeds content.toList 1)) ++ sentinel := by
  decide +kernel

end TreeCache

end PhpAudit
