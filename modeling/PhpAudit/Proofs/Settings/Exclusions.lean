/-
Which files an exclusion leaves out.

A pattern is matched with the text of a whole path, where its star runs over slashes as well, with
the last part of the path, and once more after any start that ends in a slash.  For the two forms of
pattern in use this comes to a simple test of the parts: `name/*` leaves out what has a folder of
that name on the way to it, at any depth, and `*.suffix` leaves out what has that ending.

* `Glob.matches_append`, `Glob.matches_star` — patterns that begin with plain text or with a star;
* `Path.Proper`, `Path.proper_ofText` — paths whose parts hold no slash, as all that are read from
  a text;
* `Path.mem_dropLast_splitOn_text`, `Path.suffix_text_iff` — the parts of a path seen in its text;
* `Settings.Exclusion`, `Exclusion.pattern`, `Exclusion.covers` — the two forms, and their tests;
* `Settings.patternExcludes_pattern` — **the pattern leaves out what the test covers**;
* `Settings.folder_exclusion_reaches_every_depth` — **`name/*` in settings leaves out what is below
  a folder of that name, at any depth, and nothing else**.
-/

import PhpAudit.Proofs.Settings.Admitted

set_option autoImplicit false

namespace PhpAudit

/-! ### Patterns -/

namespace Glob

/-- Text that a pattern takes as it stands. -/
def Plain (cs : List Char) : Prop :=
  ∀ c ∈ cs, c ≠ '*' ∧ c ≠ '?' ∧ c ≠ '['

instance (cs : List Char) : Decidable (Plain cs) :=
  List.decidableBAll (fun c => c ≠ '*' ∧ c ≠ '?' ∧ c ≠ '[') cs

theorem parse_append {front : String} (h : Plain front.toList) (rest : String) :
    parse (front ++ rest) = front.toList.map .literal ++ parse rest := by
  rw [parse, String.toList_append]
  generalize front.toList = cs at h
  induction cs with
  | nil => rfl
  | cons c cs ih =>
      obtain ⟨hstar, hany, hclass⟩ := h c List.mem_cons_self
      rw [List.cons_append, List.length_cons, parseFor, if_neg (by simpa using hstar),
        if_neg (by simpa using hany), if_neg (by simpa using hclass),
        ih fun d hd => h d (List.mem_cons_of_mem c hd)]
      rfl

theorem parse_star (rest : String) : parse ("*" ++ rest) = .star :: parse rest := by
  rw [parse, String.toList_append]
  rfl

theorem someSuffix_iff {test : List Char → Bool} {cs : List Char} :
    someSuffix test cs = true ↔ ∃ t, t <:+ cs ∧ test t = true := by
  induction cs with
  | nil => simp [someSuffix]
  | cons c cs ih => simp [someSuffix, ih, List.suffix_cons_iff, or_and_right, exists_or]

theorem matchesPieces_literals {front : List Char} {ps : List Piece} {cs : List Char} :
    matchesPieces (front.map .literal ++ ps) cs = true ↔
      ∃ t, cs = front ++ t ∧ matchesPieces ps t = true := by
  induction front generalizing cs with
  | nil => simp
  | cons c front ih =>
      cases cs with
      | nil => simp [matchesPieces]
      | cons d cs =>
          simp only [List.map_cons, List.cons_append, matchesPieces, Piece.allows, Bool.and_eq_true,
            beq_iff_eq, ih, List.cons.injEq]
          constructor
          · rintro ⟨rfl, t, rfl, ht⟩
            exact ⟨t, ⟨rfl, rfl⟩, ht⟩
          · rintro ⟨t, ⟨rfl, rfl⟩, ht⟩
            exact ⟨rfl, t, rfl, ht⟩

/-- A pattern with plain text in front matches what starts with this text, if its rest matches the
rest. -/
theorem matches_append {front : String} (h : Plain front.toList) {rest : String} {cs : List Char} :
    matchesPieces (parse (front ++ rest)) cs = true ↔
      ∃ t, cs = front.toList ++ t ∧ matchesPieces (parse rest) t = true := by
  rw [parse_append h, matchesPieces_literals]

/-- A pattern with a star in front matches if its rest matches some end of the text. -/
theorem matches_star {rest : String} {cs : List Char} :
    matchesPieces (parse ("*" ++ rest)) cs = true ↔
      ∃ t, t <:+ cs ∧ matchesPieces (parse rest) t = true := by
  rw [parse_star, matchesPieces, someSuffix_iff]

theorem matches_empty {cs : List Char} : matchesPieces (parse "") cs = true ↔ cs = [] :=
  List.isEmpty_iff

/-- Plain text and a star match what starts with this text. -/
theorem matches_front {front : String} (h : Plain front.toList) {cs : List Char} :
    matchesPieces (parse (front ++ "*")) cs = true ↔ front.toList <+: cs := by
  rw [matches_append h, show "*" = "*" ++ "" from rfl]
  simp only [matches_star, matches_empty, exists_eq_right, List.nil_suffix, and_true]
  exact exists_congr fun t => eq_comm

/-- A star and plain text match what ends with this text. -/
theorem matches_back {back : String} (h : Plain back.toList) {cs : List Char} :
    matchesPieces (parse ("*" ++ back)) cs = true ↔ back.toList <:+ cs := by
  have hback : ∀ t, matchesPieces (parse back) t = true ↔ t = back.toList := by
    intro t
    rw [← String.append_empty (s := back), matches_append h]
    simp [matches_empty]
  simp [matches_star, hback]

end Glob

/-! ### Parts of a path in its text -/

/-- The pieces of a text between slashes hold no slash. -/
theorem not_mem_of_mem_splitOn {c : Char} {cs piece : List Char} (h : piece ∈ cs.splitOn c) :
    c ∉ piece := by
  induction cs generalizing piece with
  | nil => simp_all [List.splitOn_nil]
  | cons d cs ih =>
      rw [List.splitOn_cons_eq_if_modifyHead] at h
      obtain ⟨first, rest, heq⟩ := List.exists_cons_of_ne_nil (List.splitOn_ne_nil c cs)
      rw [heq] at h ih
      split at h
      · rcases List.mem_cons.1 h with rfl | h
        · exact List.not_mem_nil
        · exact ih h
      · rename_i hd
        rcases List.mem_cons.1 h with rfl | h
        · simpa [List.mem_cons, not_or] using
            ⟨fun heq => hd (beq_iff_eq.2 heq.symm), ih List.mem_cons_self⟩
        · exact ih (List.mem_cons_of_mem first h)

/-- A piece that others follow stands at the start or after a slash, and before a slash. -/
theorem prefix_or_infix_intercalate (n : List Char) (before : List (List Char))
    {after : List (List Char)} (hne : after ≠ []) :
    n ++ ['/'] <+: ['/'].intercalate (before ++ n :: after) ∨
      '/' :: (n ++ ['/']) <:+: ['/'].intercalate (before ++ n :: after) := by
  -- one piece in front at a time: the first of them may be the start, none of the others is
  induction before with
  | nil =>
      rw [List.nil_append, List.intercalate_cons_of_ne_nil hne]
      exact .inl (List.prefix_append _ _)
  | cons piece before ih =>
      rw [List.cons_append, List.intercalate_cons_of_ne_nil (by simp), List.append_assoc]
      refine .inr ?_
      rcases ih with hprefix | hinfix
      · have hslash := (List.prefix_append_right_inj ['/']).2 hprefix
        exact hslash.isInfix.trans (List.suffix_append piece _).isInfix
      · rw [← List.append_assoc]
        exact hinfix.trans (List.suffix_append _ _).isInfix

theorem mem_dropLast_splitOn_iff {n cs : List Char} (h : '/' ∉ n) :
    n ∈ (cs.splitOn '/').dropLast ↔ n ++ ['/'] <+: cs ∨ '/' :: (n ++ ['/']) <:+: cs := by
  constructor
  · intro hmem
    obtain ⟨before, after, heq⟩ := List.append_of_mem hmem
    have hcs : ['/'].intercalate (cs.splitOn '/') = cs := List.intercalate_splitOn '/'
    rw [← List.dropLast_concat_getLast (List.splitOn_ne_nil '/' cs), heq, List.append_assoc,
      List.cons_append] at hcs
    rw [← hcs]
    exact prefix_or_infix_intercalate n before (by simp)
  · rintro (⟨t, rfl⟩ | ⟨s, t, rfl⟩)
    · rw [List.append_assoc, List.singleton_append, List.splitOn_append_cons_self_of_not_mem h,
        List.dropLast_cons_of_ne_nil (List.splitOn_ne_nil _ _)]
      exact List.mem_cons_self
    · have heq : s ++ '/' :: (n ++ ['/']) ++ t = s ++ '/' :: (n ++ '/' :: t) := by simp
      rw [heq, List.splitOn_append_cons_self, List.splitOn_append_cons_self_of_not_mem h,
        List.dropLast_append_of_ne_nil (List.cons_ne_nil _ _),
        List.dropLast_cons_of_ne_nil (List.splitOn_ne_nil _ _)]
      exact List.mem_append_right _ List.mem_cons_self

/-- What ends a text and holds no slash ends the last piece of it. -/
theorem suffix_append_slash_iff {u front last : List Char} (h : '/' ∉ u) :
    u <:+ front ++ '/' :: last ↔ u <:+ last := by
  have hlast : last <:+ front ++ '/' :: last :=
    (List.suffix_cons '/' last).trans (List.suffix_append front _)
  constructor
  · intro hu
    rcases List.suffix_or_suffix_of_suffix hu (List.suffix_append front ('/' :: last)) with
      hle | hge
    · rcases List.suffix_cons_iff.1 hle with rfl | hle
      · exact absurd List.mem_cons_self h
      · exact hle
    · exact absurd (hge.subset List.mem_cons_self) h
  · exact fun hu => hu.trans hlast

namespace Path

/-- A path with a root of at most two slashes and parts without slashes. -/
structure Proper (p : Path) : Prop where
  root : p.root = "" ∨ p.root = "/" ∨ p.root = "//"
  parts : ∀ part ∈ p.parts, '/' ∉ part.toList

theorem proper_ofText (s : String) : (ofText s).Proper where
  root := by
    unfold ofText rootOf
    split <;> simp
  parts := by
    intro part hpart
    obtain ⟨piece, hpiece, rfl⟩ := List.mem_map.1 (List.mem_filter.1 hpart).1
    rw [String.toList_ofList]
    exact not_mem_of_mem_splitOn hpiece

theorem text_of_ne_nil {p : Path} (h : p.parts ≠ []) :
    p.text = p.root ++ "/".intercalate p.parts := by
  rw [text, if_neg]
  simp [h]

/-- The pieces of the text between slashes are the parts, after an empty piece for each slash of
the root. -/
theorem splitOn_text {p : Path} (hp : p.Proper) (hne : p.parts ≠ []) :
    ∃ lead : List (List Char), (∀ l ∈ lead, l = []) ∧
      p.text.toList.splitOn '/' = lead ++ p.parts.map String.toList := by
  have hparts : ("/".intercalate p.parts).toList.splitOn '/' = p.parts.map String.toList := by
    rw [String.toList_intercalate]
    refine List.splitOn_intercalate '/' (fun l hl => ?_) (by simpa using hne)
    obtain ⟨part, hpart, rfl⟩ := List.mem_map.1 hl
    exact hp.parts part hpart
  rw [text_of_ne_nil hne, String.toList_append]
  rcases hp.root with h | h | h
  · exact ⟨[], by simp, by rw [h, ← hparts]; rfl⟩
  · exact ⟨[[]], by simp, by rw [h, ← hparts]; exact List.splitOn_append_cons_self [] _⟩
  · refine ⟨[[], []], by simp, ?_⟩
    rw [h, ← hparts]
    exact (List.splitOn_append_cons_self [] _).trans
      (congrArg ([] :: ·) (List.splitOn_append_cons_self [] _))

/-- A name is a piece of the text that another follows just if it is a part that another follows. -/
theorem mem_dropLast_splitOn_text {p : Path} (hp : p.Proper) {n : String} (hn : n ≠ "") :
    n.toList ∈ (p.text.toList.splitOn '/').dropLast ↔ n ∈ p.parts.dropLast := by
  have hnil : n.toList ≠ [] := by simpa using hn
  by_cases hne : p.parts = []
  · rcases hp.root with h | h | h <;>
      simp [text, hne, h, List.splitOn_cons_eq_if_modifyHead, List.splitOn_nil, hn]
  · obtain ⟨lead, hlead, heq⟩ := splitOn_text hp hne
    rw [heq, List.dropLast_append_of_ne_nil (by simpa using hne), List.mem_append,
      ← List.map_dropLast, List.mem_map]
    constructor
    · rintro (h | ⟨part, hpart, h⟩)
      · exact absurd (hlead _ h) hnil
      · rwa [← String.toList_injective h]
    · exact fun h => .inr ⟨n, h, rfl⟩

/-- The text is the last part, perhaps after a slash. -/
theorem text_eq_name_or {p : Path} (hp : p.Proper) (hne : p.parts ≠ []) :
    p.text = p.name ∨ ∃ front, p.text = front ++ "/" ++ p.name := by
  have hname : p.name = p.parts.getLast hne := by rw [name, List.getLast?_eq_some_getLast hne]; rfl
  rw [text_of_ne_nil hne, ← List.dropLast_concat_getLast hne, ← hname]
  by_cases hinit : p.parts.dropLast = []
  · rw [hinit, List.nil_append, String.intercalate_singleton]
    rcases hp.root with h | h | h <;> rw [h]
    · exact .inl String.empty_append
    · exact .inr ⟨"", rfl⟩
    · exact .inr ⟨"/", rfl⟩
  · refine .inr ⟨p.root ++ "/".intercalate p.parts.dropLast, ?_⟩
    rw [String.intercalate_append_of_ne_nil hinit (List.cons_ne_nil _ _),
      String.intercalate_singleton]
    simp only [String.append_assoc]

/-- What holds no slash ends the text just if it ends the last part. -/
theorem suffix_text_iff {p : Path} (hp : p.Proper) (hne : p.parts ≠ []) {u : List Char}
    (hu : '/' ∉ u) : u <:+ p.text.toList ↔ u <:+ p.name.toList := by
  rcases text_eq_name_or hp hne with h | ⟨front, h⟩
  · rw [h]
  · rw [h, String.toList_append, String.toList_append, List.append_assoc]
    exact suffix_append_slash_iff hu

/-- The last part holds no slash. -/
theorem Proper.name {p : Path} (hp : p.Proper) : '/' ∉ p.name.toList := by
  rw [Path.name]
  cases h : p.parts.getLast? with
  | none => exact List.not_mem_nil
  | some part => exact hp.parts part (List.mem_of_getLast? h)

end Path

/-! ### Exclusions -/

namespace Settings

/-- A text without slashes that a pattern takes as it stands. -/
structure Word where
  text : String
  plain : Glob.Plain text.toList := by decide
  noSlash : '/' ∉ text.toList := by decide

/-- What a pattern leaves out: all below the folders of a name, or the files of an ending. -/
inductive Exclusion where
  | folder (name : Word) (named : name.text ≠ "" := by decide)
  | ending (suffix : Word)

namespace Exclusion

/-- The pattern of an exclusion. -/
def pattern : Exclusion → String
  | folder name _ => name.text ++ "/*"
  | ending suffix => "*." ++ suffix.text

/-- Whether the parts of a path show that it is left out. -/
def covers (path : Path) : Exclusion → Bool
  | folder name _ => path.parts.dropLast.contains name.text
  | ending suffix => ('.' :: suffix.text.toList).isSuffixOf path.name.toList

end Exclusion

/-- The pattern `name/*` leaves out what has a folder of this name on the way to it. -/
theorem patternExcludes_folder {p : Path} (hp : p.Proper) (name : Word) (hn : name.text ≠ "") :
    patternExcludes p (name.text ++ "/*") = true ↔ name.text ∈ p.parts.dropLast := by
  have hslash : Glob.Plain "/".toList := by simp [Glob.Plain]
  have hfront : Glob.Plain (name.text ++ "/").toList := by
    rw [String.toList_append]
    exact List.forall_mem_append.2 ⟨name.plain, hslash⟩
  have hwithin : Glob.Plain ("/" ++ (name.text ++ "/")).toList := by
    rw [String.toList_append]
    exact List.forall_mem_append.2 ⟨hslash, hfront⟩
  have hstart : ∀ text, Glob.accepts (name.text ++ "/*") text = true ↔
      name.text.toList ++ ['/'] <+: text.toList := by
    intro text
    rw [Glob.accepts, show name.text ++ "/*" = name.text ++ "/" ++ "*" by
      rw [String.append_assoc]; rfl, Glob.matches_front hfront, String.toList_append]
    rfl
  have hinside : Glob.accepts ("*/" ++ (name.text ++ "/*")) p.text = true ↔
      '/' :: (name.text.toList ++ ['/']) <:+: p.text.toList := by
    have hpattern : "*/" ++ (name.text ++ "/*") = "*" ++ ("/" ++ (name.text ++ "/") ++ "*") := by
      simp only [String.append_assoc]
      rfl
    rw [Glob.accepts, hpattern, Glob.matches_star, List.infix_iff_prefix_suffix]
    simp only [Glob.matches_front hwithin, String.toList_append, and_comm]
    rfl
  -- the last part holds no slash, so that the pattern never matches it
  have hname : Glob.accepts (name.text ++ "/*") p.name = false := by
    rw [Bool.eq_false_iff, Ne, hstart]
    intro h
    exact hp.name (h.subset (List.mem_append_right _ List.mem_cons_self))
  rw [patternExcludes, hname, Bool.or_false, Bool.or_eq_true, hstart, hinside,
    ← mem_dropLast_splitOn_iff name.noSlash, Path.mem_dropLast_splitOn_text hp hn]

/-- The pattern `*.suffix` leaves out what has this ending. -/
theorem patternExcludes_ending {p : Path} (hp : p.Proper) (hne : p.parts ≠ []) (suffix : Word) :
    patternExcludes p ("*." ++ suffix.text) = true ↔
      '.' :: suffix.text.toList <:+ p.name.toList := by
  have hback : Glob.Plain ("." ++ suffix.text).toList := by
    rw [String.toList_append]
    exact List.forall_mem_append.2 ⟨by simp, suffix.plain⟩
  have hstart : "*." ++ suffix.text = "*" ++ ("." ++ suffix.text) := by
    rw [← String.append_assoc]
    rfl
  have hend : ∀ text, Glob.accepts ("*." ++ suffix.text) text = true ↔
      '.' :: suffix.text.toList <:+ text.toList := by
    intro text
    rw [Glob.accepts, hstart, Glob.matches_back hback, String.toList_append]
    rfl
  -- after a slash the pattern asks for more than without
  have hmore : Glob.accepts ("*/" ++ ("*." ++ suffix.text)) p.text = true →
      '.' :: suffix.text.toList <:+ p.text.toList := by
    rw [Glob.accepts, hstart, show "*/" ++ ("*" ++ ("." ++ suffix.text)) =
      "*" ++ ("/" ++ ("*" ++ ("." ++ suffix.text))) by rw [← String.append_assoc]; rfl,
      Glob.matches_star]
    rintro ⟨t, ht, hmatch⟩
    obtain ⟨u, rfl, hrest⟩ := (Glob.matches_append (by simp [Glob.Plain])).1 hmatch
    rw [Glob.matches_back hback, String.toList_append] at hrest
    exact (hrest.trans (List.suffix_append _ u)).trans ht
  have htext := Path.suffix_text_iff hp hne (u := '.' :: suffix.text.toList)
    (by simpa using suffix.noSlash)
  rw [patternExcludes, Bool.or_eq_true, Bool.or_eq_true, hend, hend, htext, or_self]
  exact or_iff_left_of_imp fun h => htext.1 (hmore h)

/-- The pattern of an exclusion leaves out the files that it covers. -/
theorem patternExcludes_pattern {p : Path} (hp : p.Proper) (hne : p.parts ≠ []) (x : Exclusion) :
    patternExcludes p x.pattern = x.covers p := by
  rw [Bool.eq_iff_iff]
  cases x with
  | folder name hn =>
      rw [Exclusion.pattern, patternExcludes_folder hp name hn, Exclusion.covers,
        List.contains_iff_mem]
  | ending suffix =>
      rw [Exclusion.pattern, patternExcludes_ending hp hne, Exclusion.covers,
        List.isSuffixOf_iff_suffix]

theorem anyExcludes_texts (path : Path) (patterns : List String) :
    anyExcludes path (patterns.map .str) = .ok (patterns.any (patternExcludes path)) := by
  induction patterns with
  | nil => rfl
  | cons pattern rest ih =>
      rw [List.map_cons, anyExcludes, ih, List.any_cons]
      cases patternExcludes path pattern <;> rfl

/-- Settings whose patterns are texts leave out what one of them excludes. -/
theorem excludes_texts {s : Settings} {patterns : List String}
    (h : s.exclusionPatterns = .ok (patterns.map .str)) (p : Path) :
    s.excludes p = .ok (patterns.any (patternExcludes p)) := by
  rw [excludes, h]
  exact anyExcludes_texts p patterns

/-- Settings with such exclusions leave out the files that one of them covers. -/
theorem excludes_eq {s : Settings} {exclusions : List Exclusion}
    (h : s.exclusionPatterns = .ok ((exclusions.map Exclusion.pattern).map .str)) {p : Path}
    (hp : p.Proper) (hne : p.parts ≠ []) :
    s.excludes p = .ok (exclusions.any (Exclusion.covers p)) := by
  rw [excludes_texts h, List.any_map]
  exact congrArg (Except.ok ∘ exclusions.any) (funext (patternExcludes_pattern hp hne))

/-! ### Folders at every depth -/

theorem dict_of_entry {v x : Value} {key : String} (h : v.entry key = .ok x) :
    ∃ entries, v = .dict entries := by
  cases v with
  | dict entries => exact ⟨entries, rfl⟩
  | _ => cases h

/-- Patterns that are added stand after those that are there. -/
theorem exclusionPatterns_addExclusions {s : Settings} {patterns : List Value}
    (h : s.exclusionPatterns = .ok patterns) (more : List Value) :
    ∃ s', s.addExclusions (.list more) = .ok s' ∧
      s'.exclusionPatterns = .ok (patterns ++ more) := by
  refine ⟨s.write "exclusions" "patterns" (.list (patterns ++ more)), ?_, ?_⟩
  · rw [addExclusions, h]
    rfl
  · unfold exclusionPatterns at h ⊢
    obtain ⟨_, hpart, h⟩ := of_bind_eq_ok h
    obtain ⟨_, hentry, -⟩ := of_bind_eq_ok h
    obtain ⟨entries, rfl⟩ := dict_of_entry hentry
    obtain ⟨entries, hentries⟩ := isDict_iff.1 ⟨entries, hpart⟩
    have hwritten : (s.write "exclusions" "patterns" (.list (patterns ++ more))).part "exclusions" =
        .ok (.dict (Assoc.put entries "patterns" (.list (patterns ++ more)))) := by
      rw [part_eq, write, hentries, Dict.get?_put_self]
      rfl
    rw [hwritten]
    change (Value.entry _ _ >>= _) = _
    rw [Value.entry, Dict.get?_put_self]
    rfl

/-- **The pattern `name/*` reaches every depth.**  It leaves out every path with a folder of this
name on the way, wherever the path starts and whatever the other patterns are; alone it leaves out
nothing else.  Added to other patterns it leaves out these paths besides. -/
theorem folder_exclusion_reaches_every_depth {s : Settings} {patterns : List String}
    (hpatterns : s.exclusionPatterns = .ok (patterns.map .str)) (name : Word)
    (hname : name.text ≠ "") :
    (name.text ++ "/*" ∈ patterns →
      ∀ p : Path, p.Proper → name.text ∈ p.parts.dropLast → s.excludes p = .ok true) ∧
    (patterns = [name.text ++ "/*"] →
      ∀ p : Path, p.Proper → name.text ∉ p.parts.dropLast → s.excludes p = .ok false) ∧
    ∃ s', s.addExclusions (.ofTexts [name.text ++ "/*"]) = .ok s' ∧
      ∀ p : Path, p.Proper →
        (s'.excludes p = .ok true ↔ s.excludes p = .ok true ∨ name.text ∈ p.parts.dropLast) := by
  refine ⟨?_, ?_, ?_⟩
  · intro hmem p hp hfolder
    have hpattern := (patternExcludes_folder hp name hname).2 hfolder
    rw [excludes_texts hpatterns, List.any_eq_true.2 ⟨_, hmem, hpattern⟩]
  · rintro rfl p hp hfolder
    have hpattern := Bool.eq_false_iff.2 (mt (patternExcludes_folder hp name hname).1 hfolder)
    rw [excludes_texts hpatterns, List.any_cons, List.any_nil, Bool.or_false, hpattern]
  · obtain ⟨s', hadd, hall⟩ := exclusionPatterns_addExclusions hpatterns [.str (name.text ++ "/*")]
    refine ⟨s', hadd, fun p hp => ?_⟩
    have hmore : s'.exclusionPatterns = .ok ((patterns ++ [name.text ++ "/*"]).map .str) := by
      rw [hall, List.map_append]
      rfl
    rw [excludes_texts hpatterns, excludes_texts hmore, List.any_append,
      ← patternExcludes_folder hp name hname]
    simp

/-- Settings that exclude installed packages only. -/
def withoutPackages : Settings :=
  defaults.merge [("exclusions", .dict [("patterns", .ofTexts ["vendor/*"])])]

/-- Packages are left out at any depth, a look-alike and a file of their name are not; so are, once
they are added, the folders of another name. -/
theorem packages_are_left_out :
    withoutPackages.excludes (Path.ofText "vendor/autoload.php") = .ok true ∧
    withoutPackages.excludes (Path.ofText "/srv//app/./vendor/lib/src/a.php") = .ok true ∧
    withoutPackages.excludes (Path.ofText "/srv/myvendor/vendor") = .ok false ∧
    ∃ s', withoutPackages.addExclusions (.ofTexts ["legacy/*"]) = .ok s' ∧
      s'.excludes (Path.ofText "../legacy/../vendor") = .ok true := by
  have hpatterns : withoutPackages.exclusionPatterns = .ok (["vendor/*"].map .str) := rfl
  obtain ⟨hdeep, honly, -⟩ :=
    folder_exclusion_reaches_every_depth hpatterns { text := "vendor" } (by decide)
  obtain ⟨-, -, s', hadd, hmore⟩ :=
    folder_exclusion_reaches_every_depth hpatterns { text := "legacy" } (by decide)
  exact ⟨hdeep (by decide) _ (Path.proper_ofText _) (by decide),
    hdeep (by decide) _ (Path.proper_ofText _) (by decide),
    honly rfl _ (Path.proper_ofText _) (by decide),
    s', hadd, (hmore _ (Path.proper_ofText _)).2 (.inr (by decide))⟩

end Settings

end PhpAudit
