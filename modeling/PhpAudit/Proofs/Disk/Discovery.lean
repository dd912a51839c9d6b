/-
Which files are found below a folder, in which order, and what it matters where the folder is.

The files below a folder are those to which a way of names leads that passes through no folder that
is passed over.  They come folder by folder, each one once: first the files of the folder, by name,
and then what is below its subfolders, by name as well.  The ways do not depend on where the folder
is, and what is taken of the files depends on that in one way only: an exclusion of a folder name
also looks at the names in front of the target.

* `Disk.Leads`, `Disk.mem_filesBelow_iff` — the files below a folder;
* `Disk.filesBelow_eq_map_join` — they are the same at every path;
* `Disk.Named` — a tree in which no name holds a slash;
* `Disk.Holds`, `Disk.Before`, `Disk.Distinct` — the ways to files, their order, and trees in which
  a way leads to one file only;
* `Disk.ways_pairwise` — the files below a folder come in this order;
* `Disk.discover_lists_each_file_once` — **the files of a folder are found completely, once and in
  order**;
* `Exclusion.bars`, `Exclusion.covers_join` — what an exclusion makes of a location;
* `Exclusion.wanted`, `Exclusion.wanted_join` — the test of a file, and of the same file elsewhere;
* `Audit.discovery_by_location` — **a tree is searched alike at every location, except that nothing
  is found below a folder with an excluded name**.
-/

import Mathlib.Data.List.Basic
import PhpAudit.Audit.Files
import PhpAudit.Proofs.Settings.Exclusions

set_option autoImplicit false

namespace PhpAudit

namespace Disk

/-! ### The files below a folder -/

/-- The way of names that leads from a folder to a file, through no folder that is passed over. -/
inductive Leads : Entry → List String → Prop where
  | file {entries : List (String × Entry)} {name : String} {content : ByteArray} :
      (name, .file content) ∈ entries → Leads (.folder entries) [name]
  | inside {entries inner : List (String × Entry)} {name : String} {way : List String} :
      (name, .folder inner) ∈ entries → name ∉ skipped → Leads (.folder inner) way →
      Leads (.folder entries) (name :: way)

/-- What holds of files, and of a folder if it holds of its entries, holds of every entry. -/
theorem Entry.of_entries {motive : Entry → Prop} (file : ∀ content, motive (.file content))
    (folder : ∀ entries, (∀ x ∈ entries, motive x.2) → motive (.folder entries)) (e : Entry) :
    motive e := by
  match e with
  | .file content => exact file content
  | .folder entries => exact folder entries fun x hx => of_entries file folder x.2
termination_by sizeOf e
decreasing_by
  have hlt := List.sizeOf_lt_of_mem hx
  obtain ⟨name, inner⟩ := x
  simp only [Prod.mk.sizeOf_spec] at hlt
  simp only [Entry.folder.sizeOf_spec]
  omega

theorem mem_byName {α : Type} {items : List (String × α)} {x : String × α} :
    x ∈ byName items ↔ x ∈ items :=
  List.mem_mergeSort

theorem mem_fileEntries_iff {entries : List (String × Entry)} {name : String} :
    (name, ()) ∈ fileEntries entries ↔ ∃ content, (name, .file content) ∈ entries := by
  rw [fileEntries, List.mem_filterMap]
  constructor
  · rintro ⟨⟨other, e⟩, hmem, h⟩
    cases e with
    | file content =>
        cases h
        exact ⟨content, hmem⟩
    | folder inner => cases h
  · rintro ⟨content, hmem⟩
    exact ⟨(name, .file content), hmem, rfl⟩

/-- What a folder holds of an entry: the files below it, if it is a folder not passed over. -/
def innerFiles? (path : Path) : String × Entry → Option (String × List Path)
  | (_, .file _) => none
  | (name, .folder inner) =>
    if skipped.contains name then none
    else some (name, filesBelow (below path name) (.folder inner))

theorem foldersBelow_eq (path : Path) (entries : List (String × Entry)) :
    foldersBelow path entries = entries.filterMap (innerFiles? path) := by
  induction entries with
  | nil => simp [foldersBelow]
  | cons x rest ih =>
      obtain ⟨name, e⟩ := x
      cases e with
      | file content => rw [foldersBelow, ih, List.filterMap_cons, innerFiles?]
      | folder inner =>
          rw [foldersBelow, ih, List.filterMap_cons, innerFiles?]
          split <;> rfl

theorem mem_foldersBelow_iff {path : Path} {entries : List (String × Entry)} {name : String}
    {files : List Path} :
    (name, files) ∈ foldersBelow path entries ↔
      ∃ inner, (name, .folder inner) ∈ entries ∧ name ∉ skipped ∧
        files = filesBelow (below path name) (.folder inner) := by
  rw [foldersBelow_eq, List.mem_filterMap]
  constructor
  · rintro ⟨⟨other, e⟩, hmem, h⟩
    cases e with
    | file content => cases h
    | folder inner =>
        rw [innerFiles?] at h
        split at h
        · cases h
        · rename_i hskip
          cases h
          exact ⟨inner, hmem, fun h => hskip (List.contains_iff_mem.2 h), rfl⟩
  · rintro ⟨inner, hmem, hskip, rfl⟩
    exact ⟨(name, .folder inner), hmem, if_neg fun h => hskip (List.contains_iff_mem.1 h)⟩

/-- A file below a folder is one of its own, or one below a subfolder that is not passed over. -/
theorem mem_filesBelow_folder {path q : Path} {entries : List (String × Entry)} :
    q ∈ filesBelow path (.folder entries) ↔
      (∃ name content, (name, .file content) ∈ entries ∧ q = below path name) ∨
      ∃ name inner, (name, .folder inner) ∈ entries ∧ name ∉ skipped ∧
        q ∈ filesBelow (below path name) (.folder inner) := by
  rw [filesBelow, List.mem_append, List.mem_map, List.mem_flatMap]
  refine or_congr ?_ ?_
  · constructor
    · rintro ⟨⟨name, _⟩, hname, rfl⟩
      obtain ⟨content, hmem⟩ := mem_fileEntries_iff.1 (mem_byName.1 hname)
      exact ⟨name, content, hmem, rfl⟩
    · rintro ⟨name, content, hmem, rfl⟩
      exact ⟨(name, ()), mem_byName.2 (mem_fileEntries_iff.2 ⟨content, hmem⟩), rfl⟩
  · constructor
    · rintro ⟨⟨name, files⟩, hname, hq⟩
      obtain ⟨inner, hmem, hskip, rfl⟩ := mem_foldersBelow_iff.1 (mem_byName.1 hname)
      exact ⟨name, inner, hmem, hskip, hq⟩
    · rintro ⟨name, inner, hmem, hskip, hq⟩
      exact ⟨(name, _), mem_byName.2 (mem_foldersBelow_iff.2 ⟨inner, hmem, hskip, rfl⟩), hq⟩

/-- The files below a folder are those to which a way leads. -/
theorem mem_filesBelow_iff {path q : Path} {e : Entry} :
    q ∈ filesBelow path e ↔ ∃ way, Leads e way ∧ q = { path with parts := path.parts ++ way } := by
  constructor
  · induction e using Entry.of_entries generalizing path with
    | file content => exact fun hq => by cases hq
    | folder entries ih =>
        intro hq
        rcases mem_filesBelow_folder.1 hq with
          ⟨name, content, hmem, rfl⟩ | ⟨name, inner, hmem, hskip, hq⟩
        · exact ⟨[name], .file hmem, rfl⟩
        · obtain ⟨way, hway, rfl⟩ := ih _ hmem hq
          exact ⟨name :: way, .inside hmem hskip hway, by simp [below]⟩
  · rintro ⟨way, hway, rfl⟩
    induction hway generalizing path with
    | file hmem => exact mem_filesBelow_folder.2 (.inl ⟨_, _, hmem, rfl⟩)
    | inside hmem hskip _ ih =>
        refine mem_filesBelow_folder.2 (.inr ⟨_, _, hmem, hskip, ?_⟩)
        simpa [below] using @ih (below path _)

/-! ### Other locations -/

theorem byName_map {α β : Type} (f : α → β) (items : List (String × α)) :
    byName (items.map (Prod.map id f)) = (byName items).map (Prod.map id f) := by
  refine (List.map_mergeSort ?_).symm
  exact fun _ _ _ _ => rfl

theorem join_below {p r : Path} (h : r.root = "") (name : String) :
    p.join (below r name) = below (p.join r) name := by
  simp [Path.join, below, h]

theorem filesBelow_join (p : Path) {r : Path} (h : r.root = "") (e : Entry) :
    filesBelow (p.join r) e = (filesBelow r e).map p.join := by
  induction e using Entry.of_entries generalizing r with
  | file content => rfl
  | folder entries ih =>
      -- only names decide which subfolders are passed over and in which order the others come
      have hfolders : foldersBelow (p.join r) entries =
          (foldersBelow r entries).map (Prod.map id (List.map p.join)) := by
        rw [foldersBelow_eq, foldersBelow_eq, List.map_filterMap]
        refine List.filterMap_congr fun x hx => ?_
        obtain ⟨name, e⟩ := x
        cases e with
        | file content => rfl
        | folder inner =>
            rw [innerFiles?, innerFiles?]
            split
            · rfl
            · rw [← join_below h, ih _ hx (r := below r name) h]
              rfl
      rw [filesBelow, filesBelow, hfolders, byName_map, List.map_append, List.map_map,
        List.flatMap_map, List.map_flatMap]
      simp only [Function.comp_def, join_below h, Prod.map_snd]

/-- The files below a folder are the same at every path. -/
theorem filesBelow_eq_map_join (p : Path) (e : Entry) :
    filesBelow p e = (filesBelow {} e).map p.join := by
  rw [← filesBelow_join p rfl]
  simp [Path.join]

/-- A tree in which no name holds a slash. -/
inductive Named : Entry → Prop where
  | file {content : ByteArray} : Named (.file content)
  | folder {entries : List (String × Entry)} :
      (∀ x ∈ entries, '/' ∉ x.1.toList) → (∀ x ∈ entries, Named x.2) → Named (.folder entries)

theorem Leads.ne_nil {e : Entry} {way : List String} (h : Leads e way) : way ≠ [] := by
  cases h <;> exact List.cons_ne_nil _ _

theorem Leads.noSlash {e : Entry} {way : List String} (h : Leads e way) (hnamed : Named e) :
    ∀ part ∈ way, '/' ∉ part.toList := by
  induction h with
  | file hmem =>
      cases hnamed with
      | folder hnames hinner => exact List.forall_mem_singleton.2 (hnames _ hmem)
  | inside hmem _ _ ih =>
      cases hnamed with
      | folder hnames hinner => exact List.forall_mem_cons.2 ⟨hnames _ hmem, ih (hinner _ hmem)⟩

theorem root_of_mem_filesBelow {path q : Path} {e : Entry} (h : q ∈ filesBelow path e) :
    q.root = path.root := by
  obtain ⟨way, -, rfl⟩ := mem_filesBelow_iff.1 h
  rfl

theorem parts_ne_nil_of_mem_filesBelow {path q : Path} {e : Entry} (h : q ∈ filesBelow path e) :
    q.parts ≠ [] := by
  obtain ⟨way, hway, rfl⟩ := mem_filesBelow_iff.1 h
  exact List.append_ne_nil_of_right_ne_nil _ hway.ne_nil

theorem Named.proper {e : Entry} (hnamed : Named e) {path q : Path} (hpath : path.Proper)
    (h : q ∈ filesBelow path e) : q.Proper := by
  obtain ⟨way, hway, rfl⟩ := mem_filesBelow_iff.1 h
  exact ⟨hpath.root, List.forall_mem_append.2 ⟨hpath.parts, hway.noSlash hnamed⟩⟩

/-! ### What is taken of the files -/

theorem select_ok {α ε : Type} {test : α → Except ε Bool} {keep : α → Bool} {xs : List α}
    (h : ∀ x ∈ xs, test x = .ok (keep x)) : select test xs = .ok (xs.filter keep) := by
  induction xs with
  | nil => rfl
  | cons x xs ih =>
      rw [select, h x List.mem_cons_self, ih fun y hy => h y (List.mem_cons_of_mem x hy),
        List.filter_cons]
      cases keep x <;> rfl

/-- Whether a file has one of some endings, which are given with or without a dot in front. -/
def hasEnding (endings : List String) (path : Path) : Bool :=
  (endings.map fun s =>
      if Text.startsWith s "." then Text.lower s else "." ++ Text.lower s).contains
    (Text.lower path.suffix)

theorem hasExtension_texts (path : Path) (endings : List String) :
    hasExtension path (.list (endings.map .str)) = .ok (hasEnding endings path) := by
  have hknown : (endings.map Value.str).mapM dotted = .ok (endings.map fun s =>
      if Text.startsWith s "." then Text.lower s else "." ++ Text.lower s) := by
    induction endings with
    | nil => rfl
    | cons ending rest ih =>
        rw [List.map_cons, List.mapM_cons, ih]
        rfl
  exact congrArg (fun known => known.bind fun k => .ok (k.contains (Text.lower path.suffix))) hknown

/-- Below a folder, the files are taken that have an ending and are not excluded. -/
theorem discover_folder {d : Disk} {target : Path} {entries : List (String × Entry)}
    (hplace : d.find target = .ok (.folder entries)) {excludes : Path → Except Misuse Bool}
    {out : Path → Bool} (hout : ∀ q ∈ filesBelow target (.folder entries), excludes q = .ok (out q))
    (endings : List String) :
    d.discover target (.list (endings.map .str)) excludes =
      .ok ((filesBelow target (.folder entries)).filter
        fun q => hasEnding endings q && !out q) := by
  have hfiles : d.candidates target = .ok (filesBelow target (.folder entries)) := by
    rw [candidates, find?, hplace]
    rfl
  rw [discover, hfiles]
  refine congrArg (Except.mapError Refusal.misuse) (select_ok fun q hq => ?_)
  rw [hasExtension_texts, hout q hq]
  cases hasEnding endings q <;> rfl

/-! ### Ways to files, in order -/

/-- The way of names that leads from a folder to a file. -/
inductive Holds : Entry → List String → Prop where
  | here {entries : List (String × Entry)} {name : String} {content : ByteArray} :
      (name, .file content) ∈ entries → Holds (.folder entries) [name]
  | inside {entries : List (String × Entry)} {inner : Entry} {name : String} {way : List String} :
      (name, inner) ∈ entries → Holds inner way → Holds (.folder entries) (name :: way)

theorem Holds.ne_nil {e : Entry} {way : List String} (h : Holds e way) : way ≠ [] := by
  cases h <;> exact List.cons_ne_nil _ _

/-- The ways that count are those on which no folder is passed over. -/
theorem leads_iff {e : Entry} {way : List String} :
    Leads e way ↔ Holds e way ∧ ∀ name ∈ way.dropLast, name ∉ skipped := by
  constructor
  · intro h
    induction h with
    | file hmem => exact ⟨.here hmem, by simp⟩
    | inside hmem hskip hway ih =>
        refine ⟨.inside hmem ih.1, ?_⟩
        rw [List.dropLast_cons_of_ne_nil hway.ne_nil]
        exact List.forall_mem_cons.2 ⟨hskip, ih.2⟩
  · rintro ⟨h, hskip⟩
    induction h with
    | here hmem => exact .file hmem
    | @inside entries inner name way hmem hway ih =>
        rw [List.dropLast_cons_of_ne_nil hway.ne_nil] at hskip
        obtain ⟨hname, hrest⟩ := List.forall_mem_cons.1 hskip
        have hleads := ih hrest
        cases inner with
        | file content => cases hleads
        | folder inner => exact .inside hmem hname hleads

/-- Which of two ways comes first: in each folder its files, by name, and then what is below its
subfolders, by name as well. -/
inductive Before : List String → List String → Prop where
  | files {m n : String} : m < n → Before [m] [n]
  | fileFirst {m n : String} {way : List String} : way ≠ [] → Before [m] (n :: way)
  | folders {m n : String} {v w : List String} :
      m < n → v ≠ [] → w ≠ [] → Before (m :: v) (n :: w)
  | within {m : String} {v w : List String} : Before v w → Before (m :: v) (m :: w)

theorem Before.irrefl {v : List String} : ¬ Before v v := by
  intro h
  induction v with
  | nil => cases h
  | cons m v ih =>
      cases h with
      | files h => exact String.lt_irrefl m h
      | fileFirst h => exact h rfl
      | folders h => exact String.lt_irrefl m h
      | within h => exact ih h

/-- A tree in which no folder has two entries of one name. -/
inductive Distinct : Entry → Prop where
  | file {content : ByteArray} : Distinct (.file content)
  | folder {entries : List (String × Entry)} :
      (entries.map Prod.fst).Nodup → (∀ x ∈ entries, Distinct x.2) → Distinct (.folder entries)

theorem byName_pairwise {α : Type} {items : List (String × α)} (h : (items.map Prod.fst).Nodup) :
    (byName items).Pairwise fun x y => x.1 < y.1 := by
  have hle : (byName items).Pairwise fun x y => decide (x.1 ≤ y.1) = true := by
    refine List.pairwise_mergeSort ?_ ?_ items
    · intro x y z hxy hyz
      simp only [decide_eq_true_eq] at hxy hyz ⊢
      exact String.le_trans hxy hyz
    · intro x y
      simpa using String.le_total x.1 y.1
  have hne : ((byName items).map Prod.fst).Nodup :=
    ((List.mergeSort_perm items _).map Prod.fst).nodup_iff.2 h
  refine (hle.and (List.pairwise_map.1 hne)).imp ?_
  rintro x y ⟨hxy, hdiff⟩
  exact Std.lt_of_le_of_ne (of_decide_eq_true hxy) hdiff

/-- Items that keep their names are apart if those they come from are. -/
theorem nodup_filterMap {α β : Type} {f : String × α → Option (String × β)}
    (hname : ∀ x y, f x = some y → y.1 = x.1) {items : List (String × α)}
    (h : (items.map Prod.fst).Nodup) : ((items.filterMap f).map Prod.fst).Nodup := by
  refine List.pairwise_map.2 ((List.pairwise_map.1 h).filterMap f ?_)
  intro x x' hne y hy y' hy'
  rw [hname x y hy, hname x' y' hy']
  exact hne

theorem nodup_fileEntries {entries : List (String × Entry)} (h : (entries.map Prod.fst).Nodup) :
    ((fileEntries entries).map Prod.fst).Nodup := by
  refine nodup_filterMap ?_ h
  rintro ⟨name, e⟩ y hy
  cases e with
  | file content =>
      cases hy
      rfl
  | folder inner => cases hy

theorem nodup_foldersBelow (path : Path) {entries : List (String × Entry)}
    (h : (entries.map Prod.fst).Nodup) : ((foldersBelow path entries).map Prod.fst).Nodup := by
  rw [foldersBelow_eq]
  refine nodup_filterMap ?_ h
  rintro ⟨name, e⟩ y hy
  cases e with
  | file content => cases hy
  | folder inner =>
      rw [innerFiles?] at hy
      split at hy
      · cases hy
      · cases hy
        rfl

/-- The ways to the files below an entry, in the order of the files. -/
def ways (e : Entry) : List (List String) :=
  (filesBelow {} e).map Path.parts

theorem mem_ways_iff {e : Entry} {way : List String} : way ∈ ways e ↔ Leads e way := by
  rw [ways, List.mem_map]
  constructor
  · rintro ⟨q, hq, rfl⟩
    obtain ⟨way, hway, rfl⟩ := mem_filesBelow_iff.1 hq
    exact hway
  · exact fun h => ⟨{ parts := way }, mem_filesBelow_iff.2 ⟨way, h, rfl⟩, rfl⟩

theorem filesBelow_eq_map_ways (p : Path) (e : Entry) :
    filesBelow p e = (ways e).map fun way => p.join { parts := way } := by
  rw [filesBelow_eq_map_join, ways, List.map_map]
  refine List.map_congr_left fun q hq => ?_
  obtain ⟨way, -, rfl⟩ := mem_filesBelow_iff.1 hq
  rfl

/-- The ways of a subfolder start with its name. -/
theorem exists_ways_of_mem_foldersBelow {entries : List (String × Entry)}
    {x : String × List Path} (hx : x ∈ foldersBelow {} entries) :
    ∃ inner, (x.1, .folder inner) ∈ entries ∧
      x.2.map Path.parts = (ways (.folder inner)).map (x.1 :: ·) := by
  obtain ⟨inner, hmem, -, hfiles⟩ := mem_foldersBelow_iff.1 hx
  refine ⟨inner, hmem, ?_⟩
  rw [hfiles, filesBelow_eq_map_ways, List.map_map]
  exact List.map_congr_left fun way _ => by simp [below, Path.join]

theorem ways_pairwise {e : Entry} (h : Distinct e) : (ways e).Pairwise Before := by
  induction e using Entry.of_entries with
  | file content => exact .nil
  | folder entries ih =>
      obtain ⟨⟩ | ⟨hnames, hinner⟩ := h
      have hlong : ∀ x ∈ byName (foldersBelow {} entries), ∀ v ∈ x.2.map Path.parts,
          ∃ way, way ≠ [] ∧ v = x.1 :: way := by
        intro x hx v hv
        obtain ⟨inner, -, heq⟩ := exists_ways_of_mem_foldersBelow (mem_byName.1 hx)
        rw [heq] at hv
        obtain ⟨way, hway, rfl⟩ := List.mem_map.1 hv
        exact ⟨way, (mem_ways_iff.1 hway).ne_nil, rfl⟩
      rw [ways, filesBelow, List.map_append, List.map_map, List.map_flatMap,
        List.pairwise_append, List.pairwise_map, List.pairwise_flatMap]
      -- the files, each subfolder, two subfolders, and a file with a subfolder
      refine ⟨?_, ⟨?_, ?_⟩, ?_⟩
      · exact (byName_pairwise (nodup_fileEntries hnames)).imp fun hlt => .files hlt
      · intro x hx
        obtain ⟨inner, hmem, heq⟩ := exists_ways_of_mem_foldersBelow (mem_byName.1 hx)
        rw [heq, List.pairwise_map]
        exact (ih _ hmem (hinner _ hmem)).imp .within
      · refine (byName_pairwise (nodup_foldersBelow {} hnames)).imp_of_mem ?_
        intro x y hx hy hlt v hv w hw
        obtain ⟨v, hvne, rfl⟩ := hlong x hx v hv
        obtain ⟨w, hwne, rfl⟩ := hlong y hy w hw
        exact .folders hlt hvne hwne
      · intro v hv w hw
        obtain ⟨x, -, rfl⟩ := List.mem_map.1 hv
        obtain ⟨y, hy, hw⟩ := List.mem_flatMap.1 hw
        obtain ⟨w, hne, rfl⟩ := hlong y hy w hw
        exact .fileFirst hne

/-- **Below a folder every file is found once, and in order.**  What is found are the ways to a file
on which no folder is passed over, if the file has one of the endings and is not excluded; each
comes once, in each folder the files first, by name, and then the subfolders, by name as well. -/
theorem discover_lists_each_file_once {d : Disk} {target : Path}
    {entries : List (String × Entry)} (hplace : d.find target = .ok (.folder entries))
    (hdistinct : Distinct (.folder entries)) (endings : List String) (excluded : Path → Bool) :
    ∃ found : List (List String),
      d.discover target (.list (endings.map .str)) (fun q => .ok (excluded q)) =
        .ok (found.map fun way => target.join { parts := way }) ∧
      (∀ way, way ∈ found ↔ Holds (.folder entries) way ∧
        (∀ name ∈ way.dropLast, name ∉ skipped) ∧
        hasEnding endings (target.join { parts := way }) = true ∧
        excluded (target.join { parts := way }) = false) ∧
      found.Nodup ∧ found.Pairwise Before := by
  have hsorted := (ways_pairwise hdistinct).filter fun way =>
    hasEnding endings (target.join { parts := way }) && !excluded (target.join { parts := way })
  refine ⟨_, ?_, ?_, ?_, hsorted⟩
  · rw [discover_folder hplace fun q _ => rfl, filesBelow_eq_map_ways, List.filter_map]
    rfl
  · intro way
    rw [List.mem_filter, mem_ways_iff, leads_iff, Bool.and_eq_true, Bool.not_eq_true', and_assoc]
  · refine hsorted.imp ?_
    rintro v w hbefore rfl
    exact hbefore.irrefl

/-- A site whose entries stand in no order, with a folder of version control. -/
def site : List (String × Entry) :=
  [("skip", .folder [("me.php", .file .empty)]), ("b.PHP", .file .empty),
   (".git", .folder [("hook.php", .file .empty)]),
   ("a", .folder [("z.php", .file .empty), ("readme.md", .file .empty)])]

/-- The disk with the site in a folder. -/
def host : Disk where
  top := .folder [("www", .folder site)]

theorem site_distinct : Distinct (.folder site) := by
  have hone : ∀ name, Distinct (.folder [(name, .file .empty)]) := fun name =>
    .folder (by simp) (by simp [Distinct.file])
  refine .folder (by decide) ?_
  simp only [site, List.forall_mem_cons]
  exact ⟨hone _, .file, hone _, .folder (by decide) (by simp [Distinct.file]), fun _ h => nomatch h⟩

/-- Of the site the file at its top and one of its subfolder are found if what is below a folder
`skip` is excluded. -/
theorem host_lists_site :
    ∃ found : List (List String),
      host.discover (Path.ofText "www") (.list [.str "Php"])
          (fun q => .ok (q.parts.contains "skip")) =
        .ok (found.map fun way => (Path.ofText "www").join { parts := way }) ∧
      ["b.PHP"] ∈ found ∧ ["a", "z.php"] ∈ found ∧ ["skip", "me.php"] ∉ found ∧
      [".git", "hook.php"] ∉ found ∧ ["a", "readme.md"] ∉ found ∧
      found.Nodup ∧ found.Pairwise Before := by
  have hplace : host.find (Path.ofText "www") = .ok (.folder site) := rfl
  obtain ⟨found, heq, hmem, hnodup, hsorted⟩ := discover_lists_each_file_once hplace site_distinct
    ["Php"] fun q => q.parts.contains "skip"
  have htop : ("b.PHP", .file .empty) ∈ site := by simp [site]
  have hsub : ("a", .folder [("z.php", .file .empty), ("readme.md", .file .empty)]) ∈ site := by
    simp [site]
  refine ⟨found, heq, ?_, ?_, ?_, ?_, ?_, hnodup, hsorted⟩
  · exact (hmem _).2 ⟨.here htop, by decide +kernel, by decide +kernel, by decide +kernel⟩
  · exact (hmem _).2 ⟨.inside hsub (.here List.mem_cons_self), by decide +kernel,
      by decide +kernel, by decide +kernel⟩
  · exact fun h => absurd ((hmem _).1 h).2.2.2 (by decide +kernel)
  · exact fun h => absurd ((hmem _).1 h).2.1 (by decide +kernel)
  · exact fun h => absurd ((hmem _).1 h).2.2.1 (by decide +kernel)

end Disk

/-! ### Exclusions at a location -/

namespace Path

variable {p q : Path}

theorem name_join (hroot : q.root = "") (hne : q.parts ≠ []) : (p.join q).name = q.name := by
  simp [join, name, hroot, List.getLast?_append, List.getLast?_eq_some_getLast hne]

theorem parts_join (hroot : q.root = "") : (p.join q).parts = p.parts ++ q.parts := by
  simp [join, hroot]

end Path

namespace Settings.Exclusion

variable {p q : Path}

/-- Whether an exclusion leaves out all that is below a path. -/
def bars (location : Path) : Exclusion → Bool
  | folder name _ => location.parts.contains name.text
  | ending _ => false

/-- A file is left out at a location if the location is barred, or if the file is left out by its
path from there. -/
theorem covers_join (hroot : q.root = "") (hne : q.parts ≠ []) (x : Exclusion) :
    x.covers (p.join q) = (x.bars p || x.covers q) := by
  cases x with
  | folder name hn =>
      simp [covers, bars, Path.parts_join hroot, List.dropLast_append_of_ne_nil hne]
  | ending suffix => simp [covers, bars, Path.name_join hroot hne]

/-- Whether a file has one of the endings and no exclusion covers it. -/
def wanted (endings : List String) (exclusions : List Exclusion) (path : Path) : Bool :=
  Disk.hasEnding endings path && !exclusions.any (covers path)

theorem wanted_join (endings : List String) (exclusions : List Exclusion) (hroot : q.root = "")
    (hne : q.parts ≠ []) :
    wanted endings exclusions (p.join q) =
      (!exclusions.any (bars p) && wanted endings exclusions q) := by
  have hany : exclusions.any (covers (p.join q)) =
      (exclusions.any (bars p) || exclusions.any (covers q)) := by
    rw [funext (covers_join hroot hne), Bool.eq_iff_iff]
    simp [and_or_left, exists_or]
  rw [wanted, hany, Disk.hasEnding, Path.suffix, Path.name_join hroot hne, Bool.not_or,
    Bool.and_left_comm]
  rfl

end Settings.Exclusion

namespace Audit

open Settings

section

variable {a : Audit} {endings : List String} {exclusions : List Exclusion}
  {entries : List (String × Disk.Entry)} {disk : Disk} {target : String}

/-- What is found below a target that is a folder. -/
theorem discover_eq (hendings : a.settings.fileExtensions = .ok (endings.map .str))
    (hexclusions : a.settings.exclusionPatterns = .ok ((exclusions.map Exclusion.pattern).map .str))
    (hnamed : Disk.Named (.folder entries))
    (hplace : disk.find (Path.ofText target) = .ok (.folder entries)) :
    a.discover disk target = .ok (((Disk.filesBelow (Path.ofText target) (.folder entries)).filter
      (Exclusion.wanted endings exclusions)).map Path.text) := by
  have hout : ∀ q ∈ Disk.filesBelow (Path.ofText target) (.folder entries),
      a.settings.excludes q = .ok (exclusions.any (Exclusion.covers q)) := fun q hq =>
    excludes_eq hexclusions (hnamed.proper (Path.proper_ofText target) hq)
      (Disk.parts_ne_nil_of_mem_filesBelow hq)
  rw [discover, hendings]
  exact congrArg (fun found => Except.bind found fun paths => .ok (paths.map Path.text))
    (Disk.discover_folder hplace hout endings)

/-- The same tree is searched alike wherever it is given as the target.  There is one list of paths,
from the top of the tree, of the files to which a way leads and that are wanted, and what is found
is this list below the target.  Only where the target, as it is written, is in or at a folder with
an excluded name is all of it left out. -/
theorem discovery_by_location (hendings : a.settings.fileExtensions = .ok (endings.map .str))
    (hexclusions : a.settings.exclusionPatterns = .ok ((exclusions.map Exclusion.pattern).map .str))
    (hnamed : Disk.Named (.folder entries)) :
    ∃ found : List Path,
      (∀ q, q ∈ found ↔ (∃ way, Disk.Leads (.folder entries) way ∧ q = { parts := way }) ∧
        Exclusion.wanted endings exclusions q = true) ∧
      ∀ (disk : Disk) (target : String),
        disk.find (Path.ofText target) = .ok (.folder entries) →
        a.discover disk target = .ok
          (if exclusions.any (Exclusion.bars (Path.ofText target)) then []
          else found.map fun q => ((Path.ofText target).join q).text) := by
  refine ⟨(Disk.filesBelow {} (.folder entries)).filter (Exclusion.wanted endings exclusions),
    fun q => by rw [List.mem_filter, Disk.mem_filesBelow_iff]; rfl, fun disk target hplace => ?_⟩
  rw [discover_eq hendings hexclusions hnamed hplace]
  generalize Path.ofText target = place
  -- whether the location is barred is the same for all files below it
  have hkeep : (Disk.filesBelow {} (.folder entries)).filter
        (Exclusion.wanted endings exclusions ∘ place.join) =
      (Disk.filesBelow {} (.folder entries)).filter fun q =>
        !exclusions.any (Exclusion.bars place) && Exclusion.wanted endings exclusions q :=
    List.filter_congr fun q hq => Exclusion.wanted_join endings exclusions
      (Disk.root_of_mem_filesBelow hq) (Disk.parts_ne_nil_of_mem_filesBelow hq)
  rw [Disk.filesBelow_eq_map_join, List.filter_map, hkeep, List.map_map]
  cases exclusions.any (Exclusion.bars place) <;> simp [Function.comp_def]

end

/-- The exclusions of the default settings. -/
def standardExclusions : List Exclusion :=
  [.folder { text := ".git" }, .folder { text := ".svn" }, .folder { text := "vendor" },
   .folder { text := "node_modules" }, .folder { text := "cache" }, .ending { text := "min.php" }]

/-- An audit that only lists files. -/
def lister : Audit where
  settings := Settings.defaults
  cache :=
    { grammar := ⟨"php", fun _ => .error (.refused "" 1)⟩, capacity := 1, batch := 1
      batchShown := .int 1 }

/-- The files of a small program. -/
def program : List (String × Disk.Entry) :=
  [("a.txt", .file .empty), ("main.PHP", .file .empty), ("main.min.php", .file .empty),
   ("lib", .folder [("c.inc", .file .empty)]), ("vendor", .folder [("b.php", .file .empty)])]

theorem program_named : Disk.Named (.folder program) := by
  refine .folder (by decide) ?_
  simp only [program, List.forall_mem_cons]
  exact ⟨.file, .file, .file, .folder (by decide) (by simp [Disk.Named.file]),
    .folder (by decide) (by simp [Disk.Named.file]), fun _ h => nomatch h⟩

theorem filesBelow_program :
    Disk.filesBelow {} (.folder program) =
      [{ parts := ["a.txt"] }, { parts := ["main.PHP"] }, { parts := ["main.min.php"] },
       { parts := ["lib", "c.inc"] }, { parts := ["vendor", "b.php"] }] := by
  -- sorting does not compute by itself, but the names stand in order here
  have hsorted : ∀ {α : Type} {items : List (String × α)},
      (items.Pairwise fun x y => decide (x.1 ≤ y.1) = true) → Disk.byName items = items :=
    List.mergeSort_of_pairwise
  simp (disch := decide) only [Disk.filesBelow, program, Disk.foldersBelow, hsorted]
  rfl

/-- Three copies of the program, one of them in a folder of installed packages. -/
def threeCopies : Disk where
  top := .folder [("src", .folder program), ("attic", .folder [("old", .folder program)]),
    ("vendor", .folder [("app", .folder program)])]

theorem lister_endings :
    lister.settings.fileExtensions = .ok (Disk.phpExtensions.map .str) := rfl

theorem lister_exclusions : lister.settings.exclusionPatterns =
    .ok ((standardExclusions.map Exclusion.pattern).map .str) := rfl

/-- In two of the copies the same files are found, in the third one none. -/
theorem threeCopies_are_alike :
    ∃ found : List Path, { parts := ["lib", "c.inc"] } ∈ found ∧
      (lister.discover threeCopies "src" =
        .ok (found.map fun q => ((Path.ofText "src").join q).text)) ∧
      (lister.discover threeCopies "/attic/old" =
        .ok (found.map fun q => ((Path.ofText "/attic/old").join q).text)) ∧
      lister.discover threeCopies "vendor/app" = .ok [] := by
  obtain ⟨found, hmem, hlaw⟩ :=
    discovery_by_location lister_endings lister_exclusions program_named
  have hlib : ("lib", .folder [("c.inc", .file .empty)]) ∈ program := by simp [program]
  have hway : Disk.Leads (.folder program) ["lib", "c.inc"] :=
    .inside hlib (by decide) (.file List.mem_cons_self)
  exact ⟨found, (hmem _).2 ⟨⟨_, hway, rfl⟩, by decide +kernel⟩, hlaw threeCopies "src" rfl,
    hlaw threeCopies "/attic/old" rfl, hlaw threeCopies "vendor/app" rfl⟩

/-- Nothing is found of the copy among the installed packages, though it is the same tree. -/
theorem packaged_copy_is_missed :
    threeCopies.find (Path.ofText "vendor/app") = threeCopies.find (Path.ofText "src") ∧
      lister.discover threeCopies "src" = .ok ["src/main.PHP", "src/lib/c.inc"] ∧
      lister.discover threeCopies "vendor/app" = .ok [] := by
  refine ⟨rfl, (discover_eq lister_endings lister_exclusions program_named rfl).trans
      (congrArg Except.ok ?_),
    (discover_eq lister_endings lister_exclusions program_named rfl).trans
      (congrArg Except.ok ?_)⟩ <;>
    rw [Disk.filesBelow_eq_map_join, filesBelow_program] <;> decide +kernel

end Audit

end PhpAudit
