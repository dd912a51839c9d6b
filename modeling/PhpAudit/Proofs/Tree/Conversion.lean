/-
**The tree that a concrete tree becomes.**

The conversion goes over a concrete tree with a stack of nodes under construction.  What it builds
can be said by recursion: a kept node becomes a node over the images of its kept children, in their
order, and the last plain token in the operator field becomes a mark of its parent.  The faults are
those of the concrete nodes in post-order, sorted by their places.

Main definitions:

* `Native.image`, `Native.images` — the node that a concrete node becomes, by recursion;
* `Native.postorder` — a concrete node and all below it, in the order in which they end;
* `Native.placeAt` — the row and the column of an offset, by counting.

Main results:

* `Native.run_enter` — what the conversion does from the moment it enters a node until it ends;
* `Native.point_eq_placeAt` — the table of points holds rows and columns;
* `Native.parse_converts` — **the tree, the number of its nodes and the faults**.
-/

import Mathlib.Data.List.Forall2
import Mathlib.Data.List.Induction
import PhpAudit.Proofs.Assoc
import PhpAudit.Proofs.Stable
import PhpAudit.Proofs.Walk.Places
import PhpAudit.Tree.Native

set_option autoImplicit false

namespace PhpAudit

/-- Numbering changes no more than the numbers. -/
theorem Node.size_numbered (n : Node) : n.numbered.size = n.size := by
  have h : (∀ n start, (Node.numberFrom start n).1.size = n.size) ∧
      ∀ ns start, Node.sizeList (Node.numberList start ns).1 = Node.sizeList ns := by
    refine Node.forest_induction ?_ ?_ ?_
    · intro n ih start
      cases n
      rw [Node.numberFrom, Node.size_eq, Node.size_eq]
      exact congrArg (· + 1) (ih _)
    · intro start
      rfl
    · intro n ns ihn ihns start
      rw [Node.numberList, Node.sizeList, Node.sizeList, ihn, ihns]
  exact h.1 n 0

namespace Native

/-! ### The tree by recursion -/

/-- Whether a concrete node gets a node of its own: all but the plain tokens do. -/
def isKept (n : Native) : Bool :=
  n.role != .token || n.kind == "ERROR"

/-- Whether a concrete node stands for a fault. -/
def isFaulty (n : Native) : Bool :=
  n.role == .missing || n.kind == "ERROR"

/-- The kind under which a concrete node is kept. -/
def shownKind (n : Native) : String :=
  if n.role == .missing then "MISSING" else n.kind

/-- Whether a concrete node is a plain token in the operator field. -/
def isOperator (n : Native) : Bool :=
  !n.isKept && n.field == some "operator"

/-- The mark that an operator leaves on its parent. -/
def operatorMark : Option Native → Dict
  | some token => [("operator", .str token.kind)]
  | none => []

/-- The mark of a token that the parser did not find. -/
def missingMark (n : Native) : Dict :=
  if n.role == .missing then [("expected", .str n.kind)] else []

/-- The marks of a node: the last of its operators, and what the parser expected in its place. -/
def markings (n : Native) : Dict :=
  operatorMark (n.children.filter isOperator).getLast? ++ n.missingMark

/-- The text that a concrete node covers. -/
def covered (source : Source) (n : Native) : String :=
  Text.decodeReplacing (source.bytes.extract n.startByte n.endByte)

mutual

/-- The node that a concrete node becomes. -/
def image (source : Source) : Native → Node
  | ⟨kind, role, first, last, field, children⟩ =>
    let n : Native := ⟨kind, role, first, last, field, children⟩
    { kind := n.shownKind
      span := spanOf source n
      field
      marks := n.markings
      text := n.covered source
      children := images source children }

/-- The nodes that concrete nodes become; a plain token becomes none. -/
def images (source : Source) : List Native → List Node
  | [] => []
  | n :: rest => if n.isKept then image source n :: images source rest else images source rest

end

mutual

/-- A node and all below it: the children from left to right, then the node. -/
def postorder : Native → List Native
  | ⟨kind, role, first, last, field, children⟩ =>
    postorderList children ++ [⟨kind, role, first, last, field, children⟩]

/-- The post-order of several trees. -/
def postorderList : List Native → List Native
  | [] => []
  | n :: rest => postorder n ++ postorderList rest

end

variable {source : Source}

theorem image_eq (source : Source) (n : Native) :
    image source n =
      { kind := n.shownKind, span := spanOf source n, field := n.field, marks := n.markings
        text := n.covered source, children := images source n.children } := by
  cases n
  rfl

theorem images_eq (source : Source) (ns : List Native) :
    images source ns = (ns.filter isKept).map (image source) := by
  induction ns with
  | nil => rfl
  | cons n ns ih =>
      rw [images, ih, List.filter_cons]
      split <;> rfl

theorem postorder_eq (n : Native) : n.postorder = postorderList n.children ++ [n] := by
  cases n
  rfl

theorem size_le_sizeList {m : Native} {ns : List Native} (h : m ∈ ns) : m.size ≤ sizeList ns := by
  induction ns with
  | nil => exact absurd h List.not_mem_nil
  | cons n ns ih =>
      simp only [sizeList]
      rcases List.mem_cons.1 h with rfl | h
      · omega
      · have := ih h
        omega

/-- What passes from the children of a concrete node to the node holds of every concrete node. -/
theorem induction {P : Native → Prop} (step : ∀ n, (∀ m ∈ n.children, P m) → P n) (n : Native) :
    P n :=
  step n fun m _ => Native.induction step m
termination_by n.size
decreasing_by
  rw [size_eq n]
  have := size_le_sizeList (m := m) ‹_›
  omega

/-! ### One node -/

theorem keptKind?_eq (n : Native) : keptKind? n = if n.isKept then some n.shownKind else none := by
  obtain ⟨kind, role, first, last, field, children⟩ := n
  by_cases hkind : kind = "ERROR" <;> cases role <;> simp [keptKind?, isKept, shownKind, hkind]

theorem isSome_fault? (source : Source) (n : Native) : (fault? source n).isSome = n.isFaulty := by
  obtain ⟨kind, role, first, last, field, children⟩ := n
  by_cases hkind : kind = "ERROR" <;> cases role <;> simp [fault?, isFaulty, hkind]

/-- The marks of a node under construction after some more of its children. -/
def noted (marks : Dict) (ns : List Native) : Dict :=
  (ns.filter isOperator).foldl (fun m token => Assoc.put m "operator" (.str token.kind)) marks

/-- However many operators there are, the last one is the mark. -/
theorem noted_nil (ns : List Native) :
    noted [] ns = operatorMark (ns.filter isOperator).getLast? := by
  rw [noted]
  induction ns.filter isOperator using List.reverseRecOn with
  | nil => rfl
  | append_singleton front token ih =>
      rw [List.foldl_append, ih, List.getLast?_concat]
      cases front.getLast? <;> rfl

theorem build?_eq (source : Source) (n : Native) :
    build? source n (images source n.children) (noted [] n.children) =
      if n.isKept then some (image source n) else none := by
  have hmarks : (if n.role == .missing then
        Assoc.put (noted [] n.children) "expected" (.str n.kind) else noted [] n.children) =
      n.markings := by
    rw [noted_nil, markings, missingMark]
    split
    · cases (n.children.filter isOperator).getLast? <;> rfl
    · rw [List.append_nil]
  rw [build?, keptKind?_eq, hmarks, image_eq]
  split <;> rfl

theorem attach_eq (source : Source) (parent : Frame) (n : Native) :
    parent.attach n (if n.isKept then some (image source n) else none) =
      { parent with
        done := (images source [n]).reverse ++ parent.done
        marks := noted parent.marks [n] } := by
  by_cases hkept : n.isKept
  · simp [Frame.attach, images, noted, isOperator, hkept]
  · by_cases hfield : n.field = some "operator" <;>
      simp [Frame.attach, images, noted, isOperator, hkept, hfield]

/-! ### The stack -/

/-- The state once further nodes have ended. -/
def State.passed (s : State) (source : Source) (ns : List Native) : State :=
  { faults := (ns.filterMap (fault? source)).reverse ++ s.faults
    count := s.count + ns.countP isKept }

theorem State.passed_append (s : State) (ns ms : List Native) :
    s.passed source (ns ++ ms) = (s.passed source ns).passed source ms := by
  simp [State.passed, Nat.add_assoc]

theorem State.close_eq (s : State) (source : Source) (n : Native) :
    s.close source n (if n.isKept then some (image source n) else none) =
      s.passed source [n] := by
  rw [State.close, State.passed]
  congr 1
  · cases h : fault? source n <;> simp [h]
  · by_cases hkept : n.isKept <;> simp [hkept]

/-- The next children of a node under construction are finished and put behind those that are. -/
theorem run_todo_of_forall {cs : List Native}
    (hcs : ∀ c ∈ cs, ∀ (s : State) (parent : Frame) (outer : List Frame),
      run source s (Frame.enter c :: parent :: outer) =
        run source (s.passed source c.postorder)
          ({ parent with
              done := (images source [c]).reverse ++ parent.done
              marks := noted parent.marks [c] } :: outer))
    (s : State) (m : Native) (done : List Node) (marks : Dict) (more : List Native)
    (rest : List Frame) :
    run source s (⟨m, done, marks, cs ++ more⟩ :: rest) =
      run source (s.passed source (postorderList cs))
        (⟨m, (images source cs).reverse ++ done, noted marks cs, more⟩ :: rest) := by
  induction cs generalizing s done marks with
  | nil => simp [postorderList, State.passed, images, noted]
  | cons c cs ih =>
      have hdone : (images source (c :: cs)).reverse =
          (images source cs).reverse ++ (images source [c]).reverse := by
        rw [images_eq, images_eq, images_eq, ← List.reverse_append, ← List.map_append,
          ← List.filter_append, List.singleton_append]
      have hmarks : noted marks (c :: cs) = noted (noted marks [c]) cs := by
        rw [noted, noted, noted, ← List.foldl_append, ← List.filter_append, List.singleton_append]
      rw [List.cons_append, run, hcs c List.mem_cons_self,
        ih fun c' hc' => hcs c' (List.mem_cons_of_mem _ hc'), postorderList, State.passed_append,
        hdone, hmarks, List.append_assoc]

/-- A node that is entered is finished and handed to its parent. -/
theorem run_enter (source : Source) (n : Native) (s : State) (parent : Frame)
    (outer : List Frame) :
    run source s (Frame.enter n :: parent :: outer) =
      run source (s.passed source n.postorder)
        ({ parent with
            done := (images source [n]).reverse ++ parent.done
            marks := noted parent.marks [n] } :: outer) := by
  induction n using Native.induction generalizing s parent outer with
  | step n ih =>
      have htodo := run_todo_of_forall ih s n [] [] [] (parent :: outer)
      rw [List.append_nil] at htodo
      rw [Frame.enter, htodo, run, List.append_nil, List.reverse_reverse, build?_eq, attach_eq,
        State.close_eq, ← State.passed_append, ← postorder_eq]

/-- **The conversion builds the image of the root** and meets all nodes in post-order. -/
theorem run_root (source : Source) (n : Native) (s : State) :
    run source s [Frame.enter n] =
      (if n.isKept then some (image source n) else none, s.passed source n.postorder) := by
  have htodo := run_todo_of_forall (fun c (_ : c ∈ n.children) => run_enter source c)
    s n [] [] [] []
  rw [List.append_nil] at htodo
  rw [Frame.enter, htodo, run, List.append_nil, List.reverse_reverse, build?_eq, State.close_eq,
    ← State.passed_append, ← postorder_eq]

/-! ### The number of nodes -/

theorem countP_postorderList (source : Source) {cs : List Native}
    (hcs : ∀ c ∈ cs, c.postorder.countP isKept = Node.sizeList (images source [c])) :
    (postorderList cs).countP isKept = Node.sizeList (images source cs) := by
  induction cs with
  | nil => rfl
  | cons c cs ih =>
      rw [postorderList, List.countP_append, hcs c List.mem_cons_self,
        ih fun c' hc' => hcs c' (List.mem_cons_of_mem _ hc'), images_eq, images_eq, images_eq,
        ← Node.sizeList_append, ← List.map_append, ← List.filter_append, List.singleton_append]

theorem mem_postorder_of_mem_children {n c m : Native} (hc : c ∈ n.children)
    (hm : m ∈ c.postorder) : m ∈ n.postorder := by
  have hlist : ∀ {cs : List Native}, c ∈ cs → m ∈ postorderList cs := by
    intro cs hc
    induction cs with
    | nil => cases hc
    | cons c' cs ih =>
        rw [postorderList, List.mem_append]
        rcases List.mem_cons.1 hc with rfl | hc
        · exact .inl hm
        · exact .inr (ih hc)
  rw [postorder_eq]
  exact List.mem_append_left _ (hlist hc)

/-- Where plain tokens have no children, all kept nodes are in the image. -/
theorem countP_postorder (source : Source) (n : Native)
    (hleaves : ∀ m ∈ n.postorder, m.isKept = false → m.children = []) :
    n.postorder.countP isKept = Node.sizeList (images source [n]) := by
  induction n using Native.induction with
  | step n ih =>
      have hchildren := countP_postorderList source fun c hc =>
        ih c hc fun m hm => hleaves m (mem_postorder_of_mem_children hc hm)
      rw [postorder_eq, List.countP_append, hchildren, List.countP_singleton]
      by_cases hkept : n.isKept
      · simp [images, hkept, Node.sizeList, Node.size_eq, image_eq]
      · have hself : n ∈ n.postorder := by simp [postorder_eq]
        simp [images, hkept, Node.sizeList, hleaves n hself (by simpa using hkept)]

/-! ### Points -/

/-- The row and the column of an offset: the line feeds in front of it, and the bytes since the
last of them. -/
def placeAt (bytes : List UInt8) (offset : Nat) : Point :=
  { row := (bytes.take offset).count 10
    column := ((bytes.take offset).reverse.takeWhile (· != 10)).length }

theorem foldl_next (bytes : List UInt8) :
    bytes.foldl Point.next {} =
      { row := bytes.count 10, column := (bytes.reverse.takeWhile (· != 10)).length } := by
  induction bytes using List.reverseRecOn with
  | nil => rfl
  | append_singleton front b ih =>
      rw [List.foldl_append, ih, List.foldl_cons, List.foldl_nil, Point.next, List.count_append,
        List.reverse_append]
      by_cases hb : b = 10 <;> simp [hb]

/-- The table holds the points behind all first bytes. -/
theorem toList_foldl_points (bytes : List UInt8) (points : Array Point) (p : Point) :
    (bytes.foldl (fun (acc : Array Point × Point) b =>
        let p := acc.2.next b
        (acc.1.push p, p)) (points.push p, p)).1.toList =
      points.toList ++ bytes.scanl Point.next p := by
  induction bytes generalizing points p with
  | nil => simp
  | cons b bytes ih =>
      rw [List.foldl_cons, ih, List.scanl_cons, Array.toList_push, List.append_assoc,
        List.singleton_append]

theorem point_eq_placeAt (text : String) {offset : Nat} (h : offset ≤ text.utf8ByteSize) :
    (Source.ofText text).point offset = placeAt text.toUTF8.data.toList offset := by
  have hpoints : (Source.ofText text).points.toList =
      text.toUTF8.data.toList.scanl Point.next {} := by
    have := toList_foldl_points text.toUTF8.data.toList #[] {}
    rwa [Array.foldl_toList, List.nil_append] at this
  have hlength : offset ≤ text.toUTF8.data.toList.length := h
  rw [Source.point, Array.getD_eq_getD_getElem?, ← Array.getElem?_toList, hpoints,
    List.getElem?_scanl, if_pos hlength, foldl_next]
  rfl

/-! ### The faults -/

/-- The fault that a faulty node reports. -/
def faultAt (source : Source) (n : Native) : SyntaxFault :=
  (fault? source n).getD default

theorem fault?_eq_some (source : Source) {n : Native} (h : n.isFaulty = true) :
    fault? source n = some (faultAt source n) ∧
      (faultAt source n).line = (source.point n.startByte).row + 1 ∧
      (faultAt source n).column = (source.point n.startByte).column ∧
      (faultAt source n).nodeKind = n.shownKind := by
  obtain ⟨kind, role, first, last, field, children⟩ := n
  by_cases hkind : kind = "ERROR"
  · subst hkind
    cases role <;> exact ⟨rfl, rfl, rfl, rfl⟩
  · have hrole : role = .missing := by simpa [isFaulty, hkind] using h
    subst hrole
    exact ⟨rfl, rfl, rfl, rfl⟩

theorem filterMap_fault? (ns : List Native) :
    ns.filterMap (fault? source) = (ns.filter isFaulty).map (faultAt source) := by
  induction ns with
  | nil => rfl
  | cons n ns ih =>
      rw [List.filterMap_cons, List.filter_cons, ih]
      by_cases h : n.isFaulty
      · rw [if_pos h, (fault?_eq_some source h).1, List.map_cons]
      · have hnone : fault? source n = none := by
          rw [← Option.not_isSome_iff_eq_none, isSome_fault?]
          exact h
        rw [if_neg h, hnone]

theorem before_trans (a b c : SyntaxFault) (hab : a.before b) (hbc : b.before c) : a.before c := by
  simp only [SyntaxFault.before, Bool.or_eq_true, Bool.and_eq_true, decide_eq_true_eq,
    beq_iff_eq] at *
  omega

theorem before_total (a b : SyntaxFault) : (a.before b || b.before a) = true := by
  simp only [SyntaxFault.before, Bool.or_eq_true, Bool.and_eq_true, decide_eq_true_eq, beq_iff_eq]
  omega

/-- Whether a point comes strictly before another. -/
def Point.Before (p q : Point) : Prop :=
  p.row < q.row ∨ (p.row = q.row ∧ p.column < q.column)

theorem Point.before_or_eq {p q : Point}
    (h : p.row < q.row ∨ (p.row = q.row ∧ p.column ≤ q.column)) : p.Before q ∨ p = q := by
  obtain ⟨row, column⟩ := p
  obtain ⟨row', column'⟩ := q
  simp only [Point.Before, Point.mk.injEq] at h ⊢
  omega

/-- What the conversion of a tree says about its faulty nodes, each listed with its number in
post-order: one fault for each, by their places, and in post-order at the same place. -/
structure ReportsFaults (source : Source) (n : Native) (faults : List SyntaxFault)
    (met : List (Native × Nat)) : Prop where
  all : met.Perm (n.postorder.filter isFaulty).zipIdx
  each : List.Forall₂ (fun m f => fault? source m.1 = some f ∧
    f.line = (source.point m.1.startByte).row + 1 ∧
    f.column = (source.point m.1.startByte).column ∧ f.nodeKind = m.1.shownKind) met faults
  sorted : met.Pairwise fun a b =>
    (source.point a.1.startByte).Before (source.point b.1.startByte) ∨
      (source.point a.1.startByte = source.point b.1.startByte ∧ a.2 < b.2)

/-- Sorting the faults by their places keeps the post-order at each of them. -/
theorem exists_reportsFaults (source : Source) (n : Native) :
    ∃ met, ReportsFaults source n
      ((n.postorder.filterMap (fault? source)).mergeSort SyntaxFault.before) met := by
  let faulty := (n.postorder.filter isFaulty).zipIdx
  let le (a b : Native × Nat) := (faultAt source a.1).before (faultAt source b.1)
  have hmem : ∀ m ∈ faulty.mergeSort le, m.1.isFaulty = true := by
    intro m hm
    have hfilter := List.fst_mem_of_mem_zipIdx (List.mem_mergeSort.1 hm)
    exact (List.mem_filter.1 hfilter).2
  have hsorted : (n.postorder.filterMap (fault? source)).mergeSort SyntaxFault.before =
      (faulty.mergeSort le).map fun m => faultAt source m.1 := by
    have hfst : faulty.map Prod.fst = n.postorder.filter isFaulty := List.zipIdx_map_fst 0 _
    rw [List.map_mergeSort (s := SyntaxFault.before) fun _ _ _ _ => rfl, filterMap_fault?, ← hfst,
      List.map_map]
    rfl
  have htrans : ∀ a b c, le a b → le b c → le a c := fun a b c => before_trans _ _ _
  have htotal : ∀ a b, le a b || le b a := fun a b => before_total _ _
  have hlex := pairwise_mergeSort_lex htrans htotal
    (pairwise_zipIdx (n.postorder.filter isFaulty))
  refine ⟨faulty.mergeSort le, List.mergeSort_perm _ _, ?_, ?_⟩
  · rw [hsorted, List.forall₂_map_right_iff, List.forall₂_same]
    exact fun m hm => fault?_eq_some source (hmem m hm)
  · refine hlex.imp_of_mem fun {a b} ha hb h => ?_
    obtain ⟨-, hline, hcolumn, -⟩ := fault?_eq_some source (hmem a ha)
    obtain ⟨-, hline', hcolumn', -⟩ := fault?_eq_some source (hmem b hb)
    simp only [le, SyntaxFault.before, Bool.or_eq_false_iff, Bool.or_eq_true, Bool.and_eq_true,
      Bool.and_eq_false_iff, decide_eq_true_eq, decide_eq_false_iff_not, beq_iff_eq,
      beq_eq_false_iff_ne, hline, hline', hcolumn, hcolumn'] at h
    rcases h with h | ⟨h, hnumber⟩
    · refine .inl ?_
      rw [Point.Before]
      omega
    · refine (Point.before_or_eq ?_).imp_right fun heq => ⟨heq, hnumber⟩
      omega

/-! ### The whole conversion -/

/-- A concrete tree as a whole: its root stands in no field. -/
def asRoot (n : Native) : Native :=
  { n with field := none }

/-- **The tree is the image of the concrete tree**, its nodes are counted, each span is given by the
line feeds in front of it, and each faulty node has its fault. -/
theorem parse_converts (text : String) (n : Native) (hroot : n.isKept = true)
    (hleaves : ∀ m ∈ n.postorder, m.isKept = false → m.children = []) :
    (parse text n).1.root = (image (Source.ofText text) n.asRoot).numbered ∧
    (parse text n).1.nodeCount = (parse text n).1.root.size ∧
    (∀ offset ≤ text.utf8ByteSize,
      (Source.ofText text).point offset = placeAt text.toUTF8.data.toList offset) ∧
    ((parse text n).1.hasErrors = true ↔ (parse text n).2 ≠ []) ∧
    ∃ met, ReportsFaults (Source.ofText text) n.asRoot (parse text n).2 met := by
  have hkept : n.asRoot.isKept = true := hroot
  have hbare : ∀ m ∈ n.asRoot.postorder, m.isKept = false → m.children = [] := by
    intro m hm
    rw [postorder_eq] at hm
    rcases List.mem_append.1 hm with hm | hm
    · refine hleaves m ?_
      rw [postorder_eq]
      exact List.mem_append_left _ hm
    · rw [List.mem_singleton.1 hm, hkept]
      exact fun h => absurd h (by decide)
  have hconvert : convert (Source.ofText text) n =
      (some (image (Source.ofText text) n.asRoot),
        n.asRoot.postorder.filterMap (fault? (Source.ofText text)),
        n.asRoot.postorder.countP isKept) := by
    rw [convert, ← asRoot, run_root, if_pos hkept]
    simp [State.passed]
  have hcount := countP_postorder (Source.ofText text) n.asRoot hbare
  rw [images, if_pos hkept, images, Node.sizeList, Node.sizeList, Nat.add_zero] at hcount
  have hparse : (parse text n).2 =
      (n.asRoot.postorder.filterMap (fault? (Source.ofText text))).mergeSort
        SyntaxFault.before := by
    rw [parse, hconvert]
  refine ⟨?_, ?_, fun offset => point_eq_placeAt text, ?_, ?_⟩
  · rw [parse, hconvert, Option.getD_some]
  · rw [parse, hconvert, Option.getD_some, Node.size_numbered, hcount]
  · rw [parse]
    simp
  · rw [hparse]
    exact exists_reportsFaults _ _

/-- An expression with two operators in front of a faulty line, on which a token is missing too. -/
def twoFaults : Native :=
  { kind := "program", role := .named, startByte := 0, endByte := 9
    children :=
      [{ kind := "binary_expression", role := .named, startByte := 0, endByte := 7
         children :=
           [{ kind := "name", role := .named, startByte := 0, endByte := 1, field := some "left" },
            { kind := "+", role := .token, startByte := 2, endByte := 3
              field := some "operator" },
            { kind := "-", role := .token, startByte := 4, endByte := 5
              field := some "operator" },
            { kind := "name", role := .named, startByte := 6, endByte := 7
              field := some "right" }] },
       { kind := "ERROR", role := .named, startByte := 8, endByte := 9
         children := [{ kind := ";", role := .missing, startByte := 8, endByte := 8 }] }] }

theorem twoFaults_converts :
    twoFaults.isKept = true ∧
    (∀ m ∈ twoFaults.postorder, m.isKept = false → m.children = []) ∧
    (parse "a + - b\n?" twoFaults).1.nodeCount = 6 ∧
    (parse "a + - b\n?" twoFaults).1.root.children.map Node.marks =
      [[(.str "operator", .str "-")], []] ∧
    (parse "a + - b\n?" twoFaults).1.hasErrors = true := by
  have hleaves : ∀ m ∈ twoFaults.postorder, m.isKept = false → m.children = [] := by
    decide
  obtain ⟨hroot, hcount, -, herrors, met, hmet⟩ :=
    parse_converts "a + - b\n?" twoFaults (by decide) hleaves
  have hsome : (parse "a + - b\n?" twoFaults).2 ≠ [] := by
    have hlength := hmet.each.length_eq
    rw [hmet.all.length_eq] at hlength
    exact List.ne_nil_of_length_pos (hlength ▸ by decide)
  rw [hcount, hroot]
  exact ⟨by decide, hleaves, rfl, rfl, herrors.2 hsome⟩

end Native

end PhpAudit
