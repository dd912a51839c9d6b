/-
**What a patient visitor is told of, and what the walk counts.**

A visitor that neither stops a walk nor passes over children is shown the whole forest, but for the
nodes that the options leave out: those below the depth limit, and those of skipped kinds with all
below them.  The walk then enters exactly the other places of the forest, in pre-order, and counts
each of them once, whether or not it is shown to the visitor.  So the visitor that gathers nodes
comes to the same list as the walk over a stack of nodes, and the one that searches for a node to
the first of them.

Main definitions:

* `Walk.Visitor.Patient`, `Walk.Options.ShowsAll` — visitors and options that leave nothing out;
* `Walk.Options.reaches`, `Walk.Options.covers` — the places within the depth limit, and those of
  them to which a walk comes;
* `Walk.Course.Covers` — on the way from one course to another, some places were come to;
* `Walk.Seeks` — how a search for a node ends.

Main results:

* `Walk.explore_covers`, `Walk.depthFirst_reached` — **a search comes to all places that are not
  left out**, in part and as a whole;
* `Walk.depthFirst_covers` — the same for options that show all kinds;
* `Walk.exists_visits` — each entry pairs such a place with a trail that shows it;
* `Walk.traverse_figures` — **the figures of a walk** are those of these places;
* `Walk.explore_seeks` — a search for a node is stopped at the first one in pre-order;
* `Walk.walks_agree` — **gathering and searching agree with the walk over a stack**.
-/

import PhpAudit.Proofs.Assoc
import PhpAudit.Proofs.Walk.Surroundings
import PhpAudit.Walk.Visitors

set_option autoImplicit false

namespace PhpAudit.Walk

variable {σ : Type}

/-- A visitor that always lets a walk go on. -/
structure Visitor.Patient (v : Visitor σ) : Prop where
  before : ∀ s roots, (v.before s roots).1 = .proceed
  respond : ∀ phase s n t, (v.respond phase s n t).1 = .proceed

/-- No kinds of nodes are left out. -/
structure Options.ShowsAll (o : Options) : Prop where
  skipKinds : o.skipKinds = []
  onlyKinds : o.onlyKinds = []

/-- Whether a place is within the depth limit. -/
def Options.reaches (o : Options) (p : Place) : Bool :=
  decide ((p.above.length : Int) ≤ o.maxDepth)

/-- Whether a walk comes to a place: it is within the depth limit, and neither its node nor one
above is of a skipped kind. -/
def Options.covers (o : Options) (p : Place) : Bool :=
  o.reaches p && (p.node :: p.above).all fun n => !o.skipKinds.contains n.kind

/-- Whether the children of a place are left out because of the depth limit. -/
def Options.cuts (o : Options) (p : Place) : Bool :=
  decide ((p.above.length : Int) = o.maxDepth) && !p.node.children.isEmpty

/-! ### Places and depths -/

/-- Below some nodes all places have these nodes above them. -/
theorem suffix_of_mem_places :
    (∀ n above p, p ∈ placesOf above n → above <:+ p.above) ∧
    ∀ ns above p, p ∈ placesIn above ns → above <:+ p.above := by
  refine Node.forest_induction ?_ ?_ ?_
  · intro n ih above p hp
    rw [placesOf_eq] at hp
    rcases List.mem_cons.1 hp with rfl | hp
    · exact List.suffix_rfl
    · exact (List.suffix_cons n above).trans (ih (n :: above) p hp)
  · intro above p hp
    cases hp
  · intro n ns ihn ihns above p hp
    rw [placesIn] at hp
    rcases List.mem_append.1 hp with hp | hp
    · exact ihn above p hp
    · exact ihns above p hp

/-- Below the limit there is no place to come to. -/
theorem filter_covers_eq_nil {o : Options} {above : List Node} (h : o.maxDepth < above.length)
    (ns : List Node) : (placesIn above ns).filter o.covers = [] := by
  refine List.filter_eq_nil_iff.2 fun p hp => ?_
  have hdeep := (suffix_of_mem_places.2 ns above p hp).length_le
  simp only [Options.covers, Options.reaches, Bool.and_eq_true, decide_eq_true_eq]
  omega

/-- Nor is there one at a node of a skipped kind or below it. -/
theorem filter_covers_of_skipped {o : Options} {n : Node} (h : o.skipKinds.contains n.kind = true)
    (above : List Node) : (placesOf above n).filter o.covers = [] := by
  refine List.filter_eq_nil_iff.2 fun p hp hcovers => ?_
  have hway : n ∈ p.node :: p.above := by
    rw [placesOf_eq] at hp
    rcases List.mem_cons.1 hp with rfl | hp
    · exact List.mem_cons_self
    · have hsuffix := suffix_of_mem_places.2 n.children (n :: above) p hp
      exact List.mem_cons_of_mem _ (hsuffix.subset List.mem_cons_self)
  have hkept := List.all_eq_true.1 (Bool.and_eq_true_iff.1 hcovers).2 n hway
  rw [h] at hkept
  cases hkept

/-! ### One step of a search -/

/-- From one trail to another, the given places were counted. -/
structure Trail.Counts (o : Options) (places : List Place) (t t' : Trail) : Prop where
  visited : t'.visited = t.visited + places.length
  kinds : t'.kinds = places.foldl (fun m p => Assoc.bump m p.node.kind 1) t.kinds
  deepest : t'.deepest = (places.map fun p => p.above.length).foldl max t.deepest
  limitHits : t'.limitHits = t.limitHits + places.countP o.cuts

/-- On the way from one course to another, the given places were come to: those that are shown were
entered, and all of them were counted, if nodes are counted. -/
structure Course.Covers (o : Options) (places : List Place) (c c' : Course σ) : Prop where
  entered : c'.entered =
    c.entered ++ (places.filter fun p => o.shows p.node.kind).map (Place.standpoint o)
  counted : o.countNodes = true → c.trail.Counts o places c'.trail

section Covering

variable {v : Visitor σ} {o : Options} {c c' c'' : Course σ} {n : Node}

theorem Trail.Counts.refl (t : Trail) : t.Counts o [] t :=
  ⟨rfl, rfl, rfl, rfl⟩

theorem Trail.Counts.trans {places more : List Place} {t t' t'' : Trail}
    (h : t.Counts o places t') (h' : t'.Counts o more t'') : t.Counts o (places ++ more) t'' where
  visited := by rw [h'.visited, h.visited, List.length_append, Nat.add_assoc]
  kinds := by rw [h'.kinds, h.kinds, List.foldl_append]
  deepest := by rw [h'.deepest, h.deepest, List.map_append, List.foldl_append]
  limitHits := by rw [h'.limitHits, h.limitHits, List.countP_append, Nat.add_assoc]

namespace Course

theorem Covers.refl (c : Course σ) : c.Covers o [] c :=
  ⟨(List.append_nil _).symm, fun _ => .refl _⟩

theorem Covers.trans {places more : List Place} (h : c.Covers o places c')
    (h' : c'.Covers o more c'') : c.Covers o (places ++ more) c'' where
  entered := by
    rw [h'.entered, h.entered, List.filter_append, List.map_append, List.append_assoc]
  counted hcount := (h.counted hcount).trans (h'.counted hcount)

theorem entered_tell_entry (c : Course σ) (n : Node) :
    (c.tell v o .entry n).2.entered =
      c.entered ++ if o.shows n.kind then [(n, c.trail.frames)] else [] := by
  unfold tell
  split <;> simp [entered, entries, told, call, Call.standpoint]

theorem entered_tell_exit (c : Course σ) (n : Node) :
    (c.tell v o .exit n).2.entered = c.entered := by
  unfold tell
  split <;> simp [entered, entries, told, call]

/-- The course once a node is entered, and its children are left out if the limit says so. -/
def begun (c : Course σ) (v : Visitor σ) (o : Options) (above : List Node) (n : Node) : Course σ :=
  let c := ((c.reach o above n).tell v o .entry n).2
  if o.maxDepth < (above.length : Int) + 1 then c.cutShort n.children else c

theorem begun_calls (c : Course σ) (above : List Node) (n : Node) :
    (c.begun v o above n).calls = ((c.reach o above n).tell v o .entry n).2.calls := by
  unfold begun
  dsimp only
  split
  · exact cutShort_calls _ _
  · rfl

/-- Within the limit, children are left out at the limit itself. -/
theorem begun_limitHits (c : Course σ) {above : List Node}
    (hdepth : (above.length : Int) ≤ o.maxDepth) (n : Node) :
    (c.begun v o above n).trail =
      { (c.reach o above n).trail with
        limitHits :=
          (c.reach o above n).trail.limitHits + [(⟨n, above⟩ : Place)].countP o.cuts } := by
  have htrail := (c.reach o above n).tell_trail (v := v) (o := o) (n := n) .entry
  have hlimit : decide ((above.length : Int) = o.maxDepth) =
      decide (o.maxDepth < (above.length : Int) + 1) :=
    decide_eq_decide.2 ⟨fun h => by omega, fun h => by omega⟩
  rw [List.countP_singleton, Options.cuts, hlimit, ← htrail]
  unfold begun cutShort
  dsimp only
  by_cases h : o.maxDepth < (above.length : Int) + 1 <;> cases n.children.isEmpty <;> simp [h]

/-- A node that is entered is come to. -/
theorem covers_begun (c : Course σ) {above : List Node} (hdepth : (above.length : Int) ≤ o.maxDepth)
    (n : Node) : c.Covers o [⟨n, above⟩] (c.begun v o above n) where
  entered := by
    have hentry := (c.reach o above n).entered_tell_entry (v := v) (o := o) n
    rw [c.reach_frames, show (c.reach o above n).entered = c.entered by
      rw [entered, entered, c.reach_calls]] at hentry
    rw [entered, begun_calls]
    refine hentry.trans (congrArg (c.entered ++ ·) ?_)
    cases hshows : o.shows n.kind <;> simp [hshows, Place.standpoint]
  counted hcount := by
    have hreach : (c.reach o above n).trail =
        (c.facing o (n :: above)).trail.record n above.length := by
      unfold reach
      rw [if_pos hcount]
    rw [c.begun_limitHits hdepth, hreach]
    exact ⟨rfl, rfl, rfl, rfl⟩

end Course

theorem Options.ShowsAll.shows (ho : o.ShowsAll) (kind : String) : o.shows kind = true := by
  rw [Options.shows, ho.onlyKinds]
  rfl

theorem Visitor.Patient.tell (hv : v.Patient) (o : Options) (c : Course σ) (phase : Phase)
    (n : Node) : c.tell v o phase n = (.proceed, (c.tell v o phase n).2) := by
  unfold Course.tell
  split
  · rw [Course.call, hv.respond]
  · rfl

theorem Visitor.Patient.depart (hv : v.Patient) (o : Options) (c : Course σ) (above : List Node)
    (n : Node) : c.depart v o above n = .ok ((c.tell v o .exit n).2.facing o above) := by
  rw [Course.depart, hv.tell]

theorem covers_depart (c : Course σ) (above : List Node) (n : Node) :
    c.Covers o [] ((c.tell v o .exit n).2.facing o above) where
  entered := (c.entered_tell_exit n).trans (List.append_nil _).symm
  counted _ := by
    have htrail := c.tell_trail (v := v) (o := o) (n := n) .exit
    exact ⟨by rw [Course.facing, htrail]; rfl, by rw [Course.facing, htrail]; rfl,
      by rw [Course.facing, htrail]; rfl, by rw [Course.facing, htrail]; rfl⟩

/-- **A search that nothing holds up comes to all places that are not left out, in pre-order.** -/
theorem explore_covers (hv : v.Patient) :
    (∀ n above (c : Course σ), (above.length : Int) ≤ o.maxDepth →
      (∀ a ∈ above, o.skipKinds.contains a.kind = false) →
      ∃ c', explore v o above c n = .ok c' ∧ c.Covers o ((placesOf above n).filter o.covers) c') ∧
    ∀ ns above (c : Course σ), (above.length : Int) ≤ o.maxDepth →
      (∀ a ∈ above, o.skipKinds.contains a.kind = false) →
      ∃ c', exploreAll v o above c ns = .ok c' ∧
        c.Covers o ((placesIn above ns).filter o.covers) c' := by
  refine Node.forest_induction ?_ ?_ ?_
  · intro n ih above c hdepth hkept
    rw [explore_eq]
    cases hkind : o.skipKinds.contains n.kind with
    | true =>
        rw [filter_covers_of_skipped hkind]
        exact ⟨c, rfl, .refl c⟩
    | false =>
        have hway : ∀ a ∈ n :: above, o.skipKinds.contains a.kind = false :=
          List.forall_mem_cons.2 ⟨hkind, hkept⟩
        have hself : o.covers ⟨n, above⟩ = true := by
          simp only [Options.covers, Options.reaches, Bool.and_eq_true, decide_eq_true_eq]
          exact ⟨hdepth, List.all_eq_true.2 fun a ha => by simp only [hway a ha, Bool.not_false]⟩
        -- what the search below the node comes to, whether the limit cuts it short or not
        have hbelow : ∃ c', (if o.maxDepth < (above.length : Int) + 1 then
              .ok (((c.reach o above n).tell v o .entry n).2.cutShort n.children)
            else exploreAll v o (n :: above) ((c.reach o above n).tell v o .entry n).2 n.children) =
              .ok c' ∧
            (c.begun v o above n).Covers o ((placesIn (n :: above) n.children).filter o.covers)
              c' := by
          by_cases hlimit : o.maxDepth < (above.length : Int) + 1
          · have hdeep : o.maxDepth < ((n :: above).length : Int) := hlimit
            rw [if_pos hlimit, filter_covers_eq_nil hdeep, Course.begun, if_pos hlimit]
            exact ⟨_, rfl, .refl _⟩
          · rw [if_neg hlimit, Course.begun, if_neg hlimit]
            exact ih (n :: above) _ (Int.not_lt.1 hlimit) hway
        obtain ⟨c', hc', hcovers⟩ := hbelow
        refine ⟨(c'.tell v o .exit n).2.facing o above, ?_, ?_⟩
        · rw [if_neg Bool.false_ne_true, hv.tell]
          simp only [hc', hv.depart]
          rfl
        · have hall := (c.covers_begun (v := v) hdepth n).trans
            (hcovers.trans (covers_depart (v := v) c' above n))
          rw [List.append_nil, List.singleton_append] at hall
          rw [placesOf_eq, List.filter_cons, if_pos hself]
          exact hall
  · exact fun above c _ _ => ⟨c, rfl, .refl c⟩
  · intro n ns ihn ihns above c hdepth hkept
    obtain ⟨c₁, hfirst, hcovers₁⟩ := ihn above c hdepth hkept
    obtain ⟨c₂, hrest, hcovers₂⟩ := ihns above c₁ hdepth hkept
    refine ⟨c₂, ?_, ?_⟩
    · rw [exploreAll, hfirst]
      exact hrest
    · rw [placesIn, List.filter_append]
      exact hcovers₁.trans hcovers₂

end Covering

/-- **A whole search by a patient visitor comes to exactly the places that are not left out**, and
its state is what the calls lead to. -/
theorem depthFirst_reached {v : Visitor σ} {o : Options} (hv : v.Patient) (hlimit : 0 ≤ o.maxDepth)
    (s : σ) (roots : List Node) :
    (Course.start o (v.before s roots).2).Covers o ((placesIn [] roots).filter o.covers)
        (depthFirst v o s roots) ∧
      (depthFirst v o s roots).state =
        v.after (replay v (v.before s roots).2 (depthFirst v o s roots).calls) roots := by
  have hbefore := hv.before s roots
  obtain ⟨c, hc, hcovers⟩ := (explore_covers hv).2 roots []
    (Course.start o (v.before s roots).2) hlimit (List.forall_mem_nil _)
  have halong := explore_ends.2 roots [] (Course.start o (v.before s roots).2) []
    (along_start v o (v.before s roots).2)
  rw [hc] at halong
  have hwhole : depthFirst v o s roots = { c with state := v.after c.state roots } := by
    unfold depthFirst
    cases hb : v.before s roots with
    | mk answer s' =>
        rw [hb] at hbefore hc
        cases hbefore
        simp only [hc, Course.ofEnd]
  rw [hwhole]
  exact ⟨⟨hcovers.entered, hcovers.counted⟩, congrArg (v.after · roots) halong.state⟩

/-- If all kinds are shown, the places within the limit are entered. -/
theorem depthFirst_covers {v : Visitor σ} {o : Options} (hv : v.Patient) (ho : o.ShowsAll)
    (hlimit : 0 ≤ o.maxDepth) (s : σ) (roots : List Node) :
    (entries (depthFirst v o s roots).calls).map Call.standpoint =
        ((placesIn [] roots).filter o.reaches).map (Place.standpoint o) ∧
      (depthFirst v o s roots).state =
        v.after (replay v (v.before s roots).2 (depthFirst v o s roots).calls) roots := by
  obtain ⟨hcovers, hstate⟩ := depthFirst_reached hv hlimit s roots
  have hsame : o.covers = o.reaches := by
    funext p
    simp [Options.covers, ho.skipKinds]
  have hentered := hcovers.entered
  rw [List.filter_eq_self.2 fun p _ => ho.shows p.node.kind, hsame] at hentered
  exact ⟨hentered, hstate⟩

/-- Calls at the standpoints of places pair each of the places with a trail that shows it. -/
theorem exists_visits {o : Options} (htrack : o.trackTrail = true) {calls : List Call}
    {places : List Place} (h : calls.map Call.standpoint = places.map (Place.standpoint o)) :
    ∃ visits : List (Place × Trail), visits.map Prod.fst = places ∧
      (∀ visit ∈ visits, visit.2.Shows visit.1) ∧
      calls.map (fun c => (c.node, c.trail)) = visits.map fun visit => (visit.1.node, visit.2) := by
  induction places generalizing calls with
  | nil =>
      have hnone : calls = [] := by simpa using h
      exact ⟨[], rfl, List.forall_mem_nil _, by rw [hnone]; rfl⟩
  | cons p places ih =>
      cases calls with
      | nil => simp at h
      | cons call calls =>
          rw [List.map_cons, List.map_cons] at h
          obtain ⟨hcall, hrest⟩ := List.cons.inj h
          rw [standpoint_of_tracking htrack] at hcall
          obtain ⟨hnode, hframes⟩ := Prod.mk.inj hcall
          obtain ⟨visits, hplaces, hshown, hcalls⟩ := ih hrest
          refine ⟨(p, call.trail) :: visits, by rw [List.map_cons, hplaces], ?_, ?_⟩
          · intro visit hvisit
            rcases List.mem_cons.1 hvisit with rfl | hvisit
            · exact Trail.shows_of_frames hframes
            · exact hshown visit hvisit
          · rw [List.map_cons, List.map_cons, hcalls, hnode]

/-! ### The figures of a walk -/

/-- If at no place children are left out because of the limit, and no kinds are skipped, a walk
comes to every place. -/
theorem covers_of_uncut {o : Options} (hlimit : 0 ≤ o.maxDepth) (hskip : o.skipKinds = [])
    {roots : List Node} (huncut : ∀ p ∈ (placesIn [] roots).filter o.covers, o.cuts p = false)
    {p : Place} (hp : p ∈ placesIn [] roots) : o.covers p = true := by
  have hdepth : ∀ q : Place, o.covers q = true ↔ (q.above.length : Int) ≤ o.maxDepth := by
    intro q
    simp [Options.covers, Options.reaches, hskip]
  obtain ⟨n, above⟩ := p
  have hway : Way roots n above := mem_placesIn_iff.1 hp
  clear hp
  induction hway with
  | root h => exact (hdepth _).2 hlimit
  | @child m k above hway hm ih =>
      have hk : ⟨k, above⟩ ∈ (placesIn [] roots).filter o.covers :=
        List.mem_filter.2 ⟨mem_placesIn_iff.2 hway, ih⟩
      have hne : (above.length : Int) ≠ o.maxDepth := by
        intro heq
        have hchildren : k.children.isEmpty = false :=
          List.isEmpty_eq_false_iff_exists_mem.2 ⟨m, hm⟩
        have hcut := huncut _ hk
        simp [Options.cuts, heq, hchildren] at hcut
      have hle := (hdepth _).1 ih
      refine (hdepth _).2 ?_
      rw [List.length_cons]
      dsimp only at hle
      omega

/-- **The figures of a walk.**  If nodes are counted and the visitor lets the walk go on, the walk
counts each place within the depth limit that has no node of a skipped kind on the way down to it,
whatever kinds are shown to the visitor.  The kinds are counted for these places, the greatest depth
is theirs, and the limit was hit at those of them at the limit that have children.  So if the limit
was not hit and no kinds are skipped, every place of the forest was counted once. -/
theorem traverse_figures {v : Visitor σ} (hv : v.Patient) {o : Options}
    (hcount : o.countNodes = true) (hlimit : 0 ≤ o.maxDepth) (s : σ) (roots : List Node) :
    let places := (placesIn [] roots).filter o.covers
    let t := (traverse v o s roots).2
    t.visited = places.length ∧
      (∀ kind count, Assoc.get? t.kinds kind = some count ↔
        0 < count ∧ places.countP (fun p => p.node.kind == kind) = count) ∧
      t.deepest = (places.map fun p => p.above.length).max?.getD 0 ∧
      t.limitHits = places.countP (fun p =>
        decide ((p.above.length : Int) = o.maxDepth) && !p.node.children.isEmpty) ∧
      (entries (traverse v.logged o ([], s) roots).1.1).map Call.node =
        (places.filter fun p => o.shows p.node.kind).map Place.node ∧
      (t.limitHits = 0 → o.skipKinds = [] →
        places = placesIn [] roots ∧ t.visited = (Node.preorderList roots).length) := by
  intro places t
  obtain ⟨hcovers, _⟩ := depthFirst_reached hv hlimit s roots
  have htrail : t = (depthFirst v o s roots).trail :=
    congrArg Prod.snd ((echoes_self v).traverse o s roots)
  have hcounts := hcovers.counted hcount
  rw [← htrail] at hcounts
  have hvisited : t.visited = places.length := by simpa [Course.start] using hcounts.visited
  have hhits : t.limitHits = places.countP o.cuts := by simpa [Course.start] using hcounts.limitHits
  refine ⟨hvisited, ?_, ?_, hhits, ?_, ?_⟩
  · intro kind count
    have hkinds : Assoc.get? t.kinds kind =
        if places.countP (fun p => p.node.kind == kind) = 0 then none
        else some (0 + places.countP fun p => p.node.kind == kind) := by
      rw [hcounts.kinds, Assoc.get?_foldl_bump]
      rfl
    rw [hkinds]
    split
    · simp only [reduceCtorEq, false_iff]
      omega
    · rw [Option.some.injEq]
      omega
  · rw [hcounts.deepest, List.foldl_max]
    exact Nat.zero_max _
  · have hcalls : (traverse v.logged o ([], s) roots).1.1 = (depthFirst v o s roots).calls := by
      rw [(echoes_logged v).traverse o s roots]
      rfl
    have hnodes := congrArg (List.map Prod.fst) hcovers.entered
    simp only [Course.entered, Course.start, entries, List.filter_nil, List.map_nil,
      List.nil_append, List.map_map] at hnodes
    rw [hcalls]
    exact hnodes
  · intro hnone hskip
    rw [hhits, List.countP_eq_zero] at hnone
    have hall : places = placesIn [] roots := List.filter_eq_self.2 fun p hp =>
      covers_of_uncut hlimit hskip (fun q hq => Bool.eq_false_iff.2 (hnone q hq)) hp
    refine ⟨hall, ?_⟩
    rw [hvisited, hall, ← map_node_placesIn [], List.length_map]

/-- A tree in which a kind is skipped and the limit cuts a branch short. -/
def pruned : Node :=
  let node (kind : String) (children : List Node) : Node :=
    { kind, span := { startLine := 1 }, children }
  node "program" [node "block" [node "block" [node "call" []], node "comment" [node "call" []]],
    node "comment" [], node "call" []]

/-- No more than two steps down, past comments, with calls shown to the visitor alone. -/
def prunedOptions : Options :=
  { maxDepth := 2, skipKinds := ["comment"], onlyKinds := ["call"] }

theorem collecting_patient (test : Node → Bool) : (collecting test).Patient where
  before _ _ := rfl
  respond phase _ _ _ := by cases phase <;> rfl

/-- Four nodes are counted, two of them blocks, and the inner block hits the limit. -/
theorem pruned_figures :
    let t := (traverse (collecting fun _ => true) prunedOptions [] [pruned]).2
    (collecting fun _ => true).Patient ∧ prunedOptions.countNodes = true ∧
      0 ≤ prunedOptions.maxDepth ∧ t.visited = 4 ∧ Assoc.get? t.kinds "block" = some 2 ∧
      t.deepest = 2 ∧ t.limitHits = 1 := by
  intro t
  obtain ⟨hvisited, hkinds, hdeepest, hhits, _⟩ :=
    traverse_figures (collecting_patient fun _ => true) (o := prunedOptions) rfl (by decide) []
      [pruned]
  exact ⟨collecting_patient _, rfl, by decide, hvisited.trans (by decide),
    (hkinds "block" 2).2 ⟨by decide, by decide⟩, hdeepest.trans (by decide),
    hhits.trans (by decide)⟩

/-! ### Gathering and searching -/

theorem replay_collecting (test : Node → Bool) (found : List Node) (calls : List Call) :
    replay (collecting test) found calls =
      found ++ ((entries calls).map Call.node).filter test := by
  induction calls generalizing found with
  | nil => simp [replay, entries]
  | cons c calls ih =>
      have hfirst : replay (collecting test) found (c :: calls) =
          replay (collecting test)
            ((collecting test).respond c.phase found c.node c.trail).2 calls := rfl
      rw [hfirst, ih]
      cases hphase : c.phase with
      | entry => cases htest : test c.node <;>
          simp [entries, hphase, htest, collecting, Visitor.respond]
      | exit => simp [entries, hphase, collecting, Visitor.respond]

/-- How a search for a node ends: it is stopped with the first node that passes the test, or it goes
on with none. -/
def Seeks (first : Option Node) : Except (Course (Option Node)) (Course (Option Node)) → Prop
  | .ok c => first = none ∧ c.state = none
  | .error c => first.isSome = true ∧ c.state = first

theorem Seeks.bind {first second : Option Node}
    {x : Except (Course (Option Node)) (Course (Option Node))}
    {f : Course (Option Node) → Except (Course (Option Node)) (Course (Option Node))}
    (h : Seeks first x) (hf : ∀ c, c.state = none → Seeks second (f c)) :
    Seeks (first.or second) (x >>= f) := by
  cases x with
  | ok c =>
      rw [h.1, Option.none_or]
      exact hf c h.2
  | error c =>
      obtain ⟨m, hm⟩ := Option.isSome_iff_exists.1 h.1
      rw [hm, Option.some_or, ← hm]
      exact h

section Seeking

variable {o : Options} {test : Node → Bool}

theorem seeks_depart (ho : o.ShowsAll) {c : Course (Option Node)} (hc : c.state = none)
    (above : List Node) (n : Node) : Seeks none (c.depart (finding test) o above n) := by
  rw [Course.depart, Course.tell_of_shown (ho.shows n.kind)]
  exact ⟨rfl, hc⟩

/-- **A search for a node is stopped at the first one in pre-order that passes the test.** -/
theorem explore_seeks (ho : o.ShowsAll) :
    (∀ n above c, c.state = none → (∀ p ∈ placesOf above n, o.reaches p = true) →
      Seeks (n.preorder.find? test) (explore (finding test) o above c n)) ∧
    ∀ ns above c, c.state = none → (∀ p ∈ placesIn above ns, o.reaches p = true) →
      Seeks ((Node.preorderList ns).find? test) (exploreAll (finding test) o above c ns) := by
  refine Node.forest_induction ?_ ?_ ?_
  · intro n ih above c hc hdepth
    have hkind : o.skipKinds.contains n.kind = false := by rw [ho.skipKinds]; rfl
    have hstate : (c.reach o above n).state = none := (c.reach_state o above n).trans hc
    rw [explore_eq, hkind, if_neg Bool.false_ne_true, Course.tell_of_shown (ho.shows n.kind),
      preorder_eq]
    generalize c.reach o above n = here at hstate
    cases htest : test n with
    | true =>
        simp only [Course.call, Course.told, Visitor.respond, finding, htest, if_true,
          List.find?_cons_of_pos]
        exact ⟨rfl, rfl⟩
    | false =>
        rw [List.find?_cons_of_neg (by simp [htest])]
        simp only [Course.call, Course.told, Visitor.respond, finding, htest, Bool.false_eq_true,
          if_false]
        rw [placesOf_eq] at hdepth
        have hchildren := (List.forall_mem_cons.1 hdepth).2
        rw [← Option.or_none (o := (Node.preorderList n.children).find? test)]
        refine Seeks.bind ?_ fun c' hc' => seeks_depart ho hc' above n
        split
        · rename_i hlimit
          -- a child would be below the limit
          have hleaf : n.children = [] := by
            refine List.eq_nil_iff_forall_not_mem.2 fun m hm => ?_
            have hreach := hchildren _ (mem_placesIn_of_mem hm)
            simp only [Options.reaches, List.length_cons, decide_eq_true_eq] at hreach
            omega
          rw [hleaf]
          exact ⟨rfl, hstate⟩
        · exact ih (n :: above) _ hstate hchildren
  · exact fun above c hc _ => ⟨rfl, hc⟩
  · intro n ns ihn ihns above c hc hdepth
    rw [placesIn] at hdepth
    rw [exploreAll, Node.preorderList, List.find?_append]
    refine (ihn above c hc fun p hp => hdepth p (List.mem_append_left _ hp)).bind ?_
    exact fun c' hc' => ihns above c' hc' fun p hp => hdepth p (List.mem_append_right _ hp)

end Seeking

/-- **The two walks agree.**  In a tree within the depth limit, of which no kinds are left out, the
gathering visitor comes to the nodes of the stack walk that pass the test, in order, and the
searching visitor to the first of them; it stops the walk exactly if there is one.  Both walks list
the nodes in pre-order. -/
theorem walks_agree (n : Node) {o : Options} (ho : o.ShowsAll)
    (hdepth : ∀ p ∈ placesIn [] [n], o.reaches p = true) (test : Node → Bool) (s : List Node)
    (s' : Option Node) :
    (traverse (collecting test) o s [n]).1 = n.walk.filter test ∧
      (traverse (finding test) o s' [n]).1 = n.findFirst? test ∧
      n.findFirst? test = (n.walk.filter test).head? ∧
      ((traverse (finding test) o s' [n]).2.stopped = true ↔ ∃ m ∈ n.walk, test m = true) ∧
      (traverse (collecting fun _ => true) o s [n]).1 = n.preorder ∧ n.walk = n.preorder := by
  have hwalk : n.walk = Node.preorderList [n] := walkStack_eq [n]
  have hroot : n.preorder = Node.preorderList [n] := (List.append_nil _).symm
  have hlimit : 0 ≤ o.maxDepth :=
    of_decide_eq_true (hdepth ⟨n, []⟩ (mem_placesIn_of_mem List.mem_cons_self))
  -- gathering: every place is within the limit
  have hgather : ∀ test, (traverse (collecting test) o s [n]).1 =
      (Node.preorderList [n]).filter test := by
    intro test
    obtain ⟨hentered, hstate⟩ := depthFirst_covers (collecting_patient test) ho hlimit s [n]
    have hnodes := congrArg (List.map Prod.fst) hentered
    rw [List.filter_eq_self.2 hdepth, List.map_map, List.map_map] at hnodes
    rw [(echoes_self (collecting test)).traverse o s [n]]
    refine hstate.trans ((replay_collecting test [] _).trans ?_)
    rw [List.nil_append, ← map_node_placesIn []]
    exact congrArg (List.filter test) hnodes
  -- searching: the course is that of the recursion
  have hsought : Seeks ((Node.preorderList [n]).find? test)
      (exploreAll (finding test) o [] (Course.start o none) [n]) :=
    (explore_seeks ho).2 [n] [] _ rfl hdepth
  have hends := (explore_ends (v := finding test)).2 [n] [] (Course.start o none) []
    (along_start (finding test) o none)
  have hseek : traverse (finding test) o s' [n] =
      ((Course.ofEnd (exploreAll (finding test) o [] (Course.start o none) [n])).state,
        (Course.ofEnd (exploreAll (finding test) o [] (Course.start o none) [n])).trail) :=
    (echoes_self (finding test)).traverse o s' [n]
  have hfound : n.findFirst? test = (Node.preorderList [n]).find? test := by
    rw [Node.findFirst?, hwalk]
  rw [hseek, hfound]
  refine ⟨by rw [hgather, hwalk], ?_, by rw [hwalk, List.head?_filter], ?_, ?_,
    by rw [hwalk, hroot]⟩
  · cases hcourse : exploreAll (finding test) o [] (Course.start o none) [n] with
    | ok c =>
        rw [hcourse] at hsought
        exact hsought.2.trans hsought.1.symm
    | error c =>
        rw [hcourse] at hsought
        exact hsought.2
  · rw [hwalk, ← List.any_eq_true, ← List.isSome_find?]
    cases hcourse : exploreAll (finding test) o [] (Course.start o none) [n] with
    | ok c =>
        rw [hcourse] at hsought hends
        have hgo : c.trail.stopped = false := hends.running
        simp [Course.ofEnd, hgo, hsought.1]
    | error c =>
        rw [hcourse] at hsought hends
        exact iff_of_true hends.stopped hsought.1
  · rw [hgather, hroot, List.filter_eq_self.2 fun _ _ => rfl]

/-- In the tree above the calls are gathered in order, and the first block stops a search. -/
theorem pruned_walks_agree :
    ({ maxDepth := 3 } : Options).ShowsAll ∧
      (∀ p ∈ placesIn [] [pruned], ({ maxDepth := 3 } : Options).reaches p = true) ∧
      (traverse (collecting fun n => n.kind == "call") { maxDepth := 3 } [] [pruned]).1 =
        pruned.walk.filter (fun n => n.kind == "call") ∧
      (traverse (finding fun n => n.kind == "block") { maxDepth := 3 } none [pruned]).1 =
        pruned.findFirst? fun n => n.kind == "block" := by
  have hdepth : ∀ p ∈ placesIn [] [pruned], ({ maxDepth := 3 } : Options).reaches p = true := by
    decide
  exact ⟨⟨rfl, rfl⟩, hdepth, (walks_agree pruned ⟨rfl, rfl⟩ hdepth _ [] none).1,
    (walks_agree pruned ⟨rfl, rfl⟩ hdepth _ [] none).2.1⟩

end PhpAudit.Walk
