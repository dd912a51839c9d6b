/-
**What a trail says about the surroundings of a node.**

Rules ask the trail whether a node stands in a loop or in a class for tests.  Their answers are
right only if the frames of the trail are those of the node and of all nodes above it, at every
entry and at every exit, whatever was passed over or cut short before.  They are: a visitor that is
told of a node sees the way from the root down to it.  When the walk is over the trail is empty
again, unless a visitor stopped it; then the nodes above the one where it stopped are left.

Main definitions:

* `Walk.Trail.Shows` — the trail has the frames of a place, and all its answers are about it.

Main results:

* `Walk.Nested.exists_entry` — every call stands where some node was entered;
* `Walk.shows_of_mem_calls` — the trail of a call shows the place of its node;
* `Walk.trail_shows_the_way` — **at every call the trail shows the way down to the node**.
-/

import PhpAudit.Proofs.Walk.Refinement

set_option autoImplicit false

namespace PhpAudit.Walk

variable {σ : Type}

/-! ### Answers about a place -/

/-- The trail has the frames of a place, each at the depth of its position, and what it says is
about the node of the place and the nodes above it. -/
structure Trail.Shows (t : Trail) (p : Place) : Prop where
  frames : t.frames.map Frame.node = p.node :: p.above
  depths : t.frames.reverse.map Frame.depth = List.range (p.above.length + 1)
  current : t.current? = some p.node
  depth : t.depth = p.above.length
  parent : t.parent? = p.above.head?
  ancestors : t.ancestors = p.above
  nearest : ∀ limit : Nat, t.ancestorsUpTo limit = p.above.take limit
  inside : ∀ kinds, t.isInside kinds = true ↔ ∃ a ∈ p.above, a.kind ∈ kinds
  found : ∀ test, t.findAncestor? test = p.above.find? test
  counted : ∀ kinds, t.countAncestors kinds = (p.above.filter fun a => kinds.contains a.kind).length

theorem Trail.shows_of_frames {t : Trail} {p : Place}
    (h : t.frames = framesOf (p.node :: p.above)) : t.Shows p := by
  have hancestors : t.ancestors = p.above := by
    unfold Trail.ancestors
    rw [h]
    exact map_node_framesOf p.above
  refine ⟨?_, ?_, ?_, ?_, ?_, hancestors, ?_, ?_, ?_, ?_⟩
  · rw [h, map_node_framesOf]
  · rw [h, depth_framesOf, List.length_cons]
  · simp [Trail.current?, h, framesOf]
  · simp [Trail.depth, h, framesOf]
  · rw [Trail.parent?, hancestors]
  · intro limit
    simp only [Trail.ancestorsUpTo, hancestors]
    rw [if_neg (by omega), Int.toNat_natCast]
  · intro kinds
    simp [Trail.isInside, hancestors]
  · intro test
    rw [Trail.findAncestor?, hancestors]
  · intro kinds
    rw [Trail.countAncestors, hancestors, List.countP_eq_length_filter]

/-! ### Calls and places -/

/-- Every call stands where some node was entered. -/
theorem Nested.exists_entry {calls unclosed : List Call} (h : Nested calls unclosed) :
    (∀ e ∈ unclosed, e ∈ entries calls) ∧
      ∀ c ∈ calls, ∃ e ∈ entries calls, e.standpoint = c.standpoint := by
  have hmono : ∀ (calls : List Call) (c : Call), ∀ e ∈ entries calls,
      e ∈ entries (calls ++ [c]) := by
    intro calls c e he
    unfold entries at he ⊢
    rw [List.filter_append]
    exact List.mem_append_left _ he
  induction h with
  | nil => simp
  | @entry calls unclosed c h hc ih =>
      obtain ⟨ihopen, ihcalls⟩ := ih
      have hself : c ∈ entries (calls ++ [c]) := by simp [entries, hc]
      refine ⟨fun e he => ?_, fun c' hc' => ?_⟩
      · rcases List.mem_cons.1 he with rfl | he
        · exact hself
        · exact hmono calls c e (ihopen e he)
      · rcases List.mem_append.1 hc' with hc' | hc'
        · obtain ⟨e, he, heq⟩ := ihcalls c' hc'
          exact ⟨e, hmono calls c e he, heq⟩
        · rw [List.mem_singleton.1 hc']
          exact ⟨c, hself, rfl⟩
  | @exit calls unclosed e c h hc hat ih =>
      obtain ⟨ihopen, ihcalls⟩ := ih
      refine ⟨fun e' he' => hmono calls c e' (ihopen e' (List.mem_cons_of_mem _ he')), ?_⟩
      intro c' hc'
      rcases List.mem_append.1 hc' with hc' | hc'
      · obtain ⟨e', he', heq⟩ := ihcalls c' hc'
        exact ⟨e', hmono calls c e' he', heq⟩
      · rw [List.mem_singleton.1 hc']
        exact ⟨e, hmono calls c e (ihopen e List.mem_cons_self), hat.symm⟩

theorem standpoint_of_tracking {o : Options} (h : o.trackTrail = true) (p : Place) :
    p.standpoint o = (p.node, framesOf (p.node :: p.above)) := by
  unfold Place.standpoint Options.frames
  rw [if_pos h]

/-- Every call of a search stands at a place of the forest. -/
theorem exists_place_of_mem_calls {o : Options} (htrack : o.trackTrail = true) {roots : List Node}
    {c : Course σ} {unclosed : List Call} (hnested : Nested c.calls unclosed)
    (hplaces : c.entered.Sublist ((placesIn [] roots).map (Place.standpoint o))) :
    ∀ call ∈ c.calls, ∃ p ∈ placesIn [] roots, call.node = p.node ∧
      call.trail.frames = framesOf (p.node :: p.above) := by
  intro call hcall
  obtain ⟨e, he, heq⟩ := hnested.exists_entry.2 call hcall
  have hmem : e.standpoint ∈ (placesIn [] roots).map (Place.standpoint o) :=
    hplaces.subset (List.mem_map_of_mem he)
  obtain ⟨p, hp, hstand⟩ := List.mem_map.1 hmem
  rw [standpoint_of_tracking htrack, heq] at hstand
  exact ⟨p, hp, (congrArg Prod.fst hstand).symm, (congrArg Prod.snd hstand).symm⟩

/-- At every call of a walk that keeps a trail, the trail shows the place of the node. -/
theorem shows_of_mem_calls (v : Visitor σ) (o : Options) (s : σ) (roots : List Node)
    (htrack : o.trackTrail = true) {call : Call}
    (hcall : call ∈ (traverse v.logged o ([], s) roots).1.1) :
    ∃ p : Place, Way roots p.node p.above ∧ call.node = p.node ∧ call.trail.Shows p := by
  have hwalk : traverse v.logged o ([], s) roots =
      (depthFirst v o s roots).seen fun calls s => (calls, s) :=
    (echoes_logged v).traverse o s roots
  rw [hwalk] at hcall
  rcases depthFirst_cases v o s roots with
    ⟨s', _, heq⟩ | ⟨_, s', c, _, _, heq, hend, hplaces⟩
  · rw [heq] at hcall
    exact absurd hcall List.not_mem_nil
  · rw [heq] at hcall
    obtain ⟨unclosed, hnested⟩ : ∃ unclosed, Nested c.calls unclosed :=
      hend.elim (fun h => ⟨[], h.nested⟩) fun h => h.nested
    obtain ⟨p, hp, hnode, hframes⟩ := exists_place_of_mem_calls htrack hnested hplaces call hcall
    exact ⟨p, mem_placesIn_iff.1 hp, hnode, Trail.shows_of_frames hframes⟩

theorem frames_of_tracking {o : Options} (h : o.trackTrail = true) (way : List Node) :
    o.frames way = framesOf way := by
  unfold Options.frames
  rw [if_pos h]

/-- Frames tell the nodes that they come from. -/
theorem framesOf_inj {way way' : List Node} (h : framesOf way = framesOf way') : way = way' := by
  rw [← map_node_framesOf way, h, map_node_framesOf]

/-- **At every call the trail shows the way down to the node.**  With trails kept, for every
visitor and all other options: each entry is at a place of its own, in pre-order, and each exit
stands where its entry stood; at both, the frames lead from a root down to the node, and the
answers of the trail are about the nodes above it.  After the walk no frames are left, unless it
was stopped; then those of the nodes above the one where it was stopped are left, or none if it was
refused at the beginning. -/
theorem trail_shows_the_way (v : Visitor σ) (o : Options) (s : σ) (roots : List Node)
    (htrack : o.trackTrail = true) :
    let r := traverse v.logged o ([], s) roots
    ((entries r.1.1).map Call.standpoint).Sublist
        ((placesIn [] roots).map fun p => (p.node, framesOf (p.node :: p.above))) ∧
      (∃ unclosed, Nested r.1.1 unclosed) ∧
      (∀ call ∈ r.1.1, ∃ p : Place, Way roots p.node p.above ∧ call.node = p.node ∧
        call.trail.Shows p) ∧
      (r.2.stopped = false → r.2.frames = []) ∧
      (r.2.stopped = true →
        (v.before s roots).1 = .stop ∧ r.1.1 = [] ∧ r.2.frames = [] ∨
        ∃ last p, r.1.1.getLast? = some last ∧ last.answer = .stop ∧ last.node = p.node ∧
          Way roots p.node p.above ∧ last.trail.Shows p ∧ r.2.frames = framesOf p.above) := by
  have hstand : Place.standpoint o = fun p => (p.node, framesOf (p.node :: p.above)) :=
    funext (standpoint_of_tracking htrack)
  intro r
  have hr : r = (depthFirst v o s roots).seen fun calls s => (calls, s) :=
    (echoes_logged v).traverse o s roots
  rw [hr]
  rcases depthFirst_cases v o s roots with
    ⟨s', hbefore, heq⟩ | ⟨_, s', c, _, _, heq, hend, hplaces⟩
  · -- refused: no call was made
    rw [heq]
    have hframes : ((Course.start o s').halt o []).trail.frames = [] := frames_nil o
    refine ⟨List.nil_sublist _, ⟨[], .nil⟩, ?_, fun _ => hframes, fun _ => .inl ⟨?_, rfl, hframes⟩⟩
    · exact List.forall_mem_nil _
    · rw [hbefore]
  · rw [heq]
    have hnested : ∃ unclosed, Nested c.calls unclosed :=
      hend.elim (fun h => ⟨[], h.nested⟩) fun h => h.nested
    obtain ⟨unclosed, hunclosed⟩ := hnested
    have hcalls := exists_place_of_mem_calls htrack hunclosed hplaces
    refine ⟨hstand ▸ hplaces, ⟨unclosed, hunclosed⟩, ?_, ?_, ?_⟩
    · intro call hcall
      obtain ⟨p, hp, hnode, hframes⟩ := hcalls call hcall
      exact ⟨p, mem_placesIn_iff.1 hp, hnode, Trail.shows_of_frames hframes⟩
    · intro hgo
      rcases hend with halong | hhalted
      · exact halong.frames.trans (frames_nil o)
      · exact absurd (hhalted.stopped.symm.trans hgo) (by decide)
    · intro hstop
      rcases hend with halong | hhalted
      · exact absurd (halong.running.symm.trans hstop) (by decide)
      · obtain ⟨earlier, last, above, hlast, hanswer, _, hframes, hleft⟩ := hhalted.last
        rw [frames_of_tracking htrack] at hframes hleft
        obtain ⟨p, hp, hnode, hshown⟩ := hcalls last (by simp [hlast])
        -- the frames of the last call are those of a place, so what is left is above that place
        have habove : last.node :: above = p.node :: p.above :=
          framesOf_inj (hframes.symm.trans hshown)
        refine .inr ⟨last, p, by simp [Course.seen, hlast], hanswer, hnode, mem_placesIn_iff.1 hp,
          Trail.shows_of_frames hshown, ?_⟩
        rw [← (List.cons.inj habove).2]
        exact hleft

/-- A program with a loop around a call. -/
def callInLoop : Node :=
  { kind := "program", span := { startLine := 1 }
    children :=
      [{ kind := "loop", span := { startLine := 2 }
         children := [{ kind := "call", span := { startLine := 3 } }] }] }

/-- A visitor that stops at the exit of a call. -/
def leaver : Visitor Unit :=
  { leave := fun s n _ => (if n.kind == "call" then .stop else .proceed, s) }

/-- The walk through the program stops at the call, and the loop and the program are left. -/
theorem callInLoop_shows_the_way :
    let r := traverse leaver.logged {} ([], ()) [callInLoop]
    ({} : Options).trackTrail = true ∧ r.2.stopped = true ∧
      r.2.frames.map (fun f => (f.node.kind, f.depth)) = [("loop", 1), ("program", 0)] ∧
      ((entries r.1.1).map Call.standpoint).Sublist
        ((placesIn [] [callInLoop]).map fun p => (p.node, framesOf (p.node :: p.above))) ∧
      (∃ unclosed, Nested r.1.1 unclosed) ∧
      (∀ call ∈ r.1.1, ∃ p : Place, Way [callInLoop] p.node p.above ∧ call.node = p.node ∧
        call.trail.Shows p) ∧
      ∃ last p, r.1.1.getLast? = some last ∧ last.answer = .stop ∧ last.node = p.node ∧
        Way [callInLoop] p.node p.above ∧ last.trail.Shows p ∧ r.2.frames = framesOf p.above := by
  intro r
  have hr : r = (depthFirst leaver {} () [callInLoop]).seen fun calls s => (calls, s) :=
    (echoes_logged leaver).traverse {} () [callInLoop]
  have hstopped : r.2.stopped = true := by
    rw [hr]
    rfl
  have hframes : r.2.frames.map (fun f => (f.node.kind, f.depth)) =
      [("loop", 1), ("program", 0)] := by
    rw [hr]
    rfl
  obtain ⟨hentries, hnested, hcalls, _, hleft⟩ :=
    trail_shows_the_way leaver {} () [callInLoop] rfl
  refine ⟨rfl, hstopped, hframes, hentries, hnested, hcalls, ?_⟩
  rcases hleft hstopped with ⟨hrefused, _⟩ | hlast
  · exact absurd hrefused (by decide)
  · exact hlast

end PhpAudit.Walk
