import R1Emu.Zone.GraphSymmetry

/-!
# The removal of a node

`graphRemoveNode` unlinks a node from all its neighbours and leaves the arcs between other
nodes in their places. It never touches the table: the node stays in the graph, and a client
that connects again under its key gets the old node.
-/
namespace R1Emu.Zone
open R1Emu.Lib

variable {Key : Type} [DecidableEq Key]

omit [DecidableEq Key] in
def graphGetNode (g : Graph Key) (key : Key) : Option (GraphNode Key) := g.nodes key

/-- No arc from or to the node is left, and the others are where they were. -/
structure Unlinked (g : Graph Key) (key : Key) (g' : Graph Key) : Prop where
  from_key : g'.neighbours key = []
  to_key : ∀ n, key ∉ g'.neighbours n
  others : ∀ n, n ≠ key → (g'.arcs n).items = (g.arcs n).items.filter (·.toNode ≠ key)

/-- The node has left the graph, and its key is free for a new one. -/
structure Removed (g : Graph Key) (key : Key) (g' : Graph Key) : Prop extends
    Unlinked g key g' where
  missing : graphGetNode g' key = none
  fresh : graphGetNode (eventServerGetClientNode g' key) key = some graphNodeNew

section Others

variable {g g' : Graph Key} {key : Key}

/-- The arcs of `n` that do not lead to `key`. -/
def otherArcs (key : Key) (g : Graph Key) (n : Key) : List (GraphArc Key) :=
  (g.arcs n).items.filter (·.toNode ≠ key)

theorem otherArcs_setArcs {m : Key} {l : CursorList (GraphArc Key)}
    (hl : l.items = (g.arcs m).items) (n : Key) :
    otherArcs key (g.setArcs m l) n = otherArcs key g n := by
  rw [otherArcs, Graph.items_setArcs hl, otherArcs]

/-- An arc at the node, or one towards it, is no arc between other nodes. -/
theorem Drops.otherArcs {source target : Key} (h : Drops g source target g')
    (hkey : source = key ∨ target = key) {n : Key} (hn : n ≠ key) :
    otherArcs key g' n = otherArcs key g n := by
  obtain ⟨before, arc, behind, hitems, -, harc, rfl⟩ := h
  by_cases hsource : n = source
  · subst hsource
    have hto : arc.toNode = key := harc.trans (hkey.resolve_left hn)
    simp [Zone.otherArcs, hitems, hto]
  · rw [Zone.otherArcs, Graph.arcs_setArcs, Function.update_of_ne hsource, Zone.otherArcs]

theorem otherArcs_graphUnlink (g : Graph Key) (m : Key) {n : Key} (hn : n ≠ key) :
    otherArcs key (graphUnlink g key m).2 n = otherArcs key g n := by
  rcases graphUnlink_cases g key m with ⟨-, hunlink⟩ | ⟨g1, h1, ⟨-, hunlink⟩ | ⟨g2, h2, hunlink⟩⟩
  · rw [hunlink]
    exact otherArcs_setArcs (CursorList.items_rewind _) n
  · rw [hunlink, otherArcs_setArcs (CursorList.items_rewind _) n]
    exact h1.otherArcs (.inl rfl) hn
  · rw [hunlink, h2.otherArcs (.inr rfl) hn]
    exact h1.otherArcs (.inl rfl) hn

theorem otherArcs_graphRemoveArcs {fuel : ℕ} {done : Bool}
    (hrun : graphRemoveArcs key fuel g = some (done, g')) {n : Key} (hn : n ≠ key) :
    otherArcs key g' n = otherArcs key g n := by
  induction fuel generalizing g with
  | zero => exact absurd hrun (Option.some_ne_none _).symm
  | succ fuel ih =>
    have hfirst : (g.arcs key).first.2.items = (g.arcs key).items := CursorList.items_next _
    rw [graphRemoveArcs] at hrun
    rcases hseek : (g.arcs key).first with ⟨_ | arc, l⟩
    · rw [hseek] at hrun hfirst
      cases hrun
      exact otherArcs_setArcs hfirst n
    · rw [hseek] at hrun hfirst
      have hunlink := otherArcs_graphUnlink (g.setArcs key l) arc.toNode hn
      rw [otherArcs_setArcs hfirst] at hunlink
      rcases hdone : graphUnlink (g.setArcs key l) key arc.toNode with ⟨_ | _, g1⟩
      · simp only [hdone] at hrun hunlink
        cases hrun
        exact hunlink
      · simp only [hdone] at hrun hunlink
        exact (ih hrun).trans hunlink

end Others

/-- The removal of a node ends and unlinks it. -/
theorem Balanced.graphRemoveNode_unlinked {g : Graph Key} (h : Balanced g) (key : Key) :
    ∃ g', Zone.graphRemoveNode g key = some (true, g') ∧ Shrinks g g' ∧ Unlinked g key g' := by
  obtain ⟨g', hrun, hisolated⟩ := h.graphRemoveNode key
  have hto : ∀ n, key ∉ g'.neighbours n := by
    intro n
    apply List.count_eq_zero.mp
    exact (hisolated.balanced.symm n key).trans (hisolated.from_key n)
  refine ⟨g', hrun, hisolated.shrinks, ?_, hto, fun n hn => ?_⟩
  · apply List.eq_nil_iff_forall_not_mem.mpr
    exact fun m => List.count_eq_zero.mp (hisolated.from_key m)
  · have hkept : otherArcs key g' n = (g'.arcs n).items := by
      apply List.filter_eq_self.mpr
      intro arc harc
      apply decide_eq_true
      rintro rfl
      exact hto n (List.mem_map_of_mem harc)
    rw [← hkept, otherArcs_graphRemoveArcs hrun hn, otherArcs]

/-- In every graph with symmetric links the removal of a node unlinks it, but the node stays in
the table: it never leaves the graph, and a client that connects again gets it back. -/
theorem removed_node_stays {g : Graph Key} (h : Balanced g) {key : Key} (hkey : g.Contains key) :
    (∃ g', graphRemoveNode g key = some (true, g') ∧ Unlinked g key g' ∧
      (graphGetNode g' key).isSome = true ∧ eventServerGetClientNode g' key = g') ∧
    ¬ ∃ g', graphRemoveNode g key = some (true, g') ∧ Removed g key g' := by
  obtain ⟨g', hrun, hshrinks, hunlinked⟩ := h.graphRemoveNode_unlinked key
  have hstays : g'.Contains key := hshrinks.contains key hkey
  refine ⟨⟨g', hrun, hunlinked, hstays, ?_⟩, ?_⟩
  · rw [eventServerGetClientNode, graphInsertNode, if_pos hstays]
  · rintro ⟨g'', hrun', hremoved⟩
    obtain rfl := (Prod.mk.inj (Option.some.inj (hrun.symm.trans hrun'))).2
    have hmissing := hremoved.missing
    rw [graphGetNode] at hmissing
    rw [Graph.Contains, hmissing] at hstays
    exact Bool.false_ne_true hstays

/-- Two linked clients, one of which leaves. -/
theorem removed_node_stays_linked :
    ∃ g', graphRemoveNode (graphLink (graphNew : Graph ℕ) 1 2) 1 = some (true, g') ∧
      (graphGetNode g' 1).isSome = true := by
  have hbalanced : Balanced (graphLink (graphNew : Graph ℕ) 1 2) := balanced_graphNew.graphLink 1 2
  have hcontains : (graphLink (graphNew : Graph ℕ) 1 2).Contains 1 := by decide
  obtain ⟨g', hrun, -, hstays, -⟩ := (removed_node_stays hbalanced hcontains).1
  exact ⟨g', hrun, hstays⟩

/-- The node of the client that has left is found under its key. -/
theorem left_client_is_found :
    (graphRemoveNode (graphLink (graphNew : Graph ℕ) 1 2) 1).map
        (fun r => (r.1, (graphGetNode r.2 1).isSome)) = some (true, true) ∧
      ¬ ∃ g', graphRemoveNode (graphLink (graphNew : Graph ℕ) 1 2) 1 = some (true, g') ∧
        Removed (graphLink graphNew 1 2) 1 g' := by
  have hfound : (graphRemoveNode (graphLink (graphNew : Graph ℕ) 1 2) 1).map
      (fun r => (r.1, (graphGetNode r.2 1).isSome)) = some (true, true) := by decide
  refine ⟨hfound, ?_⟩
  rintro ⟨g', hrun, hremoved⟩
  rw [hrun, Option.map_some, hremoved.missing] at hfound
  exact Bool.false_ne_true (Prod.mk.inj (Option.some.inj hfound)).2

end R1Emu.Zone
