import R1Emu.Zone.ProximityGraph

/-!
# The links of the graph are symmetric

Every operation keeps as many arcs from one node to another as back, and two for each link of
a node to itself. Hence an unlink that finds the first arc finds the second.
-/
namespace R1Emu.Zone
open R1Emu.Lib R1Emu.Lib.Transition

variable {Key : Type} [DecidableEq Key]

/-- As many arcs there as back, and two for each link of a node to itself. -/
structure Balanced (g : Graph Key) : Prop where
  symm : ∀ n m, g.arcCount n m = g.arcCount m n
  even : ∀ n, Even (g.arcCount n n)

structure WellFormed (g : Graph Key) : Prop extends Balanced g where
  fromNode : ∀ n, ∀ arc ∈ (g.arcs n).items, arc.fromNode = n
  contains : ∀ n, ∀ arc ∈ (g.arcs n).items, g.Contains arc.fromNode ∧ g.Contains arc.toNode

theorem balanced_graphNew : Balanced (graphNew : Graph Key) := ⟨fun _ _ => rfl, fun _ => ⟨0, rfl⟩⟩

theorem wellFormed_graphNew : WellFormed (graphNew : Graph Key) where
  toBalanced := balanced_graphNew
  fromNode _ _ h := absurd h List.not_mem_nil
  contains _ _ h := absurd h List.not_mem_nil

/-- Nodes and arcs of the one graph are in the other. -/
structure Shrinks (g g' : Graph Key) : Prop where
  subset : ∀ n, ∀ arc ∈ (g'.arcs n).items, arc ∈ (g.arcs n).items
  contains : ∀ n, g.Contains n → g'.Contains n

namespace Shrinks

variable {g g' g'' : Graph Key}

omit [DecidableEq Key] in
theorem trans (h : Shrinks g g') (h' : Shrinks g' g'') : Shrinks g g'' :=
  ⟨fun n arc harc => h.subset n arc (h'.subset n arc harc), fun n hn => h'.contains n (h.contains n hn)⟩

theorem setArcs {key : Key} {l : CursorList (GraphArc Key)} (hl : l.items = (g.arcs key).items) :
    Shrinks g (g.setArcs key l) where
  subset n arc harc := by rwa [Graph.items_setArcs hl] at harc
  contains n hn := (Graph.contains_setArcs g key n l).mpr (.inr hn)

theorem drops {source target : Key} (h : Drops g source target g') : Shrinks g g' :=
  ⟨h.subset, fun n hn => (h.contains n).mpr (.inr hn)⟩

theorem wellFormed (h : Shrinks g g') (hg : WellFormed g) (hbalanced : Balanced g') :
    WellFormed g' where
  toBalanced := hbalanced
  fromNode n arc harc := hg.fromNode n arc (h.subset n arc harc)
  contains n arc harc := (hg.contains n arc (h.subset n arc harc)).imp (h.contains _) (h.contains _)

end Shrinks

/-- Nothing is left of the links of `key`. -/
structure Isolated (g : Graph Key) (key : Key) (g' : Graph Key) : Prop where
  balanced : Balanced g'
  from_key : ∀ m, g'.arcCount key m = 0
  others : ∀ n m, n ≠ key → m ≠ key → g'.arcCount n m = g.arcCount n m
  shrinks : Shrinks g g'

namespace Balanced

variable {g g' : Graph Key}

theorem congr (h : Balanced g) (hcount : g'.arcCount = g.arcCount) : Balanced g' := by
  constructor
  · rw [hcount]
    exact h.symm
  · rw [hcount]
    exact h.even

theorem setArcs (h : Balanced g) {key : Key} {l : CursorList (GraphArc Key)}
    (hl : l.items = (g.arcs key).items) : Balanced (g.setArcs key l) :=
  h.congr (Graph.arcCount_congr (Graph.items_setArcs hl))

theorem graphLink (h : Balanced g) (node1 node2 : Key) : Balanced (graphLink g node1 node2) where
  symm n m := by
    rw [arcCount_graphLink, arcCount_graphLink, h.symm n m, oneArc_comm node1 node2 n m,
      oneArc_comm node2 node1 n m, Nat.add_right_comm]
  even n := by
    rw [arcCount_graphLink, oneArc_comm node2 node1, Nat.add_assoc]
    exact (h.even n).add ⟨_, rfl⟩

/-- Dropping both directions of a link. -/
theorem drops (h : Balanced g) {g1 g2 : Graph Key} {node1 node2 : Key}
    (h1 : Drops g node1 node2 g1) (h2 : Drops g1 node2 node1 g2) : Balanced g2 where
  symm n m := by
    have hnm1 := h1.arcCount n m
    have hnm2 := h2.arcCount n m
    have hmn1 := h1.arcCount m n
    have hmn2 := h2.arcCount m n
    have hsymm := h.symm n m
    rw [oneArc_comm] at hmn1 hmn2
    omega
  even n := by
    have hn1 := h1.arcCount n n
    have hn2 := h2.arcCount n n
    have heven := h.even n
    rw [← hn1, ← hn2, oneArc_comm node2 node1, Nat.add_assoc, Nat.even_add] at heven
    exact heven.mpr ⟨_, rfl⟩

/-- An unlink finds no arc, or both. -/
theorem graphUnlink_cases (h : Balanced g) (node1 node2 : Key) :
    (g.arcCount node1 node2 = 0 ∧
      graphUnlink g node1 node2 = (false, g.setArcs node1 (g.arcs node1).rewind)) ∨
    ∃ g1 g2, Drops g node1 node2 g1 ∧ Drops g1 node2 node1 g2 ∧
      graphUnlink g node1 node2 = (true, g2) := by
  rcases Zone.graphUnlink_cases g node1 node2 with
    hnone | ⟨g1, h1, ⟨hnone, -⟩ | ⟨g2, h2, hunlink⟩⟩
  · exact .inl hnone
  · exfalso
    have hback := h1.arcCount node2 node1
    have hthere := h1.arcCount node1 node2
    have hsymm := h.symm node1 node2
    by_cases heq : node1 = node2
    · subst heq
      obtain ⟨k, hk⟩ := h.even node1
      rw [oneArc_self] at hthere
      omega
    · rw [oneArc_self] at hthere
      rw [oneArc_of_ne_right _ _ heq] at hback
      omega
  · exact .inr ⟨g1, g2, h1, h2, hunlink⟩

/-- What a successful unlink does to the numbers of arcs. -/
theorem arcCount_graphUnlink (h : Balanced g) {node1 node2 : Key}
    (hdone : (Zone.graphUnlink g node1 node2).1 = true) (n m : Key) :
    (Zone.graphUnlink g node1 node2).2.arcCount n m + oneArc node1 node2 n m +
      oneArc node2 node1 n m = g.arcCount n m := by
  rcases h.graphUnlink_cases node1 node2 with ⟨-, hunlink⟩ | ⟨g1, g2, h1, h2, hunlink⟩
  · rw [hunlink] at hdone
    exact absurd hdone Bool.false_ne_true
  · have hn1 := h1.arcCount n m
    have hn2 := h2.arcCount n m
    simp only [hunlink]
    omega

theorem graphUnlink_done_iff (h : Balanced g) (node1 node2 : Key) :
    (Zone.graphUnlink g node1 node2).1 = true ↔ 0 < g.arcCount node1 node2 := by
  rcases h.graphUnlink_cases node1 node2 with ⟨hnone, hunlink⟩ | ⟨g1, g2, h1, h2, hunlink⟩
  · rw [hunlink]
    exact ⟨fun hc => absurd hc Bool.false_ne_true, fun hc => absurd hnone hc.ne'⟩
  · have hthere := h1.arcCount node1 node2
    rw [oneArc_self] at hthere
    rw [hunlink]
    exact ⟨fun _ => by omega, fun _ => rfl⟩

theorem items_graphUnlink_of_false (h : Balanced g) {node1 node2 : Key}
    (hfail : (Zone.graphUnlink g node1 node2).1 = false) (n : Key) :
    ((Zone.graphUnlink g node1 node2).2.arcs n).items = (g.arcs n).items := by
  rcases h.graphUnlink_cases node1 node2 with ⟨-, hunlink⟩ | ⟨g1, g2, h1, h2, hunlink⟩
  · rw [hunlink]
    exact Graph.items_setArcs (CursorList.items_rewind _) n
  · rw [hunlink] at hfail
    exact absurd hfail.symm Bool.false_ne_true

theorem graphRemoveArcs (h : Balanced g) (key : Key) (fuel : ℕ)
    (hfuel : (g.arcs key).items.length < fuel) :
    ∃ g', Zone.graphRemoveArcs key fuel g = some (true, g') ∧ Isolated g key g' := by
  induction fuel generalizing g with
  | zero => exact absurd hfuel (Nat.not_lt_zero _)
  | succ fuel ih =>
    have hrewind : (g.arcs key).first = (g.arcs key).rewind.next := rfl
    rcases hitems : (g.arcs key).items with _ | ⟨arc, rest⟩
    · have hfirst : (g.arcs key).first = (none, ⟨[], []⟩) := by
        rw [hrewind, CursorList.rewind, hitems, CursorList.next_nil]
      have hkept : CursorList.items ⟨[], []⟩ = (g.arcs key).items := hitems.symm
      refine ⟨g.setArcs key ⟨[], []⟩, ?_, h.setArcs hkept, ?_, ?_, .setArcs hkept⟩
      · rw [Zone.graphRemoveArcs, hfirst]
      · intro m
        simp [Graph.arcCount, Graph.neighbours]
      · intro n m _ _
        rw [Graph.arcCount_congr (Graph.items_setArcs hkept)]
    · have hfirst : (g.arcs key).first = (some arc, ⟨[arc], rest⟩) := by
        rw [hrewind, CursorList.rewind, hitems, CursorList.next_cons, List.nil_append]
      have hkept : CursorList.items ⟨[arc], rest⟩ = (g.arcs key).items := hitems.symm
      have hmoved := h.setArcs hkept
      have hcount := Graph.arcCount_congr (Graph.items_setArcs hkept)
      rcases hmoved.graphUnlink_cases key arc.toNode with
        ⟨hnone, -⟩ | ⟨g1, g2, h1, h2, hunlink⟩
      · rw [hcount, Graph.arcCount, Graph.neighbours, hitems, List.map_cons,
          List.count_cons_self] at hnone
        exact absurd hnone (Nat.succ_ne_zero _)
      · have hless : (g2.arcs key).items.length < fuel := by
          have hlen1 := h1.length_lt
          have hlen2 := h2.length_le key
          rw [Graph.items_setArcs hkept] at hlen1
          omega
        obtain ⟨g', hrun, hbalanced, hfrom, hothers, hshrinks⟩ := ih (hmoved.drops h1 h2) hless
        refine ⟨g', ?_, hbalanced, hfrom, fun n m hn hm => ?_,
          (((Shrinks.setArcs hkept).trans (.drops h1)).trans (.drops h2)).trans hshrinks⟩
        · simp only [Zone.graphRemoveArcs, hfirst, hunlink, hrun]
        · have hn1 := h1.arcCount n m
          have hn2 := h2.arcCount n m
          rw [oneArc_of_ne_left _ _ hn, hcount] at hn1
          rw [oneArc_of_ne_right _ _ hm] at hn2
          rw [hothers n m hn hm]
          omega

/-- The removal of a node ends, and unlinks it from all others. -/
theorem graphRemoveNode (h : Balanced g) (key : Key) :
    ∃ g', Zone.graphRemoveNode g key = some (true, g') ∧ Isolated g key g' :=
  h.graphRemoveArcs key _ (Nat.lt_succ_self _)

end Balanced

namespace WellFormed

variable {g g' : Graph Key}

theorem graphInsertNode (h : WellFormed g) (key : Key) : WellFormed (graphInsertNode g key) := by
  have hitems (n : Key) : ((Zone.graphInsertNode g key).arcs n).items = (g.arcs n).items := by
    rw [arcs_graphInsertNode]
  refine Shrinks.wellFormed ⟨fun n arc harc => ?_, fun n hn => ?_⟩ h
    (h.toBalanced.congr (Graph.arcCount_congr hitems))
  · rwa [hitems] at harc
  · exact (contains_graphInsertNode g n key).mpr (.inr hn)

theorem mem_graphAddArc {source target n : Key} {arc : GraphArc Key}
    (harc : arc ∈ ((graphAddArc g source target).arcs n).items) :
    arc ∈ (g.arcs n).items ∨ n = source ∧ arc = ⟨source, target⟩ := by
  simp only [graphAddArc, arcs_graphInsertNode, Graph.arcs_setArcs, Function.update_apply] at harc
  split at harc
  · next hn =>
    subst hn
    simpa using harc
  · exact .inl harc

theorem graphLink (h : WellFormed g) (node1 node2 : Key) : WellFormed (graphLink g node1 node2) where
  toBalanced := h.toBalanced.graphLink node1 node2
  fromNode n arc harc := by
    rcases mem_graphAddArc harc with harc | ⟨rfl, rfl⟩
    · rcases mem_graphAddArc harc with harc | ⟨rfl, rfl⟩
      · exact h.fromNode n arc harc
      · rfl
    · rfl
  contains n arc harc := by
    rw [contains_graphLink, contains_graphLink]
    rcases mem_graphAddArc harc with harc | ⟨rfl, rfl⟩
    · rcases mem_graphAddArc harc with harc | ⟨rfl, rfl⟩
      · exact (h.contains n arc harc).imp (fun h => .inr (.inr h)) fun h => .inr (.inr h)
      · exact ⟨.inl rfl, .inr (.inl rfl)⟩
    · exact ⟨.inr (.inl rfl), .inl rfl⟩

theorem graphUnlink (h : WellFormed g) (node1 node2 : Key) :
    WellFormed (graphUnlink g node1 node2).2 := by
  rcases h.toBalanced.graphUnlink_cases node1 node2 with ⟨-, hunlink⟩ | ⟨g1, g2, h1, h2, hunlink⟩
  · rw [hunlink]
    have hkept := CursorList.items_rewind (g.arcs node1)
    exact (Shrinks.setArcs hkept).wellFormed h (h.toBalanced.setArcs hkept)
  · rw [hunlink]
    exact ((Shrinks.drops h1).trans (.drops h2)).wellFormed h (h.toBalanced.drops h1 h2)

end WellFormed

/-- What the event server does to the graph. The nodes come from `eventServerGetClientNode`. -/
inductive GraphRequest (Key : Type)
  | getClientNode (key : Key)
  | link (key1 key2 : Key)
  | unlink (key1 key2 : Key)
  | removeNode (key : Key)

def graphStep (g : Graph Key) : GraphRequest Key → Option (Graph Key)
  | .getClientNode key => some (eventServerGetClientNode g key)
  | .link key1 key2 =>
    some (graphLink (eventServerGetClientNode (eventServerGetClientNode g key1) key2) key1 key2)
  | .unlink key1 key2 =>
    some (graphUnlink (eventServerGetClientNode (eventServerGetClientNode g key1) key2)
      key1 key2).2
  | .removeNode key => (graphRemoveNode (eventServerGetClientNode g key) key).map Prod.snd

def graphSystem : System (Graph Key) (GraphRequest Key) := ⟨(· = graphNew), graphStep⟩

theorem wellFormed_inductive :
    Inductive graphSystem (fun _ _ => True) (@WellFormed Key _) where
  init g hg := by
    rw [hg]
    exact wellFormed_graphNew
  step g request g' h _ hstep := by
    cases request with
    | getClientNode key =>
      cases hstep
      exact h.graphInsertNode key
    | link key1 key2 =>
      cases hstep
      exact ((h.graphInsertNode key1).graphInsertNode key2).graphLink key1 key2
    | unlink key1 key2 =>
      cases hstep
      exact ((h.graphInsertNode key1).graphInsertNode key2).graphUnlink key1 key2
    | removeNode key =>
      obtain ⟨g2, hremove, hisolated⟩ := (h.graphInsertNode key).toBalanced.graphRemoveNode key
      simp only [graphSystem, graphStep, eventServerGetClientNode, hremove] at hstep
      cases hstep
      exact hisolated.shrinks.wellFormed (h.graphInsertNode key) hisolated.balanced

end R1Emu.Zone
