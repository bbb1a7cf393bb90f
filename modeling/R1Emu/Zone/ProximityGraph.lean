import R1Emu.Lib.CursorList
import R1Emu.Lib.Transition
import Mathlib.Algebra.Group.Even
import Mathlib.Logic.Function.Basic

/-!
# The proximity graph

The event server keeps a graph of its clients, where two clients are linked when they are
close to each other. A link is two arcs, one in the list of either node. The searches for an
arc and the loops over a node's arcs share the cursor of the node's list.

The links stay symmetric: a link is never half removed. Nor is it half made, as there is memory for
both of its arcs; an allocation that failed for the second one would leave the first.
-/
namespace R1Emu.Zone
open R1Emu.Lib R1Emu.Lib.Transition

variable {Key : Type}

structure GraphArc (Key : Type) where
  fromNode : Key
  toNode : Key
  deriving DecidableEq

structure GraphNode (Key : Type) where
  arcs : CursorList (GraphArc Key)
  /-- The mark in the client that is the node's user data. -/
  around : Bool

def graphNodeNew : GraphNode Key := ⟨.empty, false⟩

/-- A table of nodes by their keys. A node is never freed, so that its key stands for the
pointers to it. -/
structure Graph (Key : Type) where
  nodes : Key → Option (GraphNode Key)

def graphNew : Graph Key := ⟨fun _ => none⟩

namespace Graph

def node (g : Graph Key) (key : Key) : GraphNode Key := (g.nodes key).getD graphNodeNew

def arcs (g : Graph Key) (key : Key) : CursorList (GraphArc Key) := (g.node key).arcs

def around (g : Graph Key) (key : Key) : Bool := (g.node key).around

def Contains (g : Graph Key) (key : Key) : Prop := (g.nodes key).isSome = true

/-- The nodes that a node has arcs to. -/
def neighbours (g : Graph Key) (key : Key) : List Key := (g.arcs key).items.map (·.toNode)

variable [DecidableEq Key]

instance (g : Graph Key) (key : Key) : Decidable (g.Contains key) :=
  inferInstanceAs (Decidable ((g.nodes key).isSome = true))

/-- The number of arcs stored at one node towards another. -/
def arcCount (g : Graph Key) (n m : Key) : ℕ := (g.neighbours n).count m

def setNode (g : Graph Key) (key : Key) (node : GraphNode Key) : Graph Key :=
  ⟨Function.update g.nodes key (some node)⟩

def setArcs (g : Graph Key) (key : Key) (arcs : CursorList (GraphArc Key)) : Graph Key :=
  g.setNode key { g.node key with arcs := arcs }

def setAround (g : Graph Key) (key : Key) (around : Bool) : Graph Key :=
  g.setNode key { g.node key with around := around }

theorem node_setNode (g : Graph Key) (key : Key) (node : GraphNode Key) :
    (g.setNode key node).node = Function.update g.node key node := by
  funext n
  by_cases hn : n = key
  · subst hn
    simp [Graph.node, setNode]
  · simp [Graph.node, setNode, hn]

@[simp] theorem contains_setNode (g : Graph Key) (key n : Key) (node : GraphNode Key) :
    (g.setNode key node).Contains n ↔ n = key ∨ g.Contains n := by
  by_cases hn : n = key
  · subst hn
    simp [Contains, setNode]
  · simp [Contains, setNode, hn]

@[simp] theorem contains_setArcs (g : Graph Key) (key n : Key) (l : CursorList (GraphArc Key)) :
    (g.setArcs key l).Contains n ↔ n = key ∨ g.Contains n :=
  contains_setNode g key n _

@[simp] theorem arcs_setArcs (g : Graph Key) (key : Key) (l : CursorList (GraphArc Key)) :
    (g.setArcs key l).arcs = Function.update g.arcs key l := by
  funext n
  by_cases hn : n = key
  · subst hn
    simp [arcs, setArcs, node_setNode]
  · simp [arcs, setArcs, node_setNode, hn]

@[simp] theorem around_setArcs (g : Graph Key) (key : Key) (l : CursorList (GraphArc Key)) :
    (g.setArcs key l).around = g.around := by
  funext n
  by_cases hn : n = key
  · subst hn
    simp [around, setArcs, node_setNode]
  · simp [around, setArcs, node_setNode, hn]

@[simp] theorem arcs_setAround (g : Graph Key) (key : Key) (b : Bool) :
    (g.setAround key b).arcs = g.arcs := by
  funext n
  by_cases hn : n = key
  · subst hn
    simp [arcs, setAround, node_setNode]
  · simp [arcs, setAround, node_setNode, hn]

@[simp] theorem around_setAround (g : Graph Key) (key : Key) (b : Bool) :
    (g.setAround key b).around = Function.update g.around key b := by
  funext n
  by_cases hn : n = key
  · subst hn
    simp [around, setAround, node_setNode]
  · simp [around, setAround, node_setNode, hn]

omit [DecidableEq Key] in
theorem neighbours_congr {g g' : Graph Key} {n : Key}
    (h : (g'.arcs n).items = (g.arcs n).items) : g'.neighbours n = g.neighbours n := by
  rw [neighbours, h, neighbours]

theorem arcCount_congr {g g' : Graph Key} (h : ∀ n, (g'.arcs n).items = (g.arcs n).items) :
    g'.arcCount = g.arcCount := by
  funext n m
  rw [arcCount, neighbours_congr (h n), arcCount]

/-- Moving the cursor of a list of arcs. -/
theorem items_setArcs {g : Graph Key} {key : Key} {l : CursorList (GraphArc Key)}
    (hl : l.items = (g.arcs key).items) (n : Key) :
    ((g.setArcs key l).arcs n).items = (g.arcs n).items := by
  rw [arcs_setArcs, Function.update_apply]
  split
  · next hn => rw [hl, hn]
  · rfl

@[simp] theorem setArcs_setArcs (g : Graph Key) (key : Key) (l l' : CursorList (GraphArc Key)) :
    (g.setArcs key l).setArcs key l' = g.setArcs key l' := by
  simp [setArcs, setNode, Graph.node]

end Graph

section Operations

variable [DecidableEq Key]

/-- Find the arc to a node, with the cursor of the list. -/
def graphNodeGetArc (g : Graph Key) (source target : Key) : Option (GraphArc Key) × Graph Key :=
  let r := (g.arcs source).seek fun link => link.toNode = target
  (r.1, g.setArcs source r.2)

/-- Insert a node, unless its key is in the table. -/
def graphInsertNode (g : Graph Key) (key : Key) : Graph Key :=
  if g.Contains key then g else g.setNode key graphNodeNew

/-- There is memory for the arc. -/
def graphAddArc (g : Graph Key) (source target : Key) : Graph Key :=
  let g := g.setArcs source ((g.arcs source).append ⟨source, target⟩)
  graphInsertNode (graphInsertNode g source) target

def graphLink (g : Graph Key) (node1 node2 : Key) : Graph Key :=
  graphAddArc (graphAddArc g node1 node2) node2 node1

def graphUnlink (g : Graph Key) (node1 node2 : Key) : Bool × Graph Key :=
  match graphNodeGetArc g node1 node2 with
  | (none, g) => (false, g)
  | (some arc1, g) =>
    let g := g.setArcs node1 ((g.arcs node1).remove arc1)
    match graphNodeGetArc g node2 node1 with
    | (none, g) => (false, g)
    | (some arc2, g) => (true, g.setArcs node2 ((g.arcs node2).remove arc2))

/-- The loop of `graphRemoveNode`: unlink the first arc until there is none. -/
def graphRemoveArcs (key : Key) : ℕ → Graph Key → Option (Bool × Graph Key)
  | 0, _ => none
  | fuel + 1, g =>
    match (g.arcs key).first with
    | (none, l) => some (true, g.setArcs key l)
    | (some arc, l) =>
      match graphUnlink (g.setArcs key l) key arc.toNode with
      | (false, g) => some (false, g)
      | (true, g) => graphRemoveArcs key fuel g

def graphRemoveNode (g : Graph Key) (key : Key) : Option (Bool × Graph Key) :=
  graphRemoveArcs key ((g.arcs key).items.length + 1) g

/-- The node of a client, which is created where the table has none. -/
def eventServerGetClientNode (g : Graph Key) (sessionKey : Key) : Graph Key :=
  graphInsertNode g sessionKey

/-- The arcs from `n` to `m` in a single arc. -/
def oneArc (source target n m : Key) : ℕ := if n = source ∧ m = target then 1 else 0

theorem oneArc_comm (source target n m : Key) :
    oneArc source target n m = oneArc target source m n := by
  simp only [oneArc, and_comm]

@[simp] theorem oneArc_self (source target : Key) : oneArc source target source target = 1 :=
  if_pos ⟨rfl, rfl⟩

theorem oneArc_of_ne_left {source n : Key} (target m : Key) (h : n ≠ source) :
    oneArc source target n m = 0 := if_neg fun hc => h hc.1

theorem oneArc_of_ne_right {target m : Key} (source n : Key) (h : m ≠ target) :
    oneArc source target n m = 0 := if_neg fun hc => h hc.2

section Counts

variable (g : Graph Key) (n m k : Key)

@[simp] theorem arcs_graphInsertNode : (graphInsertNode g k).arcs = g.arcs := by
  unfold graphInsertNode
  split
  · rfl
  · next hk =>
    have hnone : g.nodes k = none := by simpa [Graph.Contains] using hk
    have hnode : graphNodeNew = g.node k := by simp [Graph.node, hnone]
    funext n
    rw [Graph.arcs, Graph.node_setNode, hnode, Function.update_eq_self, Graph.arcs]

@[simp] theorem contains_graphInsertNode :
    (graphInsertNode g k).Contains n ↔ n = k ∨ g.Contains n := by
  unfold graphInsertNode
  split
  · next hk =>
    constructor
    · exact .inr
    · rintro (rfl | hn)
      · exact hk
      · exact hn
  · exact Graph.contains_setNode g k n _

/-- One more arc. -/
theorem arcCount_graphAddArc (source target : Key) :
    (graphAddArc g source target).arcCount n m =
      g.arcCount n m + oneArc source target n m := by
  by_cases hn : n = source
  · subst hn
    by_cases hm : m = target
    · simp [graphAddArc, Graph.arcCount, Graph.neighbours, hm]
    · rw [oneArc_of_ne_right _ _ hm]
      simp [graphAddArc, Graph.arcCount, Graph.neighbours, Ne.symm hm]
  · rw [oneArc_of_ne_left _ _ hn]
    simp [graphAddArc, Graph.arcCount, Graph.neighbours, hn]

theorem arcCount_graphLink (node1 node2 : Key) :
    (graphLink g node1 node2).arcCount n m =
      g.arcCount n m + oneArc node1 node2 n m + oneArc node2 node1 n m := by
  rw [graphLink, arcCount_graphAddArc, arcCount_graphAddArc]

@[simp] theorem contains_graphAddArc (source target : Key) :
    (graphAddArc g source target).Contains n ↔ n = source ∨ n = target ∨ g.Contains n := by
  simp only [graphAddArc, contains_graphInsertNode, Graph.contains_setArcs]
  tauto

@[simp] theorem contains_graphLink (node1 node2 : Key) :
    (graphLink g node1 node2).Contains n ↔ n = node1 ∨ n = node2 ∨ g.Contains n := by
  simp only [graphLink, contains_graphAddArc]
  tauto

/-- The search finds no arc, or the first one to the node, on which the cursor stays. -/
theorem graphNodeGetArc_cases (source target : Key) :
    (g.arcCount source target = 0 ∧
      graphNodeGetArc g source target = (none, g.setArcs source (g.arcs source).rewind)) ∨
    ∃ before arc behind, (g.arcs source).items = before ++ arc :: behind ∧
      (∀ link ∈ before, link.toNode ≠ target) ∧ arc.toNode = target ∧
      graphNodeGetArc g source target = (some arc, g.setArcs source ⟨before ++ [arc], behind⟩) := by
  rcases CursorList.seek_cases (fun link => decide (link.toNode = target)) (g.arcs source) with
    ⟨hnone, hseek⟩ | ⟨before, arc, behind, hitems, hbefore, harc, hseek⟩
  · refine .inl ⟨?_, ?_⟩
    · rw [Graph.arcCount, List.count_eq_zero, Graph.neighbours, List.mem_map]
      rintro ⟨link, hlink, hto⟩
      exact of_decide_eq_false (hnone link hlink) hto
    · rw [graphNodeGetArc, hseek]
  · refine .inr ⟨before, arc, behind, hitems, ?_, of_decide_eq_true harc, ?_⟩
    · exact fun link hlink => of_decide_eq_false (hbefore link hlink)
    · rw [graphNodeGetArc, hseek]

end Counts

/-- One direction of a link is removed, with the cursor on the arc. -/
def Drops (g : Graph Key) (source target : Key) (g' : Graph Key) : Prop :=
  ∃ before arc behind, (g.arcs source).items = before ++ arc :: behind ∧
    (∀ link ∈ before, link.toNode ≠ target) ∧ arc.toNode = target ∧
    g' = g.setArcs source ⟨before, behind⟩

namespace Drops

variable {g g' : Graph Key} {source target : Key}

theorem arcCount (h : Drops g source target g') (n m : Key) :
    g'.arcCount n m + oneArc source target n m = g.arcCount n m := by
  obtain ⟨before, arc, behind, hitems, -, rfl, rfl⟩ := h
  by_cases hn : n = source
  · subst hn
    by_cases hm : m = arc.toNode
    · subst hm
      simp [Graph.arcCount, Graph.neighbours, hitems, Nat.add_assoc]
    · rw [oneArc_of_ne_right _ _ hm]
      simp [Graph.arcCount, Graph.neighbours, hitems, Ne.symm hm]
  · rw [oneArc_of_ne_left _ _ hn]
    simp [Graph.arcCount, Graph.neighbours, hn]

theorem around (h : Drops g source target g') : g'.around = g.around := by
  obtain ⟨before, arc, behind, -, -, -, rfl⟩ := h
  exact Graph.around_setArcs g source _

theorem contains (h : Drops g source target g') (n : Key) :
    g'.Contains n ↔ n = source ∨ g.Contains n := by
  obtain ⟨before, arc, behind, -, -, -, rfl⟩ := h
  exact Graph.contains_setArcs g source n _

theorem subset (h : Drops g source target g') (n : Key) :
    ∀ arc ∈ (g'.arcs n).items, arc ∈ (g.arcs n).items := by
  obtain ⟨before, arc, behind, hitems, -, -, rfl⟩ := h
  intro link hlink
  by_cases hn : n = source
  · subst hn
    rw [Graph.arcs_setArcs, Function.update_self] at hlink
    rw [hitems]
    rcases List.mem_append.mp hlink with hlink | hlink
    · exact List.mem_append_left _ hlink
    · exact List.mem_append_right _ (List.mem_cons_of_mem _ hlink)
  · rwa [Graph.arcs_setArcs, Function.update_of_ne hn] at hlink

theorem length_lt (h : Drops g source target g') :
    (g'.arcs source).items.length < (g.arcs source).items.length := by
  obtain ⟨before, arc, behind, hitems, -, -, rfl⟩ := h
  simp [hitems]

theorem length_le (h : Drops g source target g') (n : Key) :
    (g'.arcs n).items.length ≤ (g.arcs n).items.length := by
  by_cases hn : n = source
  · subst hn
    exact h.length_lt.le
  · obtain ⟨before, arc, behind, -, -, -, rfl⟩ := h
    rw [Graph.arcs_setArcs, Function.update_of_ne hn]

end Drops

/-- Finding an arc and removing it drops it. -/
theorem drops_of_found {g : Graph Key} {source target : Key} {before behind : List (GraphArc Key)}
    {arc : GraphArc Key} (hitems : (g.arcs source).items = before ++ arc :: behind)
    (hbefore : ∀ link ∈ before, link.toNode ≠ target) (harc : arc.toNode = target) :
    Drops g source target ((g.setArcs source ⟨before ++ [arc], behind⟩).setArcs source
      (((g.setArcs source ⟨before ++ [arc], behind⟩).arcs source).remove arc)) := by
  have hnot : arc ∉ before := fun hmem => hbefore arc hmem harc
  refine ⟨before, arc, behind, hitems, hbefore, harc, ?_⟩
  rw [Graph.arcs_setArcs, Function.update_self, CursorList.remove_at_cursor behind hnot,
    Graph.setArcs_setArcs]

/-- There is no link, or one direction of it is dropped; then the other is missing, or it is
dropped as well. -/
theorem graphUnlink_cases (g : Graph Key) (node1 node2 : Key) :
    (g.arcCount node1 node2 = 0 ∧
      graphUnlink g node1 node2 = (false, g.setArcs node1 (g.arcs node1).rewind)) ∨
    ∃ g1, Drops g node1 node2 g1 ∧
      ((g1.arcCount node2 node1 = 0 ∧
        graphUnlink g node1 node2 = (false, g1.setArcs node2 (g1.arcs node2).rewind)) ∨
      ∃ g2, Drops g1 node2 node1 g2 ∧ graphUnlink g node1 node2 = (true, g2)) := by
  rcases graphNodeGetArc_cases g node1 node2 with
    ⟨hnone, hget⟩ | ⟨before, arc1, behind, hitems, hbefore, harc1, hget⟩
  · refine .inl ⟨hnone, ?_⟩
    rw [graphUnlink, hget]
  · have hdrops := drops_of_found hitems hbefore harc1
    refine .inr ⟨_, hdrops, ?_⟩
    rcases graphNodeGetArc_cases _ node2 node1 with
      ⟨hnone, hget2⟩ | ⟨before2, arc2, behind2, hitems2, hbefore2, harc2, hget2⟩
    · refine .inl ⟨hnone, ?_⟩
      simp only [graphUnlink, hget, hget2]
    · refine .inr ⟨_, drops_of_found hitems2 hbefore2 harc2, ?_⟩
      simp only [graphUnlink, hget, hget2]

end Operations

end R1Emu.Zone
