import R1Emu.Lib.Stage
import R1Emu.Zone.ProximityGraph

/-!
# The update of a client's position

The event server asks Redis for the clients around the emitter of an event, links the emitter
with those that it was not linked with, and unlinks it from the neighbours that are not around
any more. The clients on either side are told.

When the update succeeds, the neighbours of the emitter are the clients around, and the other
links are as before.
-/
namespace R1Emu.Zone
open R1Emu.Lib R1Emu.Lib.Stage

variable {Key : Type}

/-- The packets about a commander. A client stands for the commander that it plays. -/
inductive Packet (Key : Type)
  | enterPc (commander : Key)
  | leave (commander : Key)
  | moveDir (commander : Key)
  | pcMoveStop (commander : Key)
  | jump (commander : Key)
  deriving DecidableEq

structure Multicast (Key : Type) where
  packet : Packet Key
  clients : List Key
  deriving DecidableEq

structure EventServer (Key : Type) where
  clientsGraph : Graph Key
  /-- The multicasts that the router has got, oldest first. -/
  sent : List (Multicast Key)

/-- What Redis and the router answer while an event is handled. An answer may depend on the
multicasts sent before. -/
structure Answers (Key : Type) where
  /-- `eventServerRedisGetClientsWithinRange`. -/
  clientsWithinRange : Option (List Key)
  /-- Whether `eventServerGetGameSessionBySocketId` finds the session. -/
  hasGameSession : List (Multicast Key) → Key → Bool
  sends : List (Multicast Key) → Multicast Key → Bool

/-- No send and no query of a session fails. -/
def Answers.Succeed (a : Answers Key) : Prop :=
  (∀ sent m, a.sends sent m = true) ∧ ∀ sent client, a.hasGameSession sent client = true

/-- Part of an event handler, which it may leave with its status. -/
abbrev EventHandling (Key : Type) := Stage (EventServer Key) Bool

def modifyGraph (f : Graph Key → Graph Key) : EventHandling Key PUnit :=
  modify fun s => { s with clientsGraph := f s.clientsGraph }

def eventServerSendToClients (a : Answers Key) (clients : List Key) (packet : Packet Key) :
    EventHandling Key Bool :=
  act fun s =>
    if a.sends s.sent ⟨packet, clients⟩ then (true, { s with sent := s.sent ++ [⟨packet, clients⟩] })
    else (false, s)

def eventServerSendToClient (a : Answers Key) (client : Key) (packet : Packet Key) :
    EventHandling Key Bool :=
  eventServerSendToClients a [client] packet

def eventServerGetGameSessionBySocketId (a : Answers Key) (client : Key) :
    EventHandling Key Bool :=
  gets fun s => a.hasGameSession s.sent client

/-- Leave the handler with `false` when a call fails. -/
def orFail (call : EventHandling Key Bool) : EventHandling Key PUnit := do
  require (← call) false

/-- Send the emitter a packet about each of the clients. -/
def tellEmitter (a : Answers Key) (emitter : Key) (packet : Key → Packet Key) :
    List Key → EventHandling Key PUnit
  | [] => return ⟨⟩
  | client :: clients => do
    orFail (eventServerGetGameSessionBySocketId a client)
    orFail (eventServerSendToClient a emitter (packet client))
    tellEmitter a emitter packet clients

section Passes

variable [DecidableEq Key]

/-- A loop over the arcs of a node, whose body may change the graph and a local variable. -/
def walkArcs {τ : Type} (key : Key) (body : GraphArc Key → Graph Key × τ → Graph Key × τ)
    (s : Graph Key × τ) : Option (List (GraphArc Key) × Graph Key × τ) :=
  CursorList.loop (fun s => s.1.arcs key) (fun l s => (s.1.setArcs key l, s.2)) body s

/-- Mark a neighbour as unvisited. -/
def markNeighbour (arc : GraphArc Key) (s : Graph Key × PUnit) : Graph Key × PUnit :=
  (s.1.setAround arc.toNode false, s.2)

/-- Compare a client from the Redis list with the graph. The local variable is
`pcEnterList`. -/
def linkAround (emitter : Key) (s : Graph Key × List Key) (client : Key) : Graph Key × List Key :=
  match graphNodeGetArc (eventServerGetClientNode s.1 client) emitter client with
  | (some _, g) => (g.setAround client true, s.2)
  | (none, g) => ((graphLink g emitter client).setAround client true, s.2 ++ [client])

/-- Unlink a neighbour that is still marked. The local variable is `pcLeaveList`; what the
unlink returns is not looked at. -/
def unlinkLeft (emitter : Key) (arc : GraphArc Key) (s : Graph Key × List Key) :
    Graph Key × List Key :=
  if s.1.around arc.toNode then s
  else ((graphUnlink s.1 emitter arc.toNode).2, s.2 ++ [arc.toNode])

def markNeighbours (emitter : Key) : EventHandling Key PUnit :=
  lift fun s => (walkArcs emitter markNeighbour (s.clientsGraph, ⟨⟩)).map fun r =>
    (⟨⟩, { s with clientsGraph := r.2.1 })

def linkClientsAround (emitter : Key) (redisClientsAround : List Key) :
    EventHandling Key (List Key) :=
  act fun s =>
    let r := redisClientsAround.foldl (linkAround emitter) (s.clientsGraph, [])
    (r.2, { s with clientsGraph := r.1 })

def unlinkClientsLeft (emitter : Key) : EventHandling Key (List Key) :=
  lift fun s => (walkArcs emitter (unlinkLeft emitter) (s.clientsGraph, [])).map fun r =>
    (r.2.2, { s with clientsGraph := r.2.1 })

/-- Go on with the list, unless the query failed. -/
def clientsWithinRange (a : Answers Key) : EventHandling Key (List Key) :=
  match a.clientsWithinRange with
  | none => exit false
  | some clients => return clients

/-- Send a packet to the clients, if the list is not empty. -/
def sendUnlessEmpty (a : Answers Key) (list clients : List Key) (packet : Packet Key) :
    EventHandling Key PUnit :=
  if 0 < list.length then orFail (eventServerSendToClients a clients packet) else pure ⟨⟩

/-- Tell of those that enter: the packet about the emitter goes to all the clients around. -/
def sendEntered (a : Answers Key) (emitter : Key) (redisClientsAround pcEnterList : List Key) :
    EventHandling Key PUnit := do
  sendUnlessEmpty a pcEnterList redisClientsAround (.enterPc emitter)
  tellEmitter a emitter .enterPc (pcEnterList.filter fun client => client ≠ emitter)

def sendLeft (a : Answers Key) (emitter : Key) (pcLeaveList : List Key) :
    EventHandling Key PUnit := do
  if 0 < pcLeaveList.length then
    orFail (eventServerSendToClients a pcLeaveList (.leave emitter))
    tellEmitter a emitter .leave pcLeaveList

def enterClients (a : Answers Key) (emitter : Key) (redisClientsAround : List Key) :
    EventHandling Key PUnit := do
  if 0 < redisClientsAround.length then
    let pcEnterList ← linkClientsAround emitter redisClientsAround
    sendEntered a emitter redisClientsAround pcEnterList

/-- It goes on with the clients around where the function returns true. -/
def zoneEventServerUpdateClientPosition (a : Answers Key) (emitter : Key) :
    EventHandling Key (List Key) := do
  let redisClientsAround ← clientsWithinRange a
  modifyGraph fun g => eventServerGetClientNode g emitter
  markNeighbours emitter
  enterClients a emitter redisClientsAround
  let pcLeaveList ← unlinkClientsLeft emitter
  sendLeft a emitter pcLeaveList
  return redisClientsAround

/-- Links are symmetric, and no two clients are linked twice. -/
structure Linked (g : Graph Key) : Prop where
  symm : ∀ n m, g.arcCount n m = g.arcCount m n
  single : ∀ n m, g.arcCount n m ≤ 1

theorem Linked.congr {g g' : Graph Key} (h : Linked g) (hcount : g'.arcCount = g.arcCount) :
    Linked g' := by
  constructor
  · rw [hcount]
    exact h.symm
  · rw [hcount]
    exact h.single

theorem linked_graphNew : Linked (graphNew : Graph Key) :=
  ⟨fun _ _ => rfl, fun _ _ => Nat.zero_le 1⟩

theorem arcCount_eventServerGetClientNode (g : Graph Key) (key : Key) :
    (eventServerGetClientNode g key).arcCount = g.arcCount :=
  Graph.arcCount_congr fun n => by rw [eventServerGetClientNode, arcs_graphInsertNode]

theorem around_graphInsertNode (g : Graph Key) (key : Key) :
    (graphInsertNode g key).around = g.around := by
  unfold graphInsertNode
  split
  · rfl
  · next hk =>
    have hnone : g.nodes key = none := by simpa [Graph.Contains] using hk
    have hnode : graphNodeNew = g.node key := by simp [Graph.node, hnone]
    funext n
    rw [Graph.around, Graph.node_setNode, hnode, Function.update_eq_self, Graph.around]

theorem around_graphLink (g : Graph Key) (node1 node2 : Key) :
    (graphLink g node1 node2).around = g.around := by
  simp [graphLink, graphAddArc, around_graphInsertNode]

theorem arcCount_setAround (g : Graph Key) (key : Key) (b : Bool) :
    (g.setAround key b).arcCount = g.arcCount :=
  Graph.arcCount_congr fun n => by rw [Graph.arcs_setAround]

theorem arcCount_setArcs {g : Graph Key} {key : Key} {l : CursorList (GraphArc Key)}
    (hl : l.items = (g.arcs key).items) : (g.setArcs key l).arcCount = g.arcCount :=
  Graph.arcCount_congr (Graph.items_setArcs hl)

/-- Whether two clients are the emitter and a client of the list. -/
def Joins (emitter : Key) (clients : List Key) (n m : Key) : Prop :=
  n = emitter ∧ m ∈ clients ∨ m = emitter ∧ n ∈ clients

instance (emitter : Key) (clients : List Key) (n m : Key) :
    Decidable (Joins emitter clients n m) :=
  inferInstanceAs (Decidable (_ ∨ _))

omit [DecidableEq Key] in
theorem joins_cons (emitter client : Key) (clients : List Key) (n m : Key) :
    Joins emitter (client :: clients) n m ↔
      Joins emitter [client] n m ∨ Joins emitter clients n m := by
  simp only [Joins, List.mem_cons, List.not_mem_nil, or_false]
  tauto

omit [DecidableEq Key] in
theorem joins_comm (emitter : Key) (clients : List Key) (n m : Key) :
    Joins emitter clients n m ↔ Joins emitter clients m n := Or.comm

/-- What the pass over the Redis list has done to the graph and to `pcEnterList`. -/
structure Entered (emitter : Key) (clients : List Key) (s s' : Graph Key × List Key) : Prop where
  arcCount : ∀ n m, s'.1.arcCount n m = if Joins emitter clients n m then 1 else s.1.arcCount n m
  around : ∀ c, s'.1.around c = (decide (c ∈ clients) || s.1.around c)
  entered : ∀ c, s'.2.count c =
    s.2.count c + if c ∈ clients ∧ s.1.arcCount emitter c = 0 then 1 else 0

theorem Entered.linked {emitter : Key} {clients : List Key} {s s' : Graph Key × List Key}
    (h : Entered emitter clients s s') (hs : Linked s.1) : Linked s'.1 where
  symm n m := by
    rw [h.arcCount, h.arcCount, hs.symm n m]
    simp only [joins_comm emitter clients n m]
  single n m := by
    rw [h.arcCount]
    split
    · exact le_rfl
    · exact hs.single n m

theorem oneArc_add {emitter client : Key} (hne : client ≠ emitter) (n m : Key) :
    oneArc emitter client n m + oneArc client emitter n m =
      if Joins emitter [client] n m then 1 else 0 := by
  by_cases hn : n = emitter
  · subst hn
    simp [oneArc, Joins, hne.symm]
  · by_cases hm : m = emitter
    · subst hm
      simp [oneArc, Joins, hne.symm, hn]
    · simp [oneArc, Joins, hn, hm]

/-- Clients that the Redis list and the graph agree on are linked once already. -/
theorem Linked.arcCount_of_joins {g : Graph Key} (h : Linked g) {emitter client n m : Key}
    (hlinked : 0 < g.arcCount emitter client) (hjoins : Joins emitter [client] n m) :
    g.arcCount n m = 1 := by
  have hone : g.arcCount emitter client = 1 := Nat.le_antisymm (h.single _ _) hlinked
  rcases hjoins with ⟨rfl, hm⟩ | ⟨rfl, hn⟩
  · rwa [List.mem_singleton.mp hm]
  · rw [List.mem_singleton.mp hn, h.symm]
    exact hone

theorem Linked.arcCount_of_joins_zero {g : Graph Key} (h : Linked g) {emitter client n m : Key}
    (hlinked : g.arcCount emitter client = 0) (hjoins : Joins emitter [client] n m) :
    g.arcCount n m = 0 := by
  rcases hjoins with ⟨rfl, hm⟩ | ⟨rfl, hn⟩
  · rwa [List.mem_singleton.mp hm]
  · rw [List.mem_singleton.mp hn, h.symm]
    exact hlinked

theorem linkAround_entered {emitter client : Key} {s : Graph Key × List Key}
    (hs : Linked s.1) (hne : client ≠ emitter) :
    Entered emitter [client] s (linkAround emitter s client) := by
  have hcount := arcCount_eventServerGetClientNode s.1 client
  have haround : (eventServerGetClientNode s.1 client).around = s.1.around :=
    around_graphInsertNode s.1 client
  have hmarked (c : Key) : Function.update s.1.around client true c =
      (decide (c ∈ [client]) || s.1.around c) := by
    by_cases hc : c = client <;> simp [hc]
  rcases graphNodeGetArc_cases (eventServerGetClientNode s.1 client) emitter client with
    ⟨hnone, hget⟩ | ⟨before, arc, behind, hitems, -, harc, hget⟩
  · rw [hcount] at hnone
    constructor
    · intro n m
      simp only [linkAround, hget]
      rw [arcCount_setAround, arcCount_graphLink,
        arcCount_setArcs (CursorList.items_rewind _), hcount, Nat.add_assoc, oneArc_add hne]
      split
      · next hjoins => rw [hs.arcCount_of_joins_zero hnone hjoins]
      · rfl
    · intro c
      simp only [linkAround, hget]
      rw [Graph.around_setAround, around_graphLink, Graph.around_setArcs, haround]
      exact hmarked c
    · intro c
      simp only [linkAround, hget]
      by_cases hc : c = client
      · subst hc
        simp [hnone]
      · simp [hc, Ne.symm hc]
  · have hpos : 0 < s.1.arcCount emitter client := by
      rw [← hcount, Graph.arcCount, Graph.neighbours, hitems, List.count_pos_iff]
      simp [harc]
    have hkept : CursorList.items ⟨before ++ [arc], behind⟩ =
        ((eventServerGetClientNode s.1 client).arcs emitter).items := by
      rw [hitems]
      simp
    constructor
    · intro n m
      simp only [linkAround, hget]
      rw [arcCount_setAround, arcCount_setArcs hkept, hcount]
      split
      · next hjoins => exact hs.arcCount_of_joins hpos hjoins
      · rfl
    · intro c
      simp only [linkAround, hget]
      rw [Graph.around_setAround, Graph.around_setArcs, haround]
      exact hmarked c
    · intro c
      simp only [linkAround, hget]
      rw [if_neg, Nat.add_zero]
      rintro ⟨hc, hzero⟩
      rw [List.mem_singleton.mp hc] at hzero
      exact absurd hzero hpos.ne'

theorem Entered.trans {emitter client : Key} {clients : List Key}
    {s s₁ s₂ : Graph Key × List Key} (hne : emitter ∉ client :: clients)
    (h : Entered emitter [client] s s₁) (h' : Entered emitter clients s₁ s₂) :
    Entered emitter (client :: clients) s s₂ where
  arcCount n m := by
    rw [h'.arcCount, h.arcCount]
    simp only [joins_cons emitter client clients]
    by_cases hjoins : Joins emitter clients n m
    · simp [hjoins]
    · simp [hjoins]
  around c := by
    rw [h'.around, h.around]
    by_cases hc : c = client <;> simp [hc]
  entered c := by
    rw [h'.entered, h.entered, h.arcCount, Nat.add_assoc]
    congr 1
    by_cases hc : c = client
    · subst hc
      simp [Joins]
    · have hjoins : ¬ Joins emitter [client] emitter c := by
        rintro (⟨-, hmem⟩ | ⟨-, hmem⟩)
        · exact hc (List.mem_singleton.mp hmem)
        · exact List.ne_of_not_mem_cons hne (List.mem_singleton.mp hmem)
      simp [hc, hjoins]

theorem foldl_linkAround_entered {emitter : Key} {clients : List Key} (hne : emitter ∉ clients)
    {s : Graph Key × List Key} (hs : Linked s.1) :
    Entered emitter clients s (clients.foldl (linkAround emitter) s) := by
  induction clients generalizing s with
  | nil => exact ⟨by simp [Joins], by simp, by simp⟩
  | cons client clients ih =>
    have hclient : client ≠ emitter := (List.ne_of_not_mem_cons hne).symm
    have hfirst := linkAround_entered hs hclient
    have hrest := ih (List.not_mem_of_not_mem_cons hne) (hfirst.linked hs)
    exact hfirst.trans hne hrest

theorem exists_arc_of_arcCount {g : Graph Key} {n m : Key} (h : 0 < g.arcCount n m) :
    ∃ arc ∈ (g.arcs n).items, arc.toNode = m := by
  rw [Graph.arcCount, List.count_pos_iff, Graph.neighbours, List.mem_map] at h
  exact h

theorem arcs_setArcs_self (g : Graph Key) (key : Key) (l : CursorList (GraphArc Key)) :
    (g.setArcs key l).arcs key = l := by
  rw [Graph.arcs_setArcs, Function.update_self]

/-- The mark pass leaves no neighbour of the emitter marked as around. -/
theorem walkArcs_markNeighbour (g : Graph Key) (emitter : Key) :
    ∃ visited g', walkArcs emitter markNeighbour (g, ⟨⟩) = some (visited, g', ⟨⟩) ∧
      g'.arcCount = g.arcCount ∧ ∀ c, 0 < g.arcCount emitter c → g'.around c = false := by
  obtain ⟨visited, ⟨g', _⟩, hrun, ⟨hitems, hmarked⟩, -, hall⟩ :=
    CursorList.loop_spec (fun s : Graph Key × PUnit => s.1.arcs emitter)
      (fun l s => (s.1.setArcs emitter l, s.2)) markNeighbour (fun _ => True)
      (fun seen s => (∀ n, (s.1.arcs n).items = (g.arcs n).items) ∧
        ∀ arc ∈ seen, s.1.around arc.toNode = false)
      (fun l s => arcs_setArcs_self s.1 emitter l)
      (fun seen l s hl h => by
        refine ⟨fun n => ?_, fun arc harc => ?_⟩
        · exact (Graph.items_setArcs hl n).trans (h.1 n)
        · rw [Graph.around_setArcs]
          exact h.2 arc harc)
      (fun seen arc s passed rest h hl _ => by
        refine ⟨⟨fun n => ?_, fun arc' harc' => ?_⟩, .inl ⟨trivial, ?_⟩⟩
        · rw [markNeighbour, Graph.arcs_setAround]
          exact h.1 n
        · rw [markNeighbour, Graph.around_setAround, Function.update_apply]
          split
          · rfl
          · next hne =>
            rcases List.mem_append.mp harc' with harc' | harc'
            · exact h.2 arc' harc'
            · exact absurd (by rw [List.mem_singleton.mp harc']) hne
        · rw [markNeighbour, Graph.arcs_setAround]
          exact hl)
      (g, ⟨⟩) ⟨fun _ => rfl, fun _ h => absurd h List.not_mem_nil⟩
  refine ⟨visited, g', hrun, Graph.arcCount_congr hitems, fun c hc => ?_⟩
  obtain ⟨arc, harc, rfl⟩ := exists_arc_of_arcCount hc
  exact hmarked arc (hall arc harc)

theorem split_unique {α : Type} {p : α → Prop} {before before' behind behind' : List α} {x x' : α}
    (h : before ++ x :: behind = before' ++ x' :: behind') (hbefore : ∀ y ∈ before, ¬ p y)
    (hbefore' : ∀ y ∈ before', ¬ p y) (hx : p x) (hx' : p x') :
    before = before' ∧ behind = behind' := by
  induction before generalizing before' with
  | nil =>
    cases before' with
    | nil => exact ⟨rfl, (List.cons.inj h).2⟩
    | cons y before' =>
      obtain ⟨rfl, -⟩ := List.cons.inj h
      exact absurd hx (hbefore' _ List.mem_cons_self)
  | cons y before ih =>
    cases before' with
    | nil =>
      obtain ⟨rfl, -⟩ := List.cons.inj h
      exact absurd hx' (hbefore _ List.mem_cons_self)
    | cons y' before' =>
      obtain ⟨rfl, htail⟩ := List.cons.inj h
      obtain ⟨rfl, rfl⟩ := ih htail (fun y hy => hbefore y (List.mem_cons_of_mem _ hy))
        fun y hy => hbefore' y (List.mem_cons_of_mem _ hy)
      exact ⟨rfl, rfl⟩

/-- The arc that is dropped is the one under the cursor, if no arc before leads to its node. -/
theorem Drops.at_cursor {g g' : Graph Key} {source target : Key} (h : Drops g source target g')
    {passed rest : List (GraphArc Key)} {arc : GraphArc Key}
    (hl : g.arcs source = ⟨passed ++ [arc], rest⟩) (hpassed : ∀ link ∈ passed, link.toNode ≠ target)
    (harc : arc.toNode = target) : g'.arcs source = ⟨passed, rest⟩ := by
  obtain ⟨before, arc', behind, hitems, hbefore, harc', rfl⟩ := h
  rw [hl, CursorList.items_mk, List.append_assoc, List.singleton_append] at hitems
  obtain ⟨rfl, rfl⟩ := split_unique (p := fun link => link.toNode = target) hitems hpassed hbefore
    harc harc'
  exact arcs_setArcs_self g source _

theorem Drops.arcs_of_ne {g g' : Graph Key} {source target n : Key} (h : Drops g source target g')
    (hn : n ≠ source) : g'.arcs n = g.arcs n := by
  obtain ⟨before, arc, behind, -, -, -, rfl⟩ := h
  rw [Graph.arcs_setArcs, Function.update_of_ne hn]

/-- Unlinking two clients that are linked. The unlink of a client from itself fails after it
has removed the arc. -/
theorem Linked.graphUnlink_cases {g : Graph Key} (h : Linked g) {node1 node2 : Key}
    (hlinked : 0 < g.arcCount node1 node2) :
    ∃ g1, Drops g node1 node2 g1 ∧
      ((node2 ≠ node1 ∧ ∃ g2, Drops g1 node2 node1 g2 ∧ graphUnlink g node1 node2 = (true, g2)) ∨
      (node2 = node1 ∧
        graphUnlink g node1 node2 = (false, g1.setArcs node2 (g1.arcs node2).rewind))) := by
  rcases Zone.graphUnlink_cases g node1 node2 with
    ⟨hnone, -⟩ | ⟨g1, h1, ⟨hnone, hunlink⟩ | ⟨g2, h2, hunlink⟩⟩
  · exact absurd hnone hlinked.ne'
  · refine ⟨g1, h1, .inr ⟨?_, hunlink⟩⟩
    by_contra hne
    have hback := h1.arcCount node2 node1
    rw [oneArc_of_ne_left _ _ hne, hnone, ← h.symm node1 node2] at hback
    omega
  · refine ⟨g1, h1, .inl ⟨?_, g2, h2, hunlink⟩⟩
    rintro rfl
    have hthere := h1.arcCount node2 node2
    have hback := h2.arcCount node2 node2
    have hsingle := h.single node2 node2
    rw [oneArc_self] at hthere hback
    omega

/-- What the unlink pass has done to the graph and to `pcLeaveList`. -/
structure Leaving (emitter : Key) (g : Graph Key) (s : Graph Key × List Key) : Prop where
  linked : Linked s.1
  around : s.1.around = g.around
  others : ∀ n m, n ≠ emitter → m ≠ emitter → s.1.arcCount n m = g.arcCount n m
  left : ∀ c, s.1.arcCount emitter c + s.2.count c = g.arcCount emitter c
  not_around : ∀ c ∈ s.2, g.around c = false

theorem Leaving.setArcs {emitter key : Key} {g : Graph Key} {s : Graph Key × List Key}
    (h : Leaving emitter g s) {l : CursorList (GraphArc Key)}
    (hl : l.items = (s.1.arcs key).items) : Leaving emitter g (s.1.setArcs key l, s.2) where
  linked := h.linked.congr (arcCount_setArcs hl)
  around := (Graph.around_setArcs s.1 key l).trans h.around
  others := by
    rw [arcCount_setArcs hl]
    exact h.others
  left := by
    rw [arcCount_setArcs hl]
    exact h.left
  not_around := h.not_around

/-- One arc less on either side. -/
theorem Leaving.unlink {emitter : Key} {g g' : Graph Key} {s : Graph Key × List Key} {target : Key}
    (h : Leaving emitter g s) (haround : g'.around = s.1.around) (htarget : g.around target = false)
    (hcount : ∀ n m, g'.arcCount n m + (if Joins emitter [target] n m then 1 else 0) =
      s.1.arcCount n m) : Leaving emitter g (g', s.2 ++ [target]) where
  linked := by
    constructor
    · intro n m
      have hnm := hcount n m
      have hmn := hcount m n
      rw [h.linked.symm n m] at hnm
      simp only [joins_comm emitter [target] m n] at hmn
      change g'.arcCount n m = g'.arcCount m n
      omega
    · intro n m
      have hnm := hcount n m
      have hsingle := h.linked.single n m
      change g'.arcCount n m ≤ 1
      omega
  around := haround.trans h.around
  others n m hn hm := by
    have hnm := hcount n m
    have hjoins : ¬ Joins emitter [target] n m := by
      rintro (⟨hc, -⟩ | ⟨hc, -⟩)
      · exact hn hc
      · exact hm hc
    rw [if_neg hjoins, Nat.add_zero] at hnm
    rw [hnm, h.others n m hn hm]
  left c := by
    have hc := hcount emitter c
    have hleft := h.left c
    rw [List.count_append, List.count_singleton]
    change g'.arcCount emitter c + _ = _
    by_cases htc : c = target
    · rw [if_pos (.inl ⟨rfl, List.mem_singleton.mpr htc⟩)] at hc
      rw [if_pos (beq_iff_eq.mpr htc.symm)]
      omega
    · have hjoins : ¬ Joins emitter [target] emitter c := by
        rintro (⟨-, hct⟩ | ⟨hce, het⟩)
        · exact htc (List.mem_singleton.mp hct)
        · exact htc (hce.trans (List.mem_singleton.mp het))
      rw [if_neg hjoins] at hc
      rw [if_neg fun hbeq => htc (beq_iff_eq.mp hbeq).symm]
      omega
  not_around c hc := by
    rcases List.mem_append.mp hc with hc | hc
    · exact h.not_around c hc
    · rwa [List.mem_singleton.mp hc]

theorem unlinkLeft_leaving {emitter : Key} {g : Graph Key} {s : Graph Key × List Key}
    {passed rest : List (GraphArc Key)} {arc : GraphArc Key} (h : Leaving emitter g s)
    (hl : s.1.arcs emitter = ⟨passed ++ [arc], rest⟩)
    (hpassed : ∀ link ∈ passed, g.around link.toNode = true) :
    Leaving emitter g (unlinkLeft emitter arc s) ∧
      CursorList.Visited (fun link => g.around link.toNode = true) arc passed rest
        ((unlinkLeft emitter arc s).1.arcs emitter) := by
  rw [unlinkLeft, h.around]
  cases haround : g.around arc.toNode with
  | true => exact ⟨h, .inl ⟨haround, hl⟩⟩
  | false =>
    have hnot : ¬ g.around arc.toNode = true := ne_true_of_eq_false haround
    have hbefore : ∀ link ∈ passed, link.toNode ≠ arc.toNode := by
      rintro link hlink heq
      exact hnot (heq ▸ hpassed link hlink)
    have hlinked : 0 < s.1.arcCount emitter arc.toNode := by
      rw [Graph.arcCount, Graph.neighbours, hl, List.count_pos_iff]
      simp
    rw [if_neg Bool.false_ne_true]
    obtain ⟨g1, h1, ⟨hne, g2, h2, hunlink⟩ | ⟨hself, hunlink⟩⟩ := h.linked.graphUnlink_cases hlinked
    · rw [hunlink]
      refine ⟨h.unlink (h2.around.trans h1.around) haround fun n m => ?_, .inr ⟨hnot, .inl ?_⟩⟩
      · have hn1 := h1.arcCount n m
        have hn2 := h2.arcCount n m
        have hboth := oneArc_add hne n m
        change g2.arcCount n m + _ = _
        omega
      · rw [h2.arcs_of_ne hne.symm]
        exact h1.at_cursor hl hbefore rfl
    · rw [hunlink, hself]
      have hcursor := h1.at_cursor hl hbefore rfl
      refine ⟨h.unlink ?_ (hself ▸ haround) fun n m => ?_, .inr ⟨hnot, .inr ?_⟩⟩
      · rw [Graph.around_setArcs, h1.around]
      · have hn1 := h1.arcCount n m
        rw [arcCount_setArcs (CursorList.items_rewind _), ← hn1, hself]
        simp [oneArc, Joins, and_comm]
      · rw [arcs_setArcs_self, hcursor]
        rfl

/-- What the whole unlink pass does: it comes by every arc, and the neighbours that are left
are those marked as around. -/
structure Left (emitter : Key) (g g' : Graph Key) (left : List Key) : Prop where
  linked : Linked g'
  others : ∀ n m, n ≠ emitter → m ≠ emitter → g'.arcCount n m = g.arcCount n m
  arcCount : ∀ c, g'.arcCount emitter c = if g.around c then g.arcCount emitter c else 0
  left : ∀ c, left.count c = if g.around c then 0 else g.arcCount emitter c

theorem walkArcs_unlinkLeft {g : Graph Key} (hg : Linked g) (emitter : Key) :
    ∃ visited g' left, walkArcs emitter (unlinkLeft emitter) (g, []) = some (visited, g', left) ∧
      Left emitter g g' left ∧ ∀ arc ∈ (g.arcs emitter).items, arc ∈ visited := by
  obtain ⟨visited, ⟨g', left⟩, hrun, h, hstay, hall⟩ :=
    CursorList.loop_spec (fun s : Graph Key × List Key => s.1.arcs emitter)
      (fun l s => (s.1.setArcs emitter l, s.2)) (unlinkLeft emitter)
      (fun link => g.around link.toNode = true) (fun _ s => Leaving emitter g s)
      (fun l s => arcs_setArcs_self s.1 emitter l)
      (fun _ _ _ hl h => h.setArcs hl)
      (fun _ _ _ _ _ h hl hpassed => unlinkLeft_leaving h hl hpassed)
      (g, []) ⟨hg, rfl, fun _ _ _ _ => rfl, fun _ => rfl, fun _ h => absurd h List.not_mem_nil⟩
  have hzero_left (c : Key) (haround : g.around c = true) : left.count c = 0 := by
    refine List.count_eq_zero.mpr fun hmem => ?_
    exact absurd haround (ne_true_of_eq_false (h.not_around c hmem))
  have hzero_kept (c : Key) (haround : ¬ g.around c = true) : g'.arcCount emitter c = 0 := by
    by_contra hne
    obtain ⟨arc, harc, rfl⟩ := exists_arc_of_arcCount (Nat.pos_of_ne_zero hne)
    exact haround (hstay arc harc)
  have hleft (c : Key) : g'.arcCount emitter c + left.count c = g.arcCount emitter c := h.left c
  refine ⟨visited, g', left, hrun, ⟨h.linked, h.others, fun c => ?_, fun c => ?_⟩, hall⟩
  · split
    · next haround => rw [← hleft c, hzero_left c haround, Nat.add_zero]
    · next haround => exact hzero_kept c haround
  · split
    · next haround => exact hzero_left c haround
    · next haround => rw [← hleft c, hzero_kept c haround, Nat.zero_add]

/-- A change to the links of the emitter only. -/
structure Moved (emitter : Key) (g g' : Graph Key) : Prop where
  linked : Linked g'
  others : ∀ n m, n ≠ emitter → m ≠ emitter → g'.arcCount n m = g.arcCount n m
  self : g'.arcCount emitter emitter ≤ g.arcCount emitter emitter

theorem Moved.refl {emitter : Key} {g : Graph Key} (h : Linked g) : Moved emitter g g :=
  ⟨h, fun _ _ _ _ => rfl, le_rfl⟩

theorem Moved.trans {emitter : Key} {g g₁ g₂ : Graph Key} (h : Moved emitter g g₁)
    (h' : Moved emitter g₁ g₂) : Moved emitter g g₂ where
  linked := h'.linked
  others n m hn hm := (h'.others n m hn hm).trans (h.others n m hn hm)
  self := h'.self.trans h.self

theorem Moved.of_arcCount {emitter : Key} {g g' : Graph Key} (h : Linked g)
    (hcount : g'.arcCount = g.arcCount) : Moved emitter g g' where
  linked := h.congr hcount
  others n m _ _ := by rw [hcount]
  self := by rw [hcount]

theorem Entered.moved {emitter : Key} {clients : List Key} {s s' : Graph Key × List Key}
    (h : Entered emitter clients s s') (hs : Linked s.1) (hne : emitter ∉ clients) :
    Moved emitter s.1 s'.1 where
  linked := h.linked hs
  others n m hn hm := by
    rw [h.arcCount, if_neg]
    rintro (⟨hc, -⟩ | ⟨hc, -⟩)
    · exact hn hc
    · exact hm hc
  self := by
    rw [h.arcCount, if_neg]
    rintro (⟨-, hc⟩ | ⟨-, hc⟩)
    · exact hne hc
    · exact hne hc

theorem Left.moved {emitter : Key} {g g' : Graph Key} {left : List Key}
    (h : Left emitter g g' left) : Moved emitter g g' where
  linked := h.linked
  others := h.others
  self := by
    rw [h.arcCount]
    split
    · exact le_rfl
    · exact Nat.zero_le _

end Passes

/-- The outcome of a stage that has set the graph and sends packets, in order. When it leaves
the handler, with `false`, it may not have come to all of them. -/
structure Sent {α : Type} (a : Answers Key) (s : EventServer Key) (g : Graph Key)
    (packets : List (Multicast Key)) (r : Except Bool α) (s' : EventServer Key) : Prop where
  graph : s'.clientsGraph = g
  sent : ∃ new, new <+: packets ∧ s'.sent = s.sent ++ new ∧ ∀ x, r = .ok x → new = packets
  status : ∀ b, r = .error b → b = false ∧ ¬ a.Succeed

/-- The stage leaves the graph alone and sends the packets. -/
def SendsAll {α : Type} (a : Answers Key) (m : EventHandling Key α)
    (packets : List (Multicast Key)) : Prop :=
  ∀ s, m.Ends s (Sent a s s.clientsGraph packets)

variable {a : Answers Key}

theorem sent_nil {α : Type} (s : EventServer Key) (g : Graph Key) (x : α) :
    Sent a s g [] (.ok x) { s with clientsGraph := g } where
  graph := rfl
  sent := ⟨[], List.prefix_rfl, (List.append_nil _).symm, fun _ _ => rfl⟩
  status := by simp

theorem Sent.trans {α β : Type} {s s₁ s₂ : EventServer Key} {g g' : Graph Key}
    {packets packets' : List (Multicast Key)} {x : α} {r : Except Bool β}
    (h : Sent a s g packets (.ok x) s₁) (h' : Sent a s₁ g' packets' r s₂) :
    Sent a s g' (packets ++ packets') r s₂ := by
  obtain ⟨-, ⟨new, -, hsent, hall⟩, -⟩ := h
  obtain ⟨hgraph, ⟨new', hnew', hsent', hall'⟩, hstatus⟩ := h'
  have hnew := hall x rfl
  subst hnew
  refine ⟨hgraph, ⟨new ++ new', ?_, ?_, fun y hy => ?_⟩, hstatus⟩
  · exact (List.prefix_append_right_inj new).mpr hnew'
  · rw [hsent', hsent, List.append_assoc]
  · rw [hall' y hy]

theorem Sent.error {α β : Type} {s s' : EventServer Key} {g : Graph Key} {e : Bool}
    {packets : List (Multicast Key)} (packets' : List (Multicast Key))
    (h : Sent a s g packets (.error e : Except Bool α) s') :
    Sent a s g (packets ++ packets') (.error e : Except Bool β) s' := by
  obtain ⟨hgraph, ⟨new, hnew, hsent, -⟩, hstatus⟩ := h
  refine ⟨hgraph, ⟨new, hnew.trans (List.prefix_append _ _), hsent, by simp⟩, fun b hb => ?_⟩
  cases hb
  exact hstatus e rfl

theorem SendsAll.bind {α β : Type} {m : EventHandling Key α} {f : α → EventHandling Key β}
    {packets packets' : List (Multicast Key)} (hm : SendsAll a m packets)
    (hf : ∀ x, SendsAll a (f x) packets') : SendsAll a (m >>= f) (packets ++ packets') := by
  intro s
  refine (hm s).bind (fun e s₁ h => h.error packets') fun x s₁ h => (hf x s₁).mono fun r s₂ h' => ?_
  rw [h.graph] at h'
  exact h.trans h'

theorem sendsAll_pure {α : Type} (x : α) : SendsAll a (pure x : EventHandling Key α) [] := by
  intro s
  exact ends_pure x (sent_nil s _ x)

theorem orFail_apply {call : EventHandling Key Bool} {s s' : EventServer Key} {b : Bool}
    (h : call s = some (.ok b, s')) :
    orFail call s = some (if b then .ok ⟨⟩ else .error false, s') := by
  unfold orFail
  change andThen call _ s = _
  cases b <;> simp [andThen, h, require, ok, exit]

theorem sendsAll_send (a : Answers Key) (clients : List Key) (packet : Packet Key) :
    SendsAll a (orFail (eventServerSendToClients a clients packet)) [⟨packet, clients⟩] := by
  intro s
  cases hsend : a.sends s.sent ⟨packet, clients⟩ with
  | true =>
    have hcall : eventServerSendToClients a clients packet s =
        some (.ok true, { s with sent := s.sent ++ [⟨packet, clients⟩] }) := by
      simp [eventServerSendToClients, act, hsend]
    exact ⟨_, _, orFail_apply hcall, rfl, ⟨_, List.prefix_rfl, rfl, fun _ _ => rfl⟩, by simp⟩
  | false =>
    have hcall : eventServerSendToClients a clients packet s = some (.ok false, s) := by
      simp [eventServerSendToClients, act, hsend]
    refine ⟨_, _, orFail_apply hcall, rfl,
      ⟨[], List.nil_prefix, (List.append_nil _).symm, by simp⟩, fun b hb => ?_⟩
    cases hb
    exact ⟨rfl, fun hall => absurd (hsend.symm.trans (hall.1 _ _)) Bool.false_ne_true⟩

theorem sendsAll_session (a : Answers Key) (client : Key) :
    SendsAll a (orFail (eventServerGetGameSessionBySocketId a client)) [] := by
  intro s
  have hcall : eventServerGetGameSessionBySocketId a client s =
      some (.ok (a.hasGameSession s.sent client), s) := rfl
  refine ⟨_, _, orFail_apply hcall, rfl,
    ⟨[], List.prefix_rfl, (List.append_nil _).symm, fun _ _ => rfl⟩, fun b hb => ?_⟩
  split at hb
  · cases hb
  · next hsession =>
    cases hb
    exact ⟨rfl, fun hall => hsession (hall.2 _ _)⟩

/-- A packet about each of the clients, for the emitter. -/
def tellings (emitter : Key) (packet : Key → Packet Key) (clients : List Key) :
    List (Multicast Key) :=
  clients.map fun client => ⟨packet client, [emitter]⟩

theorem sendsAll_tellEmitter (a : Answers Key) (emitter : Key) (packet : Key → Packet Key)
    (clients : List Key) :
    SendsAll a (tellEmitter a emitter packet clients) (tellings emitter packet clients) := by
  induction clients with
  | nil => exact sendsAll_pure PUnit.unit
  | cons client clients ih =>
    exact (sendsAll_session a client).bind fun _ =>
      (sendsAll_send a [emitter] (packet client)).bind fun _ => ih

section Outcome

variable [DecidableEq Key]

/-- The packets that tell of the clients entered. -/
def enterPackets (emitter : Key) (redisClientsAround pcEnterList : List Key) :
    List (Multicast Key) :=
  (if 0 < pcEnterList.length then [⟨.enterPc emitter, redisClientsAround⟩] else []) ++
    tellings emitter .enterPc (pcEnterList.filter fun client => client ≠ emitter)

def leavePackets (emitter : Key) (pcLeaveList : List Key) : List (Multicast Key) :=
  if 0 < pcLeaveList.length then ⟨.leave emitter, pcLeaveList⟩ :: tellings emitter .leave pcLeaveList
  else []

theorem sendsAll_sendEntered (a : Answers Key) (emitter : Key)
    (redisClientsAround pcEnterList : List Key) :
    SendsAll a (sendEntered a emitter redisClientsAround pcEnterList)
      (enterPackets emitter redisClientsAround pcEnterList) := by
  refine SendsAll.bind ?_ fun _ => sendsAll_tellEmitter a emitter _ _
  unfold sendUnlessEmpty
  split
  · exact sendsAll_send a _ _
  · exact sendsAll_pure PUnit.unit

omit [DecidableEq Key] in
theorem sendsAll_sendLeft (a : Answers Key) (emitter : Key) (pcLeaveList : List Key) :
    SendsAll a (sendLeft a emitter pcLeaveList) (leavePackets emitter pcLeaveList) := by
  unfold sendLeft leavePackets
  split
  · exact (sendsAll_send a _ _).bind fun _ => sendsAll_tellEmitter a emitter _ _
  · exact sendsAll_pure PUnit.unit

omit [DecidableEq Key] in
theorem modifyGraph_ends (a : Answers Key) (f : Graph Key → Graph Key) (s : EventServer Key) :
    (modifyGraph f).Ends s (Sent a s (f s.clientsGraph) []) :=
  ends_act _ (sent_nil s _ _)

theorem markNeighbours_ends (a : Answers Key) (emitter : Key) (s : EventServer Key) :
    (markNeighbours emitter).Ends s fun r s' => ∃ g, Sent a s g [] r s' ∧
      g.arcCount = s.clientsGraph.arcCount ∧
      ∀ c, 0 < s.clientsGraph.arcCount emitter c → g.around c = false := by
  obtain ⟨visited, g, hrun, hcount, hmarked⟩ := walkArcs_markNeighbour s.clientsGraph emitter
  refine ends_lift ?_ ⟨g, sent_nil s g PUnit.unit, hcount, hmarked⟩
  rw [hrun, Option.map_some]

theorem enterClients_ends (a : Answers Key) {emitter : Key} {clients : List Key}
    (hne : emitter ∉ clients) {s : EventServer Key} (hs : Linked s.clientsGraph) :
    (enterClients a emitter clients).Ends s fun r s' => ∃ g pcEnterList,
      Entered emitter clients (s.clientsGraph, []) (g, pcEnterList) ∧
      Sent a s g (enterPackets emitter clients pcEnterList) r s' := by
  have hentered := foldl_linkAround_entered hne (s := (s.clientsGraph, [])) hs
  unfold enterClients
  refine Ends.ite (fun _ => ?_) fun hempty => ?_
  · refine Ends.bind (ends_act _ ⟨rfl, rfl⟩ : Ends _ s fun r s' =>
      r = .ok (clients.foldl (linkAround emitter) (s.clientsGraph, [])).2 ∧ s' = _) ?_ ?_
    · rintro e s' ⟨he, -⟩
      cases he
    · rintro pcEnterList s' ⟨hlist, rfl⟩
      cases hlist
      refine (sendsAll_sendEntered a emitter clients _ _).mono ?_
      rintro r s' ⟨hgraph, hsent, hstatus⟩
      exact ⟨_, _, hentered, hgraph, hsent, hstatus⟩
  · rw [Nat.not_lt, Nat.le_zero, List.length_eq_zero_iff] at hempty
    subst hempty
    exact ends_pure _ ⟨_, _, hentered, sent_nil s _ _⟩

theorem unlinkClientsLeft_ends (a : Answers Key) (emitter : Key) {s : EventServer Key}
    (hs : Linked s.clientsGraph) :
    (unlinkClientsLeft emitter).Ends s fun r s' => ∃ g pcLeaveList,
      Left emitter s.clientsGraph g pcLeaveList ∧ Sent a s g [] r s' ∧ r = .ok pcLeaveList := by
  obtain ⟨visited, g, left, hrun, hleft, -⟩ := walkArcs_unlinkLeft hs emitter
  refine ends_lift ?_ ⟨g, left, hleft, sent_nil s g _, rfl⟩
  rw [hrun, Option.map_some]

/-- A packet about the emitter, or for the emitter alone. -/
def Concerns (emitter : Key) (m : Multicast Key) : Prop :=
  m.packet = .enterPc emitter ∨ m.packet = .leave emitter ∨ m.clients = [emitter]

omit [DecidableEq Key] in
theorem concerns_tellings {emitter : Key} {packet : Key → Packet Key} {clients : List Key}
    {m : Multicast Key} (hm : m ∈ tellings emitter packet clients) : Concerns emitter m := by
  obtain ⟨client, -, rfl⟩ := List.mem_map.mp hm
  exact .inr (.inr rfl)

theorem concerns_enterPackets {emitter : Key} {clients pcEnterList : List Key} {m : Multicast Key}
    (hm : m ∈ enterPackets emitter clients pcEnterList) : Concerns emitter m := by
  rcases List.mem_append.mp hm with hm | hm
  · split at hm
    · rw [List.mem_singleton.mp hm]
      exact .inl rfl
    · exact absurd hm List.not_mem_nil
  · exact concerns_tellings hm

omit [DecidableEq Key] in
theorem concerns_leavePackets {emitter : Key} {pcLeaveList : List Key} {m : Multicast Key}
    (hm : m ∈ leavePackets emitter pcLeaveList) : Concerns emitter m := by
  unfold leavePackets at hm
  split at hm
  · rcases List.mem_cons.mp hm with rfl | hm
    · exact .inr (.inl rfl)
    · exact concerns_tellings hm
  · exact absurd hm List.not_mem_nil

/-- What a successful update does: the neighbours of the emitter are the clients around, and
the packets are those of the enter pass and of the leave pass. -/
structure Updated (emitter : Key) (clients : List Key) (s s' : EventServer Key)
    (pcEnterList pcLeaveList : List Key) : Prop where
  neighbours : ∀ c, s'.clientsGraph.arcCount emitter c = if c ∈ clients then 1 else 0
  entered : ∀ c, pcEnterList.count c =
    if c ∈ clients ∧ s.clientsGraph.arcCount emitter c = 0 then 1 else 0
  left : ∀ c, pcLeaveList.count c =
    if c ∈ clients then 0 else s.clientsGraph.arcCount emitter c
  sent : s'.sent = s.sent ++ (enterPackets emitter clients pcEnterList ++
    leavePackets emitter pcLeaveList)

/-- What any update does. When it fails it may have changed links of the emitter, and sent some
of the packets; when the query fails it has done nothing. -/
structure UpdateOutcome (a : Answers Key) (emitter : Key) (s : EventServer Key)
    (r : Except Bool (List Key)) (s' : EventServer Key) : Prop where
  moved : Moved emitter s.clientsGraph s'.clientsGraph
  sent : ∃ new, s'.sent = s.sent ++ new ∧ ∀ m ∈ new, Concerns emitter m
  query_fails : a.clientsWithinRange = none → s' = s
  status : ∀ b, r = .error b → b = false ∧ (a.clientsWithinRange = none ∨ ¬ a.Succeed)
  done : ∀ clients, r = .ok clients → a.clientsWithinRange = some clients ∧
    ∃ pcEnterList pcLeaveList, Updated emitter clients s s' pcEnterList pcLeaveList

/-- The three passes put together: whether a client is linked with the emitter after them is
a matter of the Redis list alone. -/
theorem passes_arcCount {emitter : Key} {clients pcEnterList pcLeaveList : List Key}
    {g g₁ g₂ g₃ : Graph Key} (hcount : g₁.arcCount = g.arcCount)
    (hmarked : ∀ c, 0 < g.arcCount emitter c → g₁.around c = false)
    (hentered : Entered emitter clients (g₁, []) (g₂, pcEnterList))
    (hleft : Left emitter g₂ g₃ pcLeaveList) (hne : emitter ∉ clients) (c : Key) :
    g₃.arcCount emitter c = (if c ∈ clients then 1 else 0) ∧
      pcLeaveList.count c = if c ∈ clients then 0 else g.arcCount emitter c := by
  have haround : g₂.around c = (decide (c ∈ clients) || g₁.around c) := hentered.around c
  have hlinked : g₂.arcCount emitter c =
      if Joins emitter clients emitter c then 1 else g₁.arcCount emitter c :=
    hentered.arcCount emitter c
  have hjoins : Joins emitter clients emitter c ↔ c ∈ clients := by
    constructor
    · rintro (⟨-, hc⟩ | ⟨-, hc⟩)
      · exact hc
      · exact absurd hc hne
    · exact fun hc => .inl ⟨rfl, hc⟩
  simp only [hjoins, hcount] at hlinked
  rw [hleft.arcCount, hleft.left]
  by_cases hc : c ∈ clients
  · rw [if_pos hc] at hlinked
    simp [haround, hc, hlinked]
  · rw [if_neg hc] at hlinked
    simp only [hc, decide_false, Bool.false_or] at haround
    rw [haround, hlinked, if_neg hc, if_neg hc]
    by_cases hold : g.arcCount emitter c = 0
    · simp [hold]
    · rw [hmarked c (Nat.pos_of_ne_zero hold)]
      exact ⟨rfl, rfl⟩

omit [DecidableEq Key] in
theorem Sent.concerns {α : Type} {emitter : Key} {s s' : EventServer Key} {g : Graph Key}
    {packets : List (Multicast Key)} {r : Except Bool α} (h : Sent a s g packets r s')
    (hall : ∀ m ∈ packets, Concerns emitter m) :
    ∃ new, s'.sent = s.sent ++ new ∧ ∀ m ∈ new, Concerns emitter m := by
  obtain ⟨new, hnew, hsent, -⟩ := h.sent
  exact ⟨new, hsent, fun m hm => hall m (hnew.subset hm)⟩

theorem UpdateOutcome.error {α : Type} {a : Answers Key} {emitter : Key} {s s' : EventServer Key}
    {g : Graph Key} {packets : List (Multicast Key)} {b : Bool}
    (hquery : ¬ a.clientsWithinRange = none) (hmoved : Moved emitter s.clientsGraph g)
    (h : Sent a s g packets (.error b : Except Bool α) s')
    (hall : ∀ m ∈ packets, Concerns emitter m) : UpdateOutcome a emitter s (.error b) s' where
  moved := by
    rw [h.graph]
    exact hmoved
  sent := h.concerns hall
  query_fails hnone := absurd hnone hquery
  status b' hb := by
    cases hb
    exact (h.status b rfl).imp_right .inr
  done clients hr := by cases hr

theorem zoneEventServerUpdateClientPosition_ends (a : Answers Key) (emitter : Key)
    {s : EventServer Key} (hs : Linked s.clientsGraph)
    (hne : ∀ clients, a.clientsWithinRange = some clients → emitter ∉ clients) :
    (zoneEventServerUpdateClientPosition a emitter).Ends s (UpdateOutcome a emitter s) := by
  unfold zoneEventServerUpdateClientPosition clientsWithinRange
  rcases hquery : a.clientsWithinRange with _ | clients
  · refine Ends.bind (ends_exit false ⟨rfl, rfl⟩ :
      Ends _ s fun r s' => r = .error false ∧ s' = s) ?_ ?_
    · rintro e s' ⟨he, rfl⟩
      cases he
      exact ⟨.refl hs, ⟨[], (List.append_nil _).symm, by simp⟩, fun _ => rfl, by simp [hquery],
        by simp⟩
    · rintro _ _ ⟨hr, -⟩
      cases hr
  have hne := hne clients hquery
  have hsome : ¬ a.clientsWithinRange = none := by simp [hquery]
  refine Ends.bind (ends_pure clients ⟨rfl, rfl⟩ :
    Ends _ s fun r s' => r = .ok clients ∧ s = s') ?_ ?_
  · rintro e s' ⟨he, -⟩
    cases he
  rintro _ _ ⟨hr, rfl⟩
  cases hr
  refine (modifyGraph_ends a _ s).bind (fun e s₁ h₁ => ?_) fun _ s₁ h₁ => ?_
  · exact .error hsome (.of_arcCount hs (arcCount_eventServerGetClientNode _ _)) h₁ (by simp)
  have hcount₁ : s₁.clientsGraph.arcCount = s.clientsGraph.arcCount := by
    rw [h₁.graph, arcCount_eventServerGetClientNode]
  refine (markNeighbours_ends a emitter s₁).bind ?_ ?_
  · rintro e s₂ ⟨g₁, h₂, hcount₂, -⟩
    exact .error hsome (.of_arcCount hs (hcount₂.trans hcount₁)) (h₁.trans h₂) (by simp)
  rintro _ s₂ ⟨g₁, h₂, hcount₂, hmarked⟩
  have hs₂ : Linked s₂.clientsGraph := by
    rw [h₂.graph]
    exact hs.congr (hcount₂.trans hcount₁)
  have hmoved₂ : Moved emitter s.clientsGraph s₂.clientsGraph := by
    rw [h₂.graph]
    exact .of_arcCount hs (hcount₂.trans hcount₁)
  rw [hcount₁] at hcount₂ hmarked
  refine (enterClients_ends a hne hs₂).bind ?_ ?_
  · rintro e s₃ ⟨g₂, pcEnterList, hentered, h₃⟩
    have hmoved := hmoved₂.trans (hentered.moved hs₂ hne)
    refine .error hsome hmoved ((h₁.trans h₂).trans h₃) fun m hm => ?_
    exact concerns_enterPackets hm
  rintro _ s₃ ⟨g₂, pcEnterList, hentered, h₃⟩
  have hs₃ : Linked s₃.clientsGraph := by
    rw [h₃.graph]
    exact hentered.linked hs₂
  have hmoved₃ : Moved emitter s.clientsGraph s₃.clientsGraph := by
    rw [h₃.graph]
    exact hmoved₂.trans (hentered.moved hs₂ hne)
  have hunlink := unlinkClientsLeft_ends a emitter hs₃
  refine hunlink.bind ?_ ?_
  · rintro e s₄ ⟨g₃, pcLeaveList, hleft, h₄, hr⟩
    cases hr
  rintro pcLeaveList s₄ ⟨g₃, left, hleft, h₄, hr⟩
  cases hr
  have hsent₄ := ((h₁.trans h₂).trans h₃).trans h₄
  have hmoved₄ := hmoved₃.trans hleft.moved
  refine (sendsAll_sendLeft a emitter pcLeaveList s₄).bind (fun e s₅ h₅ => ?_) fun _ s₅ h₅ => ?_
  · rw [h₄.graph] at h₅
    refine .error hsome hmoved₄ (hsent₄.trans h₅) fun m hm => ?_
    simp only [List.nil_append, List.append_nil] at hm
    rcases List.mem_append.mp hm with hm | hm
    · exact concerns_enterPackets hm
    · exact concerns_leavePackets hm
  rw [h₄.graph] at h₅
  have hsent₅ := hsent₄.trans h₅
  simp only [List.nil_append, List.append_nil] at hsent₅
  rw [h₂.graph] at hentered
  rw [h₃.graph] at hleft
  refine ends_pure clients ⟨?_, hsent₅.concerns fun m hm => ?_, fun h => absurd h hsome, by simp,
    fun clients' hr => ?_⟩
  · rw [h₅.graph]
    exact hmoved₄
  · rcases List.mem_append.mp hm with hm | hm
    · exact concerns_enterPackets hm
    · exact concerns_leavePackets hm
  · cases hr
    have hpasses := passes_arcCount hcount₂ hmarked hentered hleft hne
    obtain ⟨new, -, hsent, hnew⟩ := hsent₅.sent
    refine ⟨hquery, pcEnterList, pcLeaveList, fun c => ?_, fun c => ?_, fun c => (hpasses c).2, ?_⟩
    · rw [h₅.graph]
      exact (hpasses c).1
    · have hc := hentered.entered c
      rw [hcount₂] at hc
      simpa using hc
    · rw [hsent, hnew PUnit.unit rfl]

/-- When the update goes on with the clients around, and so returns true, the emitter is linked
once and in both directions with each of them and with no other client, and the links of the
others are as before. The unlink pass comes by every arc. -/
theorem neighbours_are_the_clients_around (a : Answers Key) (emitter : Key) (s : EventServer Key)
    (redisClientsAround : List Key) (hlinks : Linked s.clientsGraph)
    (hquery : a.clientsWithinRange = some redisClientsAround)
    (hne : emitter ∉ redisClientsAround) :
    (∃ r s', zoneEventServerUpdateClientPosition a emitter s = some (r, s')) ∧
    (∀ clients s', zoneEventServerUpdateClientPosition a emitter s = some (.ok clients, s') →
      (∀ c, s'.clientsGraph.arcCount emitter c = if c ∈ redisClientsAround then 1 else 0) ∧
      (∀ c, s'.clientsGraph.arcCount c emitter = if c ∈ redisClientsAround then 1 else 0) ∧
      ∀ n m, n ≠ emitter → m ≠ emitter →
        s'.clientsGraph.arcCount n m = s.clientsGraph.arcCount n m) ∧
    ∀ g, Linked g → ∃ visited r, walkArcs emitter (unlinkLeft emitter) (g, []) = some (visited, r) ∧
      ∀ arc ∈ (g.arcs emitter).items, arc ∈ visited := by
  have hends := zoneEventServerUpdateClientPosition_ends a emitter hlinks fun clients hclients => by
    cases hquery.symm.trans hclients
    exact hne
  refine ⟨?_, fun clients s' hrun => ?_, fun g hg => ?_⟩
  · obtain ⟨r, s', hrun, -⟩ := hends
    exact ⟨r, s', hrun⟩
  · have houtcome := hends.sat _ _ hrun
    obtain ⟨hclients, pcEnterList, pcLeaveList, hupdated⟩ := houtcome.done clients rfl
    cases hquery.symm.trans hclients
    refine ⟨hupdated.neighbours, fun c => ?_, houtcome.moved.others⟩
    rw [houtcome.moved.linked.symm]
    exact hupdated.neighbours c
  · obtain ⟨visited, g', left, hrun, -, hall⟩ := walkArcs_unlinkLeft hg emitter
    exact ⟨visited, _, hrun, hall⟩

theorem arcCount_two_links (node1 node2 node3 node4 n m : ℕ) :
    (graphLink (graphLink graphNew node1 node2) node3 node4).arcCount n m =
      oneArc node1 node2 n m + oneArc node2 node1 n m + oneArc node3 node4 n m +
        oneArc node4 node3 n m := by
  rw [arcCount_graphLink, arcCount_graphLink]
  simp [Graph.arcCount, Graph.neighbours, Graph.arcs, Graph.node, graphNew, graphNodeNew]

/-- A client with two neighbours moves away from one of them and comes near a third, whom
Redis lists twice. -/
theorem neighbours_are_the_clients_around_after_move :
    ∃ clients s', zoneEventServerUpdateClientPosition ⟨some [3, 4, 4], fun _ _ => true,
        fun _ _ => true⟩ 1 ⟨graphLink (graphLink graphNew 1 2) 1 3, []⟩ = some (.ok clients, s') ∧
      ∀ c, s'.clientsGraph.arcCount c 1 = if c ∈ [3, 4, 4] then 1 else 0 := by
  have hlinks : Linked (graphLink (graphLink (graphNew : Graph ℕ) 1 2) 1 3) := by
    constructor
    · intro n m
      rw [arcCount_two_links, arcCount_two_links, oneArc_comm 1 2 n m, oneArc_comm 2 1 n m,
        oneArc_comm 1 3 n m, oneArc_comm 3 1 n m]
      omega
    · intro n m
      rw [arcCount_two_links]
      simp only [oneArc]
      split_ifs <;> omega
  have h := neighbours_are_the_clients_around ⟨some [3, 4, 4], fun _ _ => true, fun _ _ => true⟩ 1
    ⟨graphLink (graphLink graphNew 1 2) 1 3, []⟩ [3, 4, 4] hlinks rfl (by decide)
  exact ⟨_, _, rfl, (h.2.1 _ _ rfl).2.1⟩

/-- Two clients that are linked twice, symmetrically: the link pass finds an arc and the unlink
pass leaves both. -/
theorem linked_twice_stay_linked_twice :
    let g : Graph ℕ := graphLink (graphLink graphNew 1 2) 1 2
    (∀ n m, g.arcCount n m = g.arcCount m n) ∧
      ∃ s', zoneEventServerUpdateClientPosition ⟨some [2], fun _ _ => true, fun _ _ => true⟩ 1
          ⟨g, []⟩ = some (.ok [2], s') ∧ s'.clientsGraph.arcCount 1 2 = 2 := by
  constructor
  · intro n m
    rw [arcCount_two_links, arcCount_two_links, oneArc_comm 1 2 n m, oneArc_comm 2 1 n m]
    omega
  · exact ⟨_, rfl, rfl⟩

end Outcome

end R1Emu.Zone
