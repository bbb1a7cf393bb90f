import R1Emu.Zone.GraphSymmetry
import R1Emu.Zone.UpdatePosition

/-!
# The handlers of the zone's event server

The events of a client that moves update its position in the graph; then the clients around
are told of the movement. The event of a client that leaves is passed on to its neighbours, and
its node loses all links.
-/
namespace R1Emu.Zone
open R1Emu.Lib R1Emu.Lib.Stage

variable {Key : Type} [DecidableEq Key]

/-- Update the position of the emitter, and tell the clients around. -/
def updateThen (a : Answers Key) (emitter : Key) (notify : List Key → EventHandling Key PUnit) :
    EventHandling Key Bool := do
  let clientsAround ← zoneEventServerUpdateClientPosition a emitter
  notify clientsAround
  return true

def zoneEventHandlerEnterPc (a : Answers Key) (emitter : Key) : EventHandling Key Bool :=
  updateThen a emitter fun _ => pure ⟨⟩

def zoneEventHandlerCommanderMove (a : Answers Key) (emitter : Key) : EventHandling Key Bool :=
  updateThen a emitter fun clientsAround =>
    sendUnlessEmpty a clientsAround clientsAround (.moveDir emitter)

def zoneEventHandlerMoveStop (a : Answers Key) (emitter : Key) : EventHandling Key Bool :=
  updateThen a emitter fun clientsAround =>
    sendUnlessEmpty a clientsAround clientsAround (.pcMoveStop emitter)

/-- The emitter is told as well. -/
def zoneEventHandlerJump (a : Answers Key) (emitter : Key) : EventHandling Key Bool :=
  updateThen a emitter fun clientsAround =>
    orFail (eventServerSendToClients a (clientsAround ++ [emitter]) (.jump emitter))

def collectNeighbour (arc : GraphArc Key) (s : Graph Key × List Key) : Graph Key × List Key :=
  (s.1, s.2 ++ [arc.toNode])

def eventServerGetClientsAround (sessionKey : Key) : EventHandling Key (List Key) :=
  lift fun s =>
    (walkArcs sessionKey collectNeighbour
      (eventServerGetClientNode s.clientsGraph sessionKey, [])).map fun r =>
        (r.2.2, { s with clientsGraph := r.2.1 })

def eventServerRemoveClient (sessionKey : Key) : EventHandling Key Bool :=
  lift fun s =>
    (graphRemoveNode (eventServerGetClientNode s.clientsGraph sessionKey) sessionKey).map fun r =>
      (r.1, { s with clientsGraph := r.2 })

/-- What the removal returns is not looked at. -/
def zoneEventHandlerLeave (a : Answers Key) (emitter : Key) : EventHandling Key Bool := do
  let clientsAround ← eventServerGetClientsAround emitter
  let _ ← eventServerRemoveClient emitter
  orFail (eventServerSendToClients a (clientsAround ++ [emitter]) (.leave emitter))
  return true

/-- The events that change the graph. -/
inductive EventType
  | enterPc
  | commanderMove
  | moveStop
  | jump
  | leave
  deriving DecidableEq

def zoneEventHandlers : EventType → Answers Key → Key → EventHandling Key Bool
  | .enterPc => zoneEventHandlerEnterPc
  | .commanderMove => zoneEventHandlerCommanderMove
  | .moveStop => zoneEventHandlerMoveStop
  | .jump => zoneEventHandlerJump
  | .leave => zoneEventHandlerLeave

/-- The query leaves out the session key that it is told to ignore. -/
def Answers.ignoring (a : Answers Key) (ignoredSessionKey : Key) : Answers Key :=
  { a with
    clientsWithinRange :=
      a.clientsWithinRange.map fun clients => clients.filter fun client => client ≠ ignoredSessionKey }

theorem not_mem_ignoring (a : Answers Key) (key : Key) (clients : List Key)
    (h : (a.ignoring key).clientsWithinRange = some clients) : key ∉ clients := by
  obtain ⟨found, -, rfl⟩ := Option.map_eq_some_iff.mp h
  simp

def zoneEventServerProcess (type : EventType) (a : Answers Key) (emitter : Key) :
    EventHandling Key Bool :=
  zoneEventHandlers type (a.ignoring emitter) emitter

/-- A packet that only tells of a movement. -/
def Silent (m : Multicast Key) : Prop :=
  ∃ c, m.packet = .moveDir c ∨ m.packet = .pcMoveStop c ∨ m.packet = .jump c

/-- An update of the position, followed by packets about a movement. -/
structure MoveOutcome (a : Answers Key) (emitter : Key) (s : EventServer Key)
    (r : Except Bool Bool) (s' : EventServer Key) : Prop where
  update : ∃ r₁ s₁, UpdateOutcome a emitter s r₁ s₁ ∧ s'.clientsGraph = s₁.clientsGraph ∧
    (∃ new, s'.sent = s₁.sent ++ new ∧ ∀ m ∈ new, Silent m) ∧
    (r = .ok true → ∃ clients, r₁ = .ok clients)
  status : r = .ok true ∨ r = .error false

theorem updateThen_ends (a : Answers Key) (emitter : Key)
    {notify : List Key → EventHandling Key PUnit} {packets : List Key → List (Multicast Key)}
    (hnotify : ∀ clients, SendsAll a (notify clients) (packets clients))
    (hsilent : ∀ clients, ∀ m ∈ packets clients, Silent m) {s : EventServer Key}
    (hs : Linked s.clientsGraph)
    (hne : ∀ clients, a.clientsWithinRange = some clients → emitter ∉ clients) :
    (updateThen a emitter notify).Ends s (MoveOutcome a emitter s) := by
  refine (zoneEventServerUpdateClientPosition_ends a emitter hs hne).bind ?_ ?_
  · intro b s₁ h
    refine ⟨⟨_, s₁, h, rfl, ⟨[], (List.append_nil _).symm, by simp⟩, by simp⟩, .inr ?_⟩
    rw [(h.status b rfl).1]
  · intro clients s₁ h
    refine (hnotify clients s₁).bind ?_ ?_
    · intro b s₂ h₂
      obtain ⟨new, hfront, hnew, -⟩ := h₂.sent
      refine ⟨⟨_, s₁, h, h₂.graph, ⟨new, hnew, fun m hm => ?_⟩, by simp⟩, .inr ?_⟩
      · exact hsilent clients m (hfront.subset hm)
      · rw [(h₂.status b rfl).1]
    · intro _ s₂ h₂
      obtain ⟨new, hfront, hnew, -⟩ := h₂.sent
      refine ends_pure true ⟨⟨_, s₁, h, h₂.graph, ⟨new, hnew, fun m hm => ?_⟩, fun _ => ⟨_, rfl⟩⟩,
        .inl rfl⟩
      exact hsilent clients m (hfront.subset hm)

omit [DecidableEq Key] in
theorem sendsAll_sendUnlessEmpty (a : Answers Key) (list clients : List Key)
    (packet : Packet Key) :
    SendsAll a (sendUnlessEmpty a list clients packet)
      (if 0 < list.length then [⟨packet, clients⟩] else []) := by
  unfold sendUnlessEmpty
  split
  · exact sendsAll_send a _ _
  · exact sendsAll_pure PUnit.unit

/-- What the events of a client that moves do. -/
theorem zoneEventServerProcess_ends {type : EventType} (htype : type ≠ .leave) (a : Answers Key)
    (emitter : Key) {s : EventServer Key} (hs : Linked s.clientsGraph) :
    (zoneEventServerProcess type a emitter).Ends s
      (MoveOutcome (a.ignoring emitter) emitter s) := by
  have hne := not_mem_ignoring a emitter
  cases type with
  | enterPc =>
    exact updateThen_ends _ emitter (fun _ => sendsAll_pure PUnit.unit) (fun _ => by simp) hs hne
  | commanderMove =>
    refine updateThen_ends _ emitter (fun _ => sendsAll_sendUnlessEmpty _ _ _ _)
      (fun clients m hm => ?_) hs hne
    split at hm
    · exact ⟨emitter, .inl (by rw [List.mem_singleton.mp hm])⟩
    · exact absurd hm List.not_mem_nil
  | moveStop =>
    refine updateThen_ends _ emitter (fun _ => sendsAll_sendUnlessEmpty _ _ _ _)
      (fun clients m hm => ?_) hs hne
    split at hm
    · exact ⟨emitter, .inr (.inl (by rw [List.mem_singleton.mp hm]))⟩
    · exact absurd hm List.not_mem_nil
  | jump =>
    refine updateThen_ends _ emitter (fun _ => sendsAll_send _ _ _) (fun clients m hm => ?_) hs hne
    exact ⟨emitter, .inr (.inr (by rw [List.mem_singleton.mp hm]))⟩
  | leave => exact absurd rfl htype

/-- The clients around a client are its neighbours. -/
theorem walkArcs_collectNeighbour (g : Graph Key) (key : Key) :
    ∃ visited g', walkArcs key collectNeighbour (g, []) = some (visited, g', g.neighbours key) ∧
      g'.arcCount = g.arcCount := by
  obtain ⟨visited, ⟨g', around⟩, hrun, ⟨hitems, haround⟩, -, -⟩ :=
    CursorList.loop_spec (fun s : Graph Key × List Key => s.1.arcs key)
      (fun l s => (s.1.setArcs key l, s.2)) collectNeighbour (fun _ => True)
      (fun seen s => (∀ n, (s.1.arcs n).items = (g.arcs n).items) ∧
        s.2 = seen.map (·.toNode))
      (fun l s => arcs_setArcs_self s.1 key l)
      (fun seen l s hl h => ⟨fun n => (Graph.items_setArcs hl n).trans (h.1 n), h.2⟩)
      (fun seen arc s passed rest h hl _ => by
        refine ⟨⟨h.1, ?_⟩, .inl ⟨trivial, hl⟩⟩
        rw [collectNeighbour, h.2, List.map_append, List.map_singleton])
      (g, []) ⟨fun _ => rfl, rfl⟩
  obtain ⟨s', hkept⟩ := CursorList.loop_of_kept (fun s : Graph Key × List Key => s.1.arcs key)
    (fun l s => (s.1.setArcs key l, s.2)) collectNeighbour
    (fun l s => arcs_setArcs_self s.1 key l) (fun _ _ => rfl) (g, [])
  have hvisited : visited = (g.arcs key).items := by
    rw [hkept] at hrun
    cases hrun
    rfl
  refine ⟨visited, g', ?_, Graph.arcCount_congr hitems⟩
  rw [Graph.neighbours, ← hvisited]
  have haround : around = visited.map (·.toNode) := haround
  rw [← haround]
  exact hrun

/-- No client is linked with itself. -/
def Loopless (g : Graph Key) : Prop := ∀ n, g.arcCount n n = 0

theorem Linked.balanced {g : Graph Key} (h : Linked g) (hloopless : Loopless g) : Balanced g where
  symm := h.symm
  even n := ⟨0, hloopless n⟩

/-- What the event of a client that leaves does: its links are gone, and its neighbours and
itself are told, unless the send fails. -/
structure LeaveOutcome (a : Answers Key) (emitter : Key) (s s' : EventServer Key) : Prop where
  linked : Linked s'.clientsGraph
  neighbours : ∀ c, s'.clientsGraph.arcCount emitter c = 0
  others : ∀ n m, n ≠ emitter → m ≠ emitter →
    s'.clientsGraph.arcCount n m = s.clientsGraph.arcCount n m
  sent : s'.sent = s.sent ∧ ¬ a.Succeed ∨
    s'.sent = s.sent ++ [⟨.leave emitter, s.clientsGraph.neighbours emitter ++ [emitter]⟩]

theorem Isolated.linked {g g' : Graph Key} {key : Key} (h : Isolated g key g') (hg : Linked g) :
    Linked g' where
  symm := h.balanced.symm
  single n m := by
    by_cases hn : n = key
    · rw [hn, h.from_key]
      exact Nat.zero_le 1
    · by_cases hm : m = key
      · rw [hm, h.balanced.symm, h.from_key]
        exact Nat.zero_le 1
      · rw [h.others n m hn hm]
        exact hg.single n m

theorem zoneEventHandlerLeave_ends (a : Answers Key) (emitter : Key) {s : EventServer Key}
    (hs : Linked s.clientsGraph) (hloopless : Loopless s.clientsGraph) :
    (zoneEventServerProcess .leave a emitter).Ends s fun r s' =>
      LeaveOutcome a emitter s s' ∧ (r = .ok true ∨ r = .error false) := by
  have hcreated := arcCount_eventServerGetClientNode s.clientsGraph emitter
  obtain ⟨visited, g₁, hwalk, hcount₁⟩ :=
    walkArcs_collectNeighbour (eventServerGetClientNode s.clientsGraph emitter) emitter
  have hneighbours : (eventServerGetClientNode s.clientsGraph emitter).neighbours emitter =
      s.clientsGraph.neighbours emitter :=
    Graph.neighbours_congr (by rw [eventServerGetClientNode, arcs_graphInsertNode])
  rw [hneighbours] at hwalk
  rw [hcreated] at hcount₁
  have hcount₂ := (arcCount_eventServerGetClientNode g₁ emitter).trans hcount₁
  have hlinked₂ := hs.congr hcount₂
  have hloopless₂ : Loopless (eventServerGetClientNode g₁ emitter) := by
    intro n
    rw [hcount₂]
    exact hloopless n
  obtain ⟨g₃, hremove, hisolated⟩ := (hlinked₂.balanced hloopless₂).graphRemoveNode emitter
  have houtcome (s' : EventServer Key) (hgraph : s'.clientsGraph = g₃)
      (hsent : s'.sent = s.sent ∧ ¬ a.Succeed ∨ s'.sent =
        s.sent ++ [⟨.leave emitter, s.clientsGraph.neighbours emitter ++ [emitter]⟩]) :
      LeaveOutcome a emitter s s' := by
    obtain ⟨g, sent⟩ := s'
    cases hgraph
    refine ⟨hisolated.linked hlinked₂, hisolated.from_key, fun n m hn hm => ?_, hsent⟩
    rw [hisolated.others n m hn hm, hcount₂]
  unfold zoneEventServerProcess zoneEventHandlers zoneEventHandlerLeave
  refine Ends.bind (ends_lift (by rw [hwalk]; rfl) ⟨rfl, rfl⟩ :
    Ends _ s fun r s' => r = .ok (s.clientsGraph.neighbours emitter) ∧ s' = ⟨g₁, s.sent⟩) ?_ ?_
  · rintro b s₁ ⟨hr, -⟩
    cases hr
  rintro around s₁ ⟨hr, rfl⟩
  cases hr
  refine Ends.bind (ends_lift (by rw [hremove]; rfl) ⟨rfl, rfl⟩ :
    Ends _ _ fun r s' => r = .ok true ∧ s' = ⟨g₃, s.sent⟩) ?_ ?_
  · rintro b s₂ ⟨hr, -⟩
    cases hr
  rintro _ s₂ ⟨-, rfl⟩
  refine (sendsAll_send (a.ignoring emitter) (s.clientsGraph.neighbours emitter ++ [emitter])
    (.leave emitter) ⟨g₃, s.sent⟩).bind ?_ ?_
  · rintro b s₃ h₃
    obtain ⟨new, hfront, hnew, -⟩ := h₃.sent
    obtain ⟨hb, hfail⟩ := h₃.status b rfl
    refine ⟨houtcome s₃ h₃.graph ?_, .inr (by rw [hb])⟩
    rcases List.prefix_cons_iff.mp hfront with rfl | ⟨rest, rfl, hrest⟩
    · exact .inl ⟨hnew.trans (List.append_nil _), hfail⟩
    · rw [List.prefix_nil.mp hrest] at hnew
      exact .inr hnew
  · rintro _ s₃ h₃
    obtain ⟨new, -, hnew, hall⟩ := h₃.sent
    rw [hall PUnit.unit rfl] at hnew
    exact ends_pure true ⟨houtcome s₃ h₃.graph (.inr hnew), .inl rfl⟩

end R1Emu.Zone
