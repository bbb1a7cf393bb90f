import R1Emu.Zone.EventHandler

/-!
# ENTER and LEAVE alternate

A client sees another one after it is sent an ENTER packet about it, until it is sent a LEAVE
packet. Over the runs of the event server, the packets about a client alternate, and those that a
client sees are its neighbours, as long as nobody is sent the packet about a client again because
a third one has entered, and no client leaves that still has a neighbour in its view.
-/
namespace R1Emu.Zone
open R1Emu.Lib R1Emu.Lib.Stage R1Emu.Lib.Transition

inductive Visibility
  | enter
  | leave
  deriving DecidableEq

/-- Every packet makes visible what was not, and the reverse. -/
def Alternates : Bool → List Visibility → Prop
  | _, [] => True
  | seen, .enter :: heard => seen = false ∧ Alternates true heard
  | seen, .leave :: heard => seen = true ∧ Alternates false heard

instance decidableAlternates : (seen : Bool) → (heard : List Visibility) →
    Decidable (Alternates seen heard)
  | _, [] => inferInstanceAs (Decidable True)
  | seen, .enter :: heard =>
    have := decidableAlternates true heard
    inferInstanceAs (Decidable (seen = false ∧ Alternates true heard))
  | seen, .leave :: heard =>
    have := decidableAlternates false heard
    inferInstanceAs (Decidable (seen = true ∧ Alternates false heard))

/-- Whether a client is seen after the packets. -/
def view (seen : Bool) (heard : List Visibility) : Bool :=
  heard.foldl (fun _ v => v = .enter) seen

theorem alternates_append (seen : Bool) (heard heard' : List Visibility) :
    Alternates seen (heard ++ heard') ↔
      Alternates seen heard ∧ Alternates (view seen heard) heard' := by
  induction heard generalizing seen with
  | nil => simp [Alternates, view]
  | cons v heard ih =>
    cases v with
    | enter =>
      rw [List.cons_append, Alternates, ih, Alternates, and_assoc]
      rfl
    | leave =>
      rw [List.cons_append, Alternates, ih, Alternates, and_assoc]
      rfl

theorem view_append (seen : Bool) (heard heard' : List Visibility) :
    view seen (heard ++ heard') = view (view seen heard) heard' :=
  List.foldl_append

section Runs

variable {Key : Type} [DecidableEq Key]

def Packet.visibility (commander : Key) : Packet Key → Option Visibility
  | .enterPc pc => if pc = commander then some .enter else none
  | .leave pc => if pc = commander then some .leave else none
  | _ => none

/-- What a multicast tells the client `c` about `p`, once for each time that it is listed. -/
def Multicast.tells (c p : Key) (m : Multicast Key) : List Visibility :=
  match m.packet.visibility p with
  | none => []
  | some v => List.replicate (m.clients.count c) v

/-- The visibility packets about `p` that `c` is sent. -/
def heard (sent : List (Multicast Key)) (c p : Key) : List Visibility :=
  sent.flatMap (Multicast.tells c p)

@[simp] theorem heard_append (sent sent' : List (Multicast Key)) (c p : Key) :
    heard (sent ++ sent') c p = heard sent c p ++ heard sent' c p :=
  List.flatMap_append

@[simp] theorem heard_nil (c p : Key) : heard ([] : List (Multicast Key)) c p = [] := rfl

@[simp] theorem heard_cons (m : Multicast Key) (sent : List (Multicast Key)) (c p : Key) :
    heard (m :: sent) c p = m.tells c p ++ heard sent c p := rfl

theorem tells_enterPc (c p e : Key) (clients : List Key) :
    Multicast.tells c p ⟨.enterPc e, clients⟩ =
      if e = p then List.replicate (clients.count c) .enter else [] := by
  by_cases he : e = p <;> simp [Multicast.tells, Packet.visibility, he]

theorem tells_leave (c p e : Key) (clients : List Key) :
    Multicast.tells c p ⟨.leave e, clients⟩ =
      if e = p then List.replicate (clients.count c) .leave else [] := by
  by_cases he : e = p <;> simp [Multicast.tells, Packet.visibility, he]

theorem heard_silent {new : List (Multicast Key)} (h : ∀ m ∈ new, Silent m) (c p : Key) :
    heard new c p = [] := by
  refine List.flatMap_eq_nil_iff.mpr fun m hm => ?_
  obtain ⟨e, hpacket | hpacket | hpacket⟩ := h m hm <;>
    simp [Multicast.tells, Packet.visibility, hpacket]

/-- An event of a third client sends nothing about `p` to `c`. -/
theorem heard_concerns {emitter c p : Key} {new : List (Multicast Key)}
    (h : ∀ m ∈ new, Concerns emitter m) (hc : c ≠ emitter) (hp : p ≠ emitter) :
    heard new c p = [] := by
  refine List.flatMap_eq_nil_iff.mpr fun m hm => ?_
  rcases h m hm with hpacket | hpacket | hclients
  · simp [Multicast.tells, Packet.visibility, hpacket, Ne.symm hp]
  · simp [Multicast.tells, Packet.visibility, hpacket, Ne.symm hp]
  · unfold Multicast.tells
    rw [hclients, List.count_singleton, if_neg fun hbeq => hc (beq_iff_eq.mp hbeq).symm]
    split <;> rfl

theorem heard_tellings_of_ne {emitter c : Key} (hc : c ≠ emitter) (packet : Key → Packet Key)
    (clients : List Key) (p : Key) : heard (tellings emitter packet clients) c p = [] := by
  refine List.flatMap_eq_nil_iff.mpr fun m hm => ?_
  obtain ⟨client, -, rfl⟩ := List.mem_map.mp hm
  unfold Multicast.tells
  rw [List.count_singleton, if_neg fun hbeq => hc (beq_iff_eq.mp hbeq).symm]
  split <;> rfl

theorem heard_tellings_enterPc (emitter p : Key) (clients : List Key) :
    heard (tellings emitter .enterPc clients) emitter p =
      List.replicate (clients.count p) .enter := by
  induction clients with
  | nil => rfl
  | cons client clients ih =>
    change Multicast.tells emitter p ⟨.enterPc client, [emitter]⟩ ++
      heard (tellings emitter .enterPc clients) emitter p = _
    rw [tells_enterPc, ih, List.count_singleton_self, List.count_cons, Nat.add_comm,
      List.replicate_add]
    congr 1
    by_cases hclient : client = p <;> simp [hclient]

theorem heard_tellings_leave (emitter p : Key) (clients : List Key) :
    heard (tellings emitter .leave clients) emitter p =
      List.replicate (clients.count p) .leave := by
  induction clients with
  | nil => rfl
  | cons client clients ih =>
    change Multicast.tells emitter p ⟨.leave client, [emitter]⟩ ++
      heard (tellings emitter .leave clients) emitter p = _
    rw [tells_leave, ih, List.count_singleton_self, List.count_cons, Nat.add_comm,
      List.replicate_add]
    congr 1
    by_cases hclient : client = p <;> simp [hclient]

/-- The packets about the emitter. -/
theorem heard_enterPackets_about {emitter c : Key} (hc : c ≠ emitter)
    (clients pcEnterList : List Key) :
    heard (enterPackets emitter clients pcEnterList) c emitter =
      if 0 < pcEnterList.length then List.replicate (clients.count c) .enter else [] := by
  rw [enterPackets, heard_append, heard_tellings_of_ne hc, List.append_nil]
  split
  · rw [heard_cons, heard_nil, List.append_nil, tells_enterPc, if_pos rfl]
  · rfl

theorem heard_leavePackets_about {emitter c : Key} (hc : c ≠ emitter) (pcLeaveList : List Key) :
    heard (leavePackets emitter pcLeaveList) c emitter =
      List.replicate (pcLeaveList.count c) .leave := by
  unfold leavePackets
  split
  · rw [heard_cons, heard_tellings_of_ne hc, List.append_nil, tells_leave, if_pos rfl]
  · next hempty =>
    rw [Nat.not_lt, Nat.le_zero, List.length_eq_zero_iff] at hempty
    rw [hempty]
    rfl

/-- The packets for the emitter. -/
theorem heard_enterPackets_for {emitter p : Key} (hp : p ≠ emitter)
    (clients pcEnterList : List Key) :
    heard (enterPackets emitter clients pcEnterList) emitter p =
      List.replicate (pcEnterList.count p) .enter := by
  have hfirst : heard (if 0 < pcEnterList.length then [⟨.enterPc emitter, clients⟩] else [])
      emitter p = [] := by
    split
    · rw [heard_cons, tells_enterPc, if_neg (Ne.symm hp)]
      rfl
    · rfl
  rw [enterPackets, heard_append, hfirst, heard_tellings_enterPc, List.count_filter]
  · rfl
  · exact decide_eq_true hp

theorem heard_leavePackets_for {emitter p : Key} (hp : p ≠ emitter) (pcLeaveList : List Key) :
    heard (leavePackets emitter pcLeaveList) emitter p =
      List.replicate (pcLeaveList.count p) .leave := by
  unfold leavePackets
  split
  · rw [heard_cons, tells_leave, if_neg (Ne.symm hp), heard_tellings_leave]
    rfl
  · next hempty =>
    rw [Nat.not_lt, Nat.le_zero, List.length_eq_zero_iff] at hempty
    rw [hempty]
    rfl

/-- The packets about `p` that `c` has been sent alternate, and `c` sees `p` when they are
neighbours. -/
structure Law (c p : Key) (s : EventServer Key) : Prop where
  linked : Linked s.clientsGraph
  loopless : Loopless s.clientsGraph
  alternates : Alternates false (heard s.sent c p)
  view_eq : view false (heard s.sent c p) = decide (0 < s.clientsGraph.arcCount c p)

/-- One step of the view, with the packets that tell of it. -/
inductive Shows : ℕ → ℕ → List Visibility → Prop
  | same {n n' : ℕ} (h : n' = n) : Shows n n' []
  | enter {n n' : ℕ} (h : n = 0) (h' : 0 < n') : Shows n n' [.enter]
  | leave {n n' : ℕ} (h : 0 < n) (h' : n' = 0) : Shows n n' [.leave]

theorem Law.step {c p : Key} {s s' : EventServer Key} {new : List (Multicast Key)}
    (h : Law c p s) (hlinked : Linked s'.clientsGraph) (hloopless : Loopless s'.clientsGraph)
    (hsent : s'.sent = s.sent ++ new)
    (hshows : Shows (s.clientsGraph.arcCount c p) (s'.clientsGraph.arcCount c p)
      (heard new c p)) : Law c p s' := by
  refine ⟨hlinked, hloopless, ?_, ?_⟩
  · rw [hsent, heard_append, alternates_append, h.view_eq]
    refine ⟨h.alternates, ?_⟩
    generalize heard new c p = l at hshows
    cases hshows with
    | same hn => trivial
    | enter hn hn' => exact ⟨by simp [hn], trivial⟩
    | leave hn hn' => exact ⟨by simp [hn], trivial⟩
  · rw [hsent, heard_append, view_append, h.view_eq]
    generalize heard new c p = l at hshows
    cases hshows with
    | same hn => rw [hn, view, List.foldl_nil]
    | enter hn hn' => simp [view, hn']
    | leave hn hn' => simp [view, hn']

/-- Some client of the list is not a neighbour of the emitter yet. -/
def SomeoneEnters (g : Graph Key) (emitter : Key) (clients : List Key) : Prop :=
  ∃ client ∈ clients, g.arcCount emitter client = 0

theorem Updated.entered_pos {emitter : Key} {clients pcEnterList pcLeaveList : List Key}
    {s s' : EventServer Key} (h : Updated emitter clients s s' pcEnterList pcLeaveList) :
    0 < pcEnterList.length ↔ SomeoneEnters s.clientsGraph emitter clients := by
  rw [List.length_pos_iff_exists_mem]
  constructor
  · rintro ⟨c, hc⟩
    have hcount := h.entered c
    split at hcount
    · next hnew => exact ⟨c, hnew⟩
    · exact absurd hcount (List.count_pos_iff.mpr hc).ne'
  · rintro ⟨c, hc, hnew⟩
    have hcount := h.entered c
    rw [if_pos ⟨hc, hnew⟩] at hcount
    exact ⟨c, List.count_pos_iff.mp (by omega)⟩

/-- What a successful update of `p` shows to `c`. -/
theorem Updated.shows_about {p c : Key} {clients pcEnterList pcLeaveList : List Key}
    {s s' : EventServer Key} (h : Updated p clients s s' pcEnterList pcLeaveList)
    (hs : Linked s.clientsGraph) (hs' : Linked s'.clientsGraph) (hc : c ≠ p)
    (hguard : c ∈ clients → SomeoneEnters s.clientsGraph p clients →
      clients.count c = 1 ∧ s.clientsGraph.arcCount p c = 0) :
    Shows (s.clientsGraph.arcCount c p) (s'.clientsGraph.arcCount c p)
      (heard (enterPackets p clients pcEnterList ++ leavePackets p pcLeaveList) c p) := by
  rw [hs.symm, hs'.symm, h.neighbours, heard_append, heard_enterPackets_about hc,
    heard_leavePackets_about hc, h.left]
  have hsingle := hs.single p c
  by_cases hmem : c ∈ clients
  · rw [if_pos hmem, if_pos hmem, List.replicate_zero, List.append_nil]
    by_cases henters : SomeoneEnters s.clientsGraph p clients
    · obtain ⟨hcount, hnew⟩ := hguard hmem henters
      rw [if_pos (h.entered_pos.mpr henters), hcount]
      exact .enter hnew Nat.one_pos
    · rw [if_neg (h.entered_pos.not.mpr henters)]
      refine .same ?_
      have hold : s.clientsGraph.arcCount p c ≠ 0 := fun hzero => henters ⟨c, hmem, hzero⟩
      omega
  · rw [if_neg hmem, if_neg hmem, List.count_eq_zero_of_not_mem hmem, List.replicate_zero,
      ite_self, List.nil_append]
    by_cases hold : s.clientsGraph.arcCount p c = 0
    · rw [hold]
      exact .same rfl
    · rw [show s.clientsGraph.arcCount p c = 1 by omega]
      exact .leave Nat.one_pos rfl

/-- What a successful update of `c` shows to itself. -/
theorem Updated.shows_for {c p : Key} {clients pcEnterList pcLeaveList : List Key}
    {s s' : EventServer Key} (h : Updated c clients s s' pcEnterList pcLeaveList)
    (hs : Linked s.clientsGraph) (hp : p ≠ c) :
    Shows (s.clientsGraph.arcCount c p) (s'.clientsGraph.arcCount c p)
      (heard (enterPackets c clients pcEnterList ++ leavePackets c pcLeaveList) c p) := by
  rw [h.neighbours, heard_append, heard_enterPackets_for hp, heard_leavePackets_for hp,
    h.entered, h.left]
  have hsingle := hs.single c p
  by_cases hold : s.clientsGraph.arcCount c p = 0
  · by_cases hmem : p ∈ clients
    · simp only [hmem, hold, and_self, if_true]
      exact .enter rfl Nat.one_pos
    · simp only [hmem, hold, false_and, if_false]
      exact .same rfl
  · by_cases hmem : p ∈ clients
    · simp only [hmem, hold, and_false, if_true, if_false]
      exact .same (by omega)
    · rw [show s.clientsGraph.arcCount c p = 1 by omega]
      simp only [hmem, false_and, if_false]
      exact .leave Nat.one_pos rfl

/-- An event that the server processes, with what Redis and the router answer meanwhile. -/
structure ZoneEvent (Key : Type) where
  type : EventType
  emitter : Key
  answers : Answers Key

def zoneEventStep (s : EventServer Key) (event : ZoneEvent Key) : Option (EventServer Key) :=
  ((zoneEventServerProcess event.type event.answers event.emitter).run s).map Prod.snd

/-- The event server, with any events in any order. -/
def zoneEvents : System (EventServer Key) (ZoneEvent Key) :=
  ⟨(· = ⟨graphNew, []⟩), zoneEventStep⟩

/-- Nothing goes wrong for what `c` sees of `p`. An event of either has no failing call, except
for the range query. When `p` moves and someone enters, `c` is not around, or it is listed once
and enters itself. When `c` leaves, `p` is not its neighbour. -/
structure Harmless (c p : Key) (s : EventServer Key) (event : ZoneEvent Key) : Prop where
  succeeds : event.emitter = c ∨ event.emitter = p → event.answers.Succeed
  moves : event.type ≠ .leave → event.emitter = p → ∀ clients,
    (event.answers.ignoring p).clientsWithinRange = some clients → c ∈ clients →
      SomeoneEnters s.clientsGraph p clients →
        clients.count c = 1 ∧ s.clientsGraph.arcCount p c = 0
  leaves : event.type = .leave → event.emitter = c → s.clientsGraph.arcCount c p = 0

theorem law_start (c p : Key) : Law c p ⟨graphNew, []⟩ :=
  ⟨linked_graphNew, fun _ => rfl, trivial, rfl⟩

theorem Moved.loopless {emitter : Key} {g g' : Graph Key} (h : Moved emitter g g')
    (hg : Loopless g) : Loopless g' := by
  intro n
  by_cases hn : n = emitter
  · subst hn
    have hself := h.self
    have hzero := hg n
    omega
  · rw [h.others n n hn hn]
    exact hg n

theorem Law.move {c p : Key} (hne : c ≠ p) {s s' : EventServer Key} {event : ZoneEvent Key}
    {r : Except Bool Bool} (h : Law c p s) (hok : Harmless c p s event)
    (htype : event.type ≠ .leave)
    (hmove : MoveOutcome (event.answers.ignoring event.emitter) event.emitter s r s') :
    Law c p s' := by
  obtain ⟨r₁, s₁, hupdate, hgraph, ⟨new', hsent', hsilent⟩, -⟩ := hmove.update
  have hlinked := hupdate.moved.linked
  have hloopless := hupdate.moved.loopless h.loopless
  obtain ⟨new, hsent, hconcerns⟩ := hupdate.sent
  have hall : s'.sent = s.sent ++ (new ++ new') := by
    rw [hsent', hsent, List.append_assoc]
  have hheard : heard (new ++ new') c p = heard new c p := by
    rw [heard_append, heard_silent hsilent, List.append_nil]
  refine h.step (hgraph ▸ hlinked) (hgraph ▸ hloopless) hall ?_
  rw [hheard, hgraph]
  by_cases hthird : event.emitter = c ∨ event.emitter = p
  · rcases hr : r₁ with b | clients
    · -- the update has failed, so the query has
      rcases (hupdate.status b hr).2 with hquery | hfail
      · rw [hupdate.query_fails hquery] at hsent ⊢
        rw [List.append_cancel_left (hsent.symm.trans (List.append_nil _).symm)]
        exact .same rfl
      · exact absurd (hok.succeeds hthird) hfail
    · obtain ⟨hclients, pcEnterList, pcLeaveList, hupdated⟩ := hupdate.done clients hr
      rw [List.append_cancel_left (hsent.symm.trans hupdated.sent)]
      by_cases hp : event.emitter = p
      · rw [hp] at hupdated hclients ⊢
        exact hupdated.shows_about h.linked hlinked hne
          (hok.moves htype hp clients hclients)
      · have hc : event.emitter = c := hthird.resolve_right hp
        rw [hc] at hupdated ⊢
        exact hupdated.shows_for h.linked hne.symm
  · have hc : c ≠ event.emitter := fun heq => hthird (.inl heq.symm)
    have hp : p ≠ event.emitter := fun heq => hthird (.inr heq.symm)
    rw [heard_concerns hconcerns hc hp]
    exact .same (hupdate.moved.others c p hc hp)

theorem LeaveOutcome.loopless {a : Answers Key} {emitter : Key} {s s' : EventServer Key}
    (h : LeaveOutcome a emitter s s') (hs : Loopless s.clientsGraph) :
    Loopless s'.clientsGraph := by
  intro n
  by_cases hn : n = emitter
  · rw [hn, h.neighbours]
  · rw [h.others n n hn hn]
    exact hs n

theorem Law.leave {c p : Key} (hne : c ≠ p) {s s' : EventServer Key} {event : ZoneEvent Key}
    (h : Law c p s) (hok : Harmless c p s event) (htype : event.type = .leave)
    (hleave : LeaveOutcome event.answers event.emitter s s') : Law c p s' := by
  have hloopless := hleave.loopless h.loopless
  rcases hleave.sent with ⟨hsent, hfail⟩ | hsent
  · have hc : c ≠ event.emitter := fun heq => hfail (hok.succeeds (.inl heq.symm))
    have hp : p ≠ event.emitter := fun heq => hfail (hok.succeeds (.inr heq.symm))
    refine h.step hleave.linked hloopless (hsent.trans (List.append_nil _).symm) ?_
    exact .same (hleave.others c p hc hp)
  · refine h.step hleave.linked hloopless hsent ?_
    rw [heard_cons, heard_nil, List.append_nil, tells_leave]
    by_cases hp : event.emitter = p
    · rw [if_pos hp, hp, List.count_append, List.count_singleton,
        if_neg fun hbeq => hne (beq_iff_eq.mp hbeq).symm, Nat.add_zero, hleave.linked.symm,
        h.linked.symm]
      rw [hp] at hleave
      rw [hleave.neighbours]
      have hsingle := h.linked.single p c
      change Shows _ _ (List.replicate (s.clientsGraph.arcCount p c) .leave)
      by_cases hold : s.clientsGraph.arcCount p c = 0
      · rw [hold]
        exact .same rfl
      · rw [show s.clientsGraph.arcCount p c = 1 by omega]
        exact .leave Nat.one_pos rfl
    · rw [if_neg hp]
      by_cases hc : event.emitter = c
      · rw [hok.leaves htype hc, ← hc, hleave.neighbours]
        exact .same rfl
      · exact .same (hleave.others c p (Ne.symm hc) (Ne.symm hp))

theorem law_inductive {c p : Key} (hne : c ≠ p) :
    Inductive zoneEvents (Harmless c p) (Law c p) where
  init s hs := by
    rw [hs]
    exact law_start c p
  step s event s' h hok hstep := by
    obtain ⟨⟨status, s₂⟩, hrun, rfl⟩ := Option.map_eq_some_iff.mp hstep
    obtain ⟨⟨r, s₃⟩, hstage, heq⟩ := Option.map_eq_some_iff.mp hrun
    cases heq
    by_cases htype : event.type = .leave
    · rw [htype] at hstage
      have hleave :=
        (zoneEventHandlerLeave_ends event.answers event.emitter h.linked h.loopless).sat _ _ hstage
      exact h.leave hne hok htype hleave.1
    · exact h.move hne hok htype ((zoneEventServerProcess_ends htype event.answers event.emitter
        h.linked).sat _ _ hstage)

/-- Over every run whose events do no harm to what `c` sees of `p`, the packets about `p` that
`c` is sent alternate, starting with an ENTER, and `c` sees `p` exactly when they are
neighbours. -/
theorem enter_and_leave_alternate {c p : Key} (hne : c ≠ p) {s : EventServer Key}
    (hs : ReachableUnder zoneEvents (Harmless c p) s) :
    Alternates false (heard s.sent c p) ∧
      (view false (heard s.sent c p) = true ↔ p ∈ s.clientsGraph.neighbours c) := by
  have h := (law_inductive hne).reachable hs
  refine ⟨h.alternates, ?_⟩
  rw [h.view_eq, decide_eq_true_iff]
  exact List.count_pos_iff

end Runs

/-- A client moves, and Redis answers that the clients are around it. -/
def movesTo (emitter : ℕ) (clients : List ℕ) : ZoneEvent ℕ :=
  ⟨.commanderMove, emitter, some clients, fun _ _ => true, fun _ _ => true⟩

/-- A client comes near another one, and goes away. -/
theorem enter_and_leave_alternate_for_two :
    ∃ s, zoneEvents.run ⟨graphNew, []⟩ [movesTo 1 [2], movesTo 1 []] = some s ∧
      heard s.sent 2 1 = [.enter, .leave] ∧ Alternates false (heard s.sent 2 1) := by
  have hstart : ReachableUnder zoneEvents (Harmless 2 1) (⟨graphNew, []⟩ : EventServer ℕ) :=
    .init rfl
  have hrun : (zoneEvents.run (⟨graphNew, []⟩ : EventServer ℕ)
      [movesTo 1 [2], movesTo 1 []]).isSome := by decide
  refine ⟨_, (Option.some_get hrun).symm, by decide +revert, (enter_and_leave_alternate
    (by decide)
    (hstart.run [movesTo 1 [2], movesTo 1 []] ?_ (Option.some_get hrun).symm)).1⟩
  refine ⟨⟨fun _ => ⟨fun _ _ => rfl, fun _ _ => rfl⟩, ?_, by simp [movesTo]⟩, fun s _ =>
    ⟨⟨fun _ => ⟨fun _ _ => rfl, fun _ _ => rfl⟩, ?_, by simp [movesTo]⟩, fun _ _ => trivial⟩⟩
  · rintro - - clients hclients - -
    cases hclients
    exact ⟨rfl, rfl⟩
  · rintro - - clients hclients hmem
    cases hclients
    exact absurd hmem List.not_mem_nil

/-- A client is near another one when a third one comes near: the second is sent its ENTER
again. And a client that leaves is not told of its neighbour. -/
theorem enter_is_sent_again :
    (∃ s : EventServer ℕ, Reachable zoneEvents s ∧ heard s.sent 2 1 = [.enter, .enter] ∧
      ¬ Alternates false (heard s.sent 2 1)) ∧
    ∃ s : EventServer ℕ, Reachable zoneEvents s ∧ view false (heard s.sent 1 2) = true ∧
      s.clientsGraph.neighbours 1 = [] := by
  have hagain : (zoneEvents.run (⟨graphNew, []⟩ : EventServer ℕ)
      [movesTo 1 [2], movesTo 1 [2, 3]]).isSome := by decide
  have hleft : (zoneEvents.run (⟨graphNew, []⟩ : EventServer ℕ) [movesTo 1 [2],
      ⟨.leave, 1, none, fun _ _ => true, fun _ _ => true⟩]).isSome := by decide
  exact ⟨⟨_, .run (.init rfl) _ (Option.some_get hagain).symm, by decide +revert,
      by decide +revert⟩,
    ⟨_, .run (.init rfl) _ (Option.some_get hleft).symm, by decide +revert, by decide +revert⟩⟩

end R1Emu.Zone
