import R1Emu.Handler.CommanderSlots

/-!
# The window behind a login

A login that is accepted leaves the session a number of slots and an array that nobody has set, and
the commanders are loaded only when the barrack is started. Outside of that window a session counts
no slots or has its array, so that an index in range finds one.
-/
namespace R1Emu.Handler
open R1Emu.Actor R1Emu.Game R1Emu.Lib R1Emu.Lib.Stage R1Emu.Lib.Transition R1Emu.Lib.Bytes
  R1Emu.Server
open R1Emu.Packet hiding bind_ok
open R1Emu.Commander (eqSlotCount)

variable {Key : Type}

/-- The session counts no slots, or it has its array. -/
def Backed (game : GameSession) (h : Heap Key) : Prop :=
  game.accountSession.commandersCountMax = 0 ∨ Allocated game h

/-- The arrays are still there, as long as they were. -/
def Grown (h h' : Heap Key) : Prop := h.arrays.map List.length <+: h'.arrays.map List.length

theorem grown_of_arrays {h h' : Heap Key} (harrays : h.arrays <+: h'.arrays) : Grown h h' :=
  harrays.map List.length

theorem Allocated.grown {game : GameSession} {h h' : Heap Key} (hallocated : Allocated game h)
    (hgrown : Grown h h') : Allocated game h' := by
  obtain ⟨a, slots, ha, hslots, hcount⟩ := hallocated
  obtain ⟨rest, hrest⟩ := hgrown
  have hlength : (h.arrays.map List.length)[a]? = some slots.length := by
    rw [List.getElem?_map, hslots, Option.map_some]
  have hstill : (h'.arrays.map List.length)[a]? = some slots.length := by
    rw [← hrest, List.getElem?_append_left (List.getElem?_eq_some_iff.mp hlength).1, hlength]
  rw [List.getElem?_map] at hstill
  obtain ⟨slots', hslots', hsame⟩ := Option.map_eq_some_iff.mp hstill
  exact ⟨a, slots', ha, hslots', hsame ▸ hcount⟩

theorem Backed.grown {game : GameSession} {h h' : Heap Key} (hbacked : Backed game h)
    (hgrown : Grown h h') : Backed game h' :=
  hbacked.imp_right fun hallocated => hallocated.grown hgrown

/-- A session with the same array, whatever else is in it. -/
theorem Backed.same_array {game game' : GameSession} {h : Heap Key} (hbacked : Backed game h)
    (hcount : game'.accountSession.commandersCountMax = game.accountSession.commandersCountMax)
    (hcommanders : game'.accountSession.commanders = game.accountSession.commanders) :
    Backed game' h := by
  rw [Backed, Allocated, hcount, hcommanders]
  exact hbacked

/-- An index in range finds the array of such a session. -/
theorem Backed.allocated {game : GameSession} {h : Heap Key} (hbacked : Backed game h)
    {commanderIndex : UInt8} (hrange : InRange game commanderIndex) : Allocated game h := by
  refine hbacked.resolve_left fun hzero => ?_
  have hbounds := hrange.1.trans hrange.2
  rw [hzero] at hbounds
  exact absurd hbounds (by decide)

/-- The session is the client's, no array is lost, and the session has its own unless it is in the
window. -/
structure Fit (h₀ : Heap Key) (sessionKey : Chars 11) (outside : Prop) (w : World Key) : Prop where
  key : w.session.socket.sessionKey = sessionKey
  grown : Grown h₀ w.heap
  backed : outside → Backed w.session.game w.heap

section Fit
variable {h₀ : Heap Key} {sessionKey : Chars 11} {outside : Prop} {w w' : World Key}

theorem Fit.steady (hw : Fit h₀ sessionKey outside w) (h : Steady w w') :
    Fit h₀ sessionKey outside w' where
  key := h.key.trans hw.key
  grown := hw.grown.trans (grown_of_arrays h.arrays)
  backed hout := h.game ▸ (hw.backed hout).grown (grown_of_arrays h.arrays)

theorem fit_of_steady {α : Type} {m : Handling Key α} (hm : ∀ w, Preserves (Steady w) m) :
    Preserves (Fit h₀ sessionKey outside) m := fun w hw =>
  (hm w w (.refl w)).mono fun _ _ h => hw.steady h

theorem fit_of_untouched {α : Type} {m : Handling Key α}
    (hm : ∀ w, Preserves (World.Untouched w) m) : Preserves (Fit h₀ sessionKey outside) m :=
  fit_of_steady fun _ => steady_of_untouched hm

theorem fit_send (r : Reply Key) : Preserves (Fit h₀ sessionKey outside) (send r) :=
  fit_of_steady fun _ => steady_send r

theorem fit_perform (env : Env Key) (write : Write) :
    Preserves (Fit h₀ sessionKey outside) (perform env write) :=
  fit_of_steady fun _ => steady_perform env write

theorem fit_updateSession {f : Session → Session}
    (hbacked : outside → ∀ s (h : Heap Key), Backed s.game h → Backed (f s).game h := by
      exact fun _ _ _ h => h.same_array rfl rfl)
    (hkey : ∀ s, (f s).socket.sessionKey = s.socket.sessionKey := by exact fun _ => rfl) :
    Preserves (Fit h₀ sessionKey outside) (updateSession f : Handling Key Unit) :=
  preserves_act fun w hw => ⟨(hkey w.session).trans hw.key, hw.grown,
    fun hout => hbacked hout w.session w.heap (hw.backed hout)⟩

/-- A heap with arrays of the same lengths. -/
theorem Fit.heap (hw : Fit h₀ sessionKey outside w) {h : Heap Key} (hgrown : Grown w.heap h) :
    Fit h₀ sessionKey outside { w with heap := h } where
  key := hw.key
  grown := hw.grown.trans hgrown
  backed hout := (hw.backed hout).grown hgrown

theorem fit_setCommander (p : CommanderPtr) (c : Option (Commander Key)) :
    Preserves (Fit h₀ sessionKey outside) (setCommander p c) :=
  preserves_act fun _ hw => hw.heap List.prefix_rfl

theorem grown_setArray {h : Heap Key} {a : CommandersPtr} {slots : List (Option CommanderPtr)}
    (hslots : h.arrays[a]? = some slots) (i : ℕ) (p : Option CommanderPtr) :
    Grown h (h.setArray a (slots.set i p)) := by
  obtain ⟨ha, hget⟩ := List.getElem?_eq_some_iff.mp hslots
  have hsame : (h.setArray a (slots.set i p)).arrays.map List.length =
      h.arrays.map List.length := by
    rw [Heap.setArray, List.map_set, List.length_set, ← hget, ← List.getElem_map (f := List.length),
      List.set_getElem_self]
    rwa [List.length_map]
  rw [Grown, hsame]

theorem fit_setCommanderSlot (commanders : Option CommandersPtr) (i : ℕ)
    (p : Option CommanderPtr) :
    Preserves (Fit h₀ sessionKey outside) (setCommanderSlot commanders i p : Handling Key Unit) := by
  intro w hw
  rw [sat_setCommanderSlot]
  intro a _ slots hslots _
  exact hw.heap (grown_setArray hslots i p)

theorem fit_destroySlot (commanders : Option CommandersPtr) (i : ℕ) :
    Preserves (Fit h₀ sessionKey outside) (destroySlot commanders i : Handling Key Unit) := by
  apply (fit_of_untouched fun _ => preserves_commanderSlot commanders i).bind
  intro slot
  cases slot with
  | none => exact preserves_pure _
  | some p => exact (fit_setCommander p none).bind fun _ => fit_setCommanderSlot _ _ _

/-! ### The handlers of the barrack -/

theorem fit_redisUpdateSession (env : Env Key) (session : Session) :
    Preserves (Fit h₀ sessionKey outside) (redisUpdateSession env session) :=
  fit_of_steady fun _ => steady_redisUpdateSession env session

theorem fit_commanderAt (p : Option CommanderPtr) :
    Preserves (Fit h₀ sessionKey outside) (commanderAt p : Handling Key (Commander Key)) :=
  fit_of_steady fun _ => steady_commanderAt p

/-- A login that is accepted opens the window. -/
theorem barrackHandlerLogin_opens (env : Env Key) (packet packetSize : ℕ) (hinside : ¬ outside) :
    Preserves (Fit h₀ sessionKey outside) (barrackHandlerLogin env packet packetSize) := by
  apply (preserves_require _ _).bind
  intro _
  refine (preserves_gets _).bind fun accountName => (preserves_gets _).bind fun md5Password =>
    Preserves.bind (fun w hw => ?_) fun data => ?_
  · exact (mySqlGetAccountData_sat env _ _ _ w).mono fun _ _ h => h.1 ▸ hw
  rcases data with _ | ⟨_ | _, accountSession⟩
  · exact preserves_pure _
  · exact (fit_send _).bind fun _ => preserves_pure _
  · refine .ite ((fit_send _).bind fun _ => preserves_pure _) ?_
    apply Preserves.bind (fit_updateSession (by exact fun hout => absurd hout hinside))
    exact fun _ => (fit_send _).bind fun _ => preserves_pure _

theorem barrackHandlerLogin_fit {env : Env Key} {packet packetSize : ℕ}
    (hw : Fit h₀ sessionKey outside w)
    (hlogin : outside → ¬ Replaces env .cbLogin packet packetSize w) :
    (barrackHandlerLogin env packet packetSize).Sat w fun _ => Fit h₀ sessionKey outside := by
  by_cases hout : outside
  · exact (barrackHandlerLogin_steady (hlogin hout)).mono fun _ _ h => hw.steady h
  · exact barrackHandlerLogin_opens env packet packetSize hout w hw

/-- A passport counts no slots. -/
theorem barrackHandlerLoginByPassport_fit (env : Env Key) (packet packetSize : ℕ) :
    Preserves (Fit h₀ sessionKey outside) (barrackHandlerLoginByPassport env packet packetSize) := by
  apply (preserves_require _ _).bind
  intro _
  apply Preserves.bind fit_updateSession
  intro _
  apply (fit_of_untouched preserves_r1emuGenerateRandom64).bind
  intro accountId
  apply Preserves.bind fit_updateSession
  intro _
  apply Preserves.bind (fit_updateSession (by exact fun _ _ _ _ => .inl rfl))
  intro _
  apply Preserves.bind fit_updateSession
  exact fun _ => (fit_send _).bind fun _ => preserves_pure _

theorem barrackHandlerCurrentBarrack_fit (env : Env Key) (packet packetSize : ℕ) :
    Preserves (Fit h₀ sessionKey outside) (barrackHandlerCurrentBarrack env packet packetSize) :=
  (fit_send _).bind fun _ => (fit_send _).bind fun _ => preserves_pure _

theorem barrackHandlerLogout_fit (env : Env Key) (packet packetSize : ℕ) :
    Preserves (Fit h₀ sessionKey outside) (barrackHandlerLogout env packet packetSize) :=
  (fit_send _).bind fun _ => preserves_pure _

theorem fit_changeBarrackName (env : Env Key) (packet : ℕ) :
    Preserves (Fit h₀ sessionKey outside) (changeBarrackName env packet) := by
  apply (preserves_gets _).bind
  intro barrackName
  refine .ite (preserves_pure _) (.ite (preserves_pure _) ?_)
  apply (preserves_gets _).bind
  intro accountSession
  refine (preserves_gets _).bind fun bytes => .ite (preserves_pure _) ?_
  apply (fit_of_steady fun _ => steady_mySqlSetFamilyName env _ _).bind
  refine fun answer => .ite (preserves_pure _) ?_
  apply Preserves.bind fit_updateSession
  exact fun _ => preserves_pure _

theorem barrackHandlerBarrackNameChange_fit (env : Env Key) (packet packetSize : ℕ) :
    Preserves (Fit h₀ sessionKey outside) (barrackHandlerBarrackNameChange env packet packetSize) := by
  apply (preserves_require _ _).bind
  intro _
  apply (fit_changeBarrackName env packet).bind
  exact fun change => (preserves_gets _).bind fun _ => (fit_send _).bind fun _ =>
    .ite (preserves_pure _) (preserves_pure _)

theorem barrackHandlerCommanderMove_fit (env : Env Key) (packet packetSize : ℕ) :
    Preserves (Fit h₀ sessionKey outside) (barrackHandlerCommanderMove env packet packetSize) := by
  refine (preserves_require _ _).bind fun _ => (preserves_gets _).bind fun commanderIndex =>
    Preserves.bind ?_ fun position => (preserves_gets _).bind fun session => ?_
  · exact (preserves_gets _).bind fun _ => (preserves_gets _).bind fun _ =>
      (preserves_gets _).bind fun _ => preserves_pure _
  apply Preserves.bind (.ite (preserves_pure _)
    (fit_of_untouched fun _ => preserves_commanderSlot _ _))
  intro commander
  cases commander with
  | none => exact preserves_pure _
  | some commander =>
    apply Preserves.bind fit_updateSession
    exact fun _ => (fit_commanderAt _).bind fun c => (fit_setCommander _ _).bind fun _ =>
      (fit_send _).bind fun _ => preserves_pure _

theorem barrackHandlerCommanderDestroy_fit (env : Env Key) (packet packetSize : ℕ) :
    Preserves (Fit h₀ sessionKey outside) (barrackHandlerCommanderDestroy env packet packetSize) := by
  refine (preserves_require _ _).bind fun _ => (preserves_gets _).bind fun commanderIndex =>
    (preserves_gets _).bind fun commanders => ?_
  apply (fit_of_untouched fun _ => preserves_commanderSlot _ _).bind
  intro slot
  cases slot with
  | none => exact preserves_pure _
  | some commanderToDelete =>
    refine (fit_commanderAt _).bind fun c => Preserves.bind ?_ fun deleted =>
      .ite ?_ ((fit_send _).bind fun _ => preserves_pure _)
    · exact (fit_perform env _).bind fun _ => preserves_pure _
    · apply Preserves.bind fit_updateSession
      exact fun _ => (fit_destroySlot _ _).bind fun _ => (fit_send _).bind fun _ =>
        preserves_pure _

theorem barrackHandlerCommanderCreate_fit (env : Env Key) (packet packetSize : ℕ) :
    Preserves (Fit h₀ sessionKey outside) (barrackHandlerCommanderCreate env packet packetSize) := by
  refine (preserves_require _ _).bind fun _ => (preserves_gets _).bind fun commanderIndex =>
    (preserves_gets _).bind fun accountSession => Preserves.bind ?_ fun empty => ?_
  · exact .ite (preserves_pure _) ((fit_of_untouched fun _ => preserves_commanderSlot _ _).bind
      fun _ => preserves_pure _)
  apply (preserves_require _ _).bind
  intro _
  apply (fit_of_untouched fun _ => preserves_newCommander env _ packet).bind
  rintro (msgType | commander)
  · exact (fit_send _).bind fun _ => preserves_pure _
  apply (fit_of_steady fun _ => steady_mySqlCommanderInsert env commander).bind
  rintro (_ | commanderId)
  · exact preserves_pure _
  apply (fit_of_untouched fun w₀ => preserves_commanderDup env w₀ (preserves_pure _)).bind
  rintro (_ | dupCommander)
  · exact preserves_pure _
  · exact (fit_setCommanderSlot _ _ _).bind fun _ => (fit_send _).bind fun _ => preserves_pure _

theorem startGameMove_fit (env : Env Key) (tmpSession : Session) (routerId : UInt16)
    (zoneServer : List UInt8 × ℕ) (commanderIndex : UInt8) :
    Preserves (Fit h₀ sessionKey outside)
      (startGameMove env tmpSession routerId zoneServer commanderIndex) := by
  refine Preserves.bind ?_ fun moved => (preserves_require _ _).bind fun _ => ?_
  · exact (fit_perform env _).bind fun _ => preserves_pure _
  · apply Preserves.bind fit_updateSession
    exact fun _ => (fit_commanderAt _).bind fun _ => (fit_send _).bind fun _ => preserves_pure _

theorem barrackHandlerStartGame_fit (env : Env Key) (packet packetSize : ℕ) :
    Preserves (Fit h₀ sessionKey outside) (barrackHandlerStartGame env packet packetSize) := by
  refine (preserves_require _ _).bind fun _ => (preserves_gets _).bind fun routerId =>
    (preserves_gets _).bind fun commanderIndex => (preserves_gets _).bind fun session => ?_
  apply (fit_of_untouched fun _ => preserves_commanderSlot _ _).bind
  intro commander
  apply (preserves_require _ _).bind
  intro _
  cases zoneServers[routerId.toNat]? with
  | none => exact preserves_pure _
  | some zoneServer =>
    exact (fit_redisUpdateSession env _).bind fun saved => (preserves_require _ _).bind fun _ =>
      startGameMove_fit env _ _ _ _

theorem fit_mySqlGetCommanders (env : Env Key) (familyName : Chars 64)
    (commanders : Option CommandersPtr) (rows : List (UInt64 × CommanderRow)) (i : ℕ) :
    Preserves (Fit h₀ sessionKey outside)
      (mySqlGetCommanders env familyName commanders rows i) := by
  induction rows generalizing i with
  | nil => exact preserves_pure _
  | cons row rows ih =>
    apply (fit_of_untouched fun _ => preserves_commanderSlot _ _).bind
    intro slot
    refine (preserves_found _).bind fun p => (fit_commanderAt _).bind fun _ => ?_
    apply (fit_of_untouched fun _ => preserves_equipSlots
      (fun _ => preserves_itemFactoryCreateEquipable env _ 1 _) _ _).bind
    exact fun equippedItems => (fit_setCommander _ _).bind fun _ => ih (i + 1)

end Fit

/-! ### The barrack is started -/

section Start
variable {env : Env Key} {w : World Key} {packet packetSize : ℕ}

/-- The commanders of an account, when they are given an array, have all its slots. -/
theorem accountSessionCommandersInit_allocated (env : Env Key) (accountSession : AccountSession)
    (commandersCount : ℕ) (game : GameSession) (w : World Key) :
    (accountSessionCommandersInit env accountSession accountSession.commandersCountMax
      commandersCount).Sat w fun r w' => ∀ loaded, r = .ok (some loaded) →
        Allocated { game with accountSession := loaded } w'.heap := by
  simp only [accountSessionCommandersInit, sat_bind, sat_allocate, then_ok, sat_ite]
  refine ⟨fun _ => ?_, fun _ => ⟨fun _ => by simp, fun _ => sat_fault _ _⟩⟩
  simp only [sat_bind, sat_onHeap, then_ok, Heap.newArray]
  refine (fillSlots_sat env 0 commandersCount List.getElem?_concat_length).mono ?_
  rintro _ w' ⟨⟨slots, hslots, hlength⟩, filled, rfl, -⟩
  rw [then_ok]
  cases filled with
  | true =>
    rw [if_pos rfl, sat_pure]
    rintro _ ⟨⟩
    refine ⟨_, slots, rfl, hslots, ?_⟩
    rw [hlength, List.length_replicate]
  | false =>
    rw [if_neg Bool.false_ne_true, sat_bind]
    refine (destroySlots_sat 0 commandersCount hslots).mono ?_
    rintro _ _ ⟨rfl, -⟩
    simp

/-- What is loaded has its array. -/
theorem mySqlLoadAccountCommanders_allocated (env : Env Key) (accountSession : AccountSession)
    (accountId : UInt64) (game : GameSession) (w : World Key) :
    (mySqlLoadAccountCommanders env accountSession accountId).Sat w fun r w' =>
      ∀ loaded, r = .ok (some loaded) →
        Allocated { game with accountSession := loaded.1 } w'.heap := by
  simp only [mySqlLoadAccountCommanders, mySqlRequestCommandersByAccountId, sat_bind, sat_gets,
    then_ok]
  rcases env.selectCommanders w.writes accountId with _ | _ | rows
  · simp
  · exact sat_fault _ _
  rw [sat_pure, then_ok, sat_bind]
  have hinit := accountSessionCommandersInit_allocated env
    { accountSession with commandersCountMax := 5 } rows.length game w
  refine hinit.mono fun r w₁ hallocated => ?_
  rcases r with state | _ | loaded
  · simp
  · simp
  rw [then_ok, sat_bind]
  have hget := @fit_mySqlGetCommanders _ _ _ False env loaded.familyName loaded.commanders rows 0
    w₁ ⟨rfl, List.prefix_rfl, False.elim⟩
  refine hget.mono fun r w₂ hfit => ?_
  cases r with
  | error state => simp
  | ok _ =>
    rw [then_ok, sat_pure]
    rintro _ ⟨⟩
    exact (hallocated loaded rfl).grown hfit.grown

/-- What a request leaves: no array is lost, the session keeps its own outside of the window, and it
has one when the commanders are loaded. -/
structure Processed (h₀ : Heap Key) (sessionKey : Chars 11) (outside loads : Prop)
    (state : PacketHandlerState) (w : World Key) : Prop where
  fit : Fit h₀ sessionKey outside w
  loaded : loads → state = .updateSession ∧ Backed w.session.game w.heap

variable {h₀ : Heap Key} {sessionKey : Chars 11} {outside : Prop}

theorem barrackHandlerStartBarrack_processed (hw : Fit h₀ sessionKey outside w) :
    (barrackHandlerStartBarrack env packet packetSize).Sat w fun r =>
      Processed h₀ sessionKey outside (¬ LoadFails env w w.session.socket.accountId)
        (value r) := by
  rw [barrackHandlerStartBarrack, sat_bind, sat_gets, then_ok, sat_bind]
  intro r w' hrun
  have huntouched := preserves_mySqlLoadAccountCommanders env w.session.game.accountSession
    w.session.socket.accountId w (.refl w) r w' hrun
  have hallocated := mySqlLoadAccountCommanders_allocated env w.session.game.accountSession
    w.session.socket.accountId w.session.game w r w' hrun
  obtain ⟨loaded, rfl, hfails⟩ := mySqlLoadAccountCommanders_sat env _ _ w r w' hrun
  have hw' : Fit h₀ sessionKey outside w' := hw.steady ((Steady.refl w).untouched huntouched)
  rw [then_ok]
  cases loaded with
  | none => exact (sat_pure _ _ _).mpr ⟨hw', fun hloads => absurd (hfails rfl) hloads⟩
  | some loaded =>
    have hbacked : Backed { w'.session.game with accountSession := loaded.1 } w'.heap := by
      rw [huntouched.session]
      exact .inr (hallocated loaded rfl)
    simp only [sat_bind, sat_updateSession, sat_gets, sat_send, then_ok, sat_pure]
    exact ⟨⟨hw'.key, hw'.grown, fun _ => hbacked⟩, fun _ => ⟨rfl, hbacked⟩⟩

theorem barrackHandlerCheckClientIntegrity_processed (hw : Fit h₀ sessionKey outside w) :
    (barrackHandlerCheckClientIntegrity env packet packetSize).Sat w fun r =>
      Processed h₀ sessionKey outside (¬ LoadFails env w w.session.socket.accountId)
        (value r) := by
  rw [barrackHandlerCheckClientIntegrity, sat_bind, sat_send, then_ok, sat_bind, sat_callHandler]
  have hsent := hw.steady ((Steady.refl w).reply (w.reply ++ [.memory integrityPacket]))
  refine (barrackHandlerStartBarrack_processed hsent).mono fun r w' h => ?_
  have hfit : Fit h₀ sessionKey outside { w' with called := w'.called ++ [value r] } :=
    ⟨h.fit.key, h.fit.grown, h.fit.backed⟩
  rw [then_ok, sat_bind, sat_require]
  constructor
  · intro _
    exact (sat_pure _ _ _).mpr ⟨hfit, fun hloads => ⟨rfl, (h.loaded hloads).2⟩⟩
  · intro hzero
    refine ⟨hfit, fun hloads => ?_⟩
    rw [(h.loaded hloads).1] at hzero
    exact absurd hzero (by decide)

end Start

/-- The request loads the commanders. -/
def Loads (env : Env Key) (type : PacketType) (w : World Key) : Prop :=
  startsBarrack type = true ∧ ¬ LoadFails env w w.session.socket.accountId

section Requests
variable {env : Env Key} {type : PacketType} {h₀ : Heap Key} {sessionKey : Chars 11}
  {outside : Prop} {w : World Key} {packet packetSize : ℕ}

theorem processed_of_fit {m : Handling Key PacketHandlerState} (hstarts : startsBarrack type = false)
    (hm : m.Sat w fun _ => Fit h₀ sessionKey outside) :
    m.Sat w fun r => Processed h₀ sessionKey outside (Loads env type w) (value r) :=
  hm.mono fun _ _ hfit => ⟨hfit, fun hloads => absurd (hstarts.symm.trans hloads.1)
    Bool.false_ne_true⟩

theorem barrackHandlers_processed {handler : Handler Key}
    (hhandler : barrackHandlers.lookup type = some handler) (hw : Fit h₀ sessionKey outside w)
    (hlogin : outside → type = .cbLogin → ¬ Replaces env .cbLogin packet packetSize w) :
    (handler env packet packetSize).Sat w fun r =>
      Processed h₀ sessionKey outside (Loads env type w) (value r) := by
  cases type <;> cases hhandler
  case cbLogin =>
    exact processed_of_fit rfl (barrackHandlerLogin_fit hw fun hout => hlogin hout rfl)
  case cbStartBarrack =>
    exact (barrackHandlerStartBarrack_processed hw).mono fun _ _ h =>
      ⟨h.fit, fun hloads => h.loaded hloads.2⟩
  case cbCheckClientIntegrity =>
    exact (barrackHandlerCheckClientIntegrity_processed hw).mono fun _ _ h =>
      ⟨h.fit, fun hloads => h.loaded hloads.2⟩
  case cbLoginByPassport =>
    exact processed_of_fit rfl (barrackHandlerLoginByPassport_fit env packet packetSize w hw)
  case cbCurrentBarrack =>
    exact processed_of_fit rfl (barrackHandlerCurrentBarrack_fit env packet packetSize w hw)
  case cbBarracknameChange =>
    exact processed_of_fit rfl (barrackHandlerBarrackNameChange_fit env packet packetSize w hw)
  case cbCommanderCreate =>
    exact processed_of_fit rfl (barrackHandlerCommanderCreate_fit env packet packetSize w hw)
  case cbCommanderDestroy =>
    exact processed_of_fit rfl (barrackHandlerCommanderDestroy_fit env packet packetSize w hw)
  case cbCommanderMove =>
    exact processed_of_fit rfl (barrackHandlerCommanderMove_fit env packet packetSize w hw)
  case cbStartGame =>
    exact processed_of_fit rfl (barrackHandlerStartGame_fit env packet packetSize w hw)
  case cbLogout => exact processed_of_fit rfl (barrackHandlerLogout_fit env packet packetSize w hw)

/-- Saving the session takes nothing away. -/
theorem processOneRequest_processed {handler : Handler Key} {loads : Prop}
    (hhandler : (handler env packet packetSize).Sat w fun r =>
      Processed h₀ sessionKey outside loads (value r)) :
    (processOneRequest env handler packet packetSize).Sat w fun r =>
      Processed h₀ sessionKey outside loads (value r) := by
  rw [processOneRequest, sat_bind, sat_call]
  refine hhandler.mono fun r w' h => ?_
  rw [then_ok]
  cases hstate : value r with
  | error => exact (sat_pure _ _ _).mpr (hstate ▸ h)
  | ok => exact (sat_pure _ _ _).mpr (hstate ▸ h)
  | updateSession =>
    rw [sat_bind, sat_gets, then_ok, sat_bind]
    intro saved w'' hrun
    have hsaved := steady_redisUpdateSession env _ w' (.refl w') _ _ hrun
    obtain ⟨saved, rfl⟩ := stays_redisUpdateSession env _ w' _ _ hrun
    refine (sat_pure _ _ _).mpr ⟨h.fit.steady hsaved, fun hloads => ⟨rfl, ?_⟩⟩
    rw [hsaved.game]
    exact (h.loaded hloads).2.grown (grown_of_arrays hsaved.arrays)
  | deleteSession => exact sat_fault w' _

end Requests

/-! ### Runs -/

/-- The request is the client's, to the barrack. -/
structure Own (barrack : UInt16) (sessionKey : Chars 11) (request : ClientRequest) : Prop where
  routerId : request.routerId = barrack
  sessionKey : request.sessionKey = sessionKey

/-- The sessions that a client has in the barrack are its own, and have their arrays. -/
def ClientFit (barrack : UInt16) (sessionKey : Chars 11) (outside : Prop) (s : Realm Key) : Prop :=
  ∀ session, s.sessions barrack sessionKey = some session ∨
      s.left barrack sessionKey = some session →
    session.socket.sessionKey = sessionKey ∧ (outside → Backed session.game (s.heap barrack))

section Runs
variable {barrack : UInt16} {sessionKey : Chars 11} {outside : Prop} {s s' : Realm Key}
  {beyond : ℕ → UInt8} {request : ClientRequest}

theorem ClientFit.world (h : ClientFit barrack sessionKey outside s) (beyond : ℕ → UInt8)
    (hown : Own barrack sessionKey request) :
    Fit (s.heap barrack) sessionKey outside (s.world beyond request) := by
  obtain ⟨rfl, rfl⟩ := hown
  obtain ⟨hkey, hbacked⟩ := s.session_of_client (Q := fun session =>
    session.socket.sessionKey = request.sessionKey ∧
      (outside → Backed session.game (s.heap request.routerId))) beyond request
        ⟨rfl, fun _ => .inl rfl⟩ h
  exact ⟨hkey, List.prefix_rfl, hbacked⟩

/-- A request that is processed leaves the client's sessions with their arrays, and gives them one
when it loads the commanders. -/
theorem clientFit_processed {loads : Prop} {state : PacketHandlerState} {w : World Key}
    (hfit : Fit (s.heap request.routerId) request.sessionKey outside (s.world beyond request))
    (h : Processed (s.heap request.routerId) request.sessionKey outside loads state w) :
    ClientFit request.routerId request.sessionKey (outside ∨ loads)
      ((s.store request.routerId request.sessionKey (s.session beyond request)).processed request
        state w) := by
  have hleft : outside ∨ loads → Backed w.session.game w.heap := by
    rintro (hout | hloads)
    · exact h.fit.backed hout
    · exact (h.loaded hloads).2
  have hgiven (hstate : state ≠ .updateSession) :
      outside ∨ loads → Backed (s.session beyond request).game w.heap := by
    rintro (hout | hloads)
    · exact (hfit.backed hout).grown h.fit.grown
    · exact absurd (h.loaded hloads).1 hstate
  exact processed_of_client (Q := fun session heap =>
    session.socket.sessionKey = request.sessionKey ∧
      (outside ∨ loads → Backed session.game heap)) h.fit.key ⟨h.fit.key, hleft⟩
        fun hstate => ⟨hfit.key, hgiven hstate⟩

variable [DecidableEq Key] {env : Env Key}

/-- A login of the client that is accepted. -/
def Accepted (env : Env Key) (barrack : UInt16) (beyond : ℕ → UInt8) (s : Realm Key)
    (request : ClientRequest) : Prop :=
  request.type = .cbLogin ∧ Replaces (env.withRedis barrack) .cbLogin request.packet
    request.packetSize (s.world beyond request)

/-- A request that loads the client's commanders. -/
def LoadsCommanders (env : Env Key) (barrack : UInt16) (beyond : ℕ → UInt8) (s : Realm Key)
    (request : ClientRequest) : Prop :=
  Loads (env.withRedis barrack) request.type (s.world beyond request)

theorem realmStep_clientFit (h : ClientFit barrack sessionKey outside s)
    (hown : Own barrack sessionKey request)
    (hlogin : outside → ¬ Accepted env barrack beyond s request)
    (hstep : realmStep env barrack beyond s request = some s') :
    ClientFit barrack sessionKey (outside ∨ LoadsCommanders env barrack beyond s request) s' := by
  have hworld := h.world beyond hown
  obtain ⟨rfl, rfl⟩ := hown
  unfold realmStep at hstep
  rw [packetHandlers, if_pos rfl] at hstep
  cases hhandler : (barrackHandlers.lookup request.type : Option (Handler Key)) with
  | none =>
    rw [hhandler] at hstep
    cases hstep
    refine clientFit_processed hworld ⟨hworld, fun hloads => ?_⟩
    have hstarts := hloads.1
    cases htype : request.type <;> rw [htype] at hhandler hstarts <;> cases hhandler <;>
      exact absurd hstarts Bool.false_ne_true
  | some handler =>
    rw [hhandler] at hstep
    obtain ⟨⟨state, w⟩, hrun, hstep⟩ := Option.bind_eq_some_iff.mp hstep
    cases hstep
    have hprocessed := processOneRequest_processed (barrackHandlers_processed hhandler hworld
      fun hout htype hreplaces => hlogin hout ⟨htype, hreplaces⟩)
    exact clientFit_processed hworld ((sat_iff_run _ _ _).mp hprocessed _ _ hrun)

theorem clientFit_inductive : Inductive (realm env barrack beyond)
    (fun _ => Own barrack sessionKey) (ClientFit barrack sessionKey False) where
  init s hs := by
    obtain ⟨heap, rfl⟩ := hs
    rintro session (hsession | hsession) <;> cases hsession
  step _ _ _ h hown hstep session hsession :=
    ⟨(realmStep_clientFit h hown False.elim hstep session hsession).1, False.elim⟩

/-- The realms outside of the window: no login of the client has been accepted since its commanders
were loaded, or ever. -/
inductive Outside (env : Env Key) (barrack : UInt16) (beyond : ℕ → UInt8) (sessionKey : Chars 11) :
    Realm Key → Prop
  | init {s : Realm Key} (hs : (realm env barrack beyond).init s) :
      Outside env barrack beyond sessionKey s
  | step {s s' : Realm Key} {request : ClientRequest}
      (hs : Outside env barrack beyond sessionKey s) (hown : Own barrack sessionKey request)
      (hlogin : ¬ Accepted env barrack beyond s request)
      (hstep : (realm env barrack beyond).step s request = some s') :
      Outside env barrack beyond sessionKey s'
  | loaded {s s' : Realm Key} {request : ClientRequest}
      (hs : ReachableUnder (realm env barrack beyond) (fun _ => Own barrack sessionKey) s)
      (hown : Own barrack sessionKey request)
      (hloads : LoadsCommanders env barrack beyond s request)
      (hstep : (realm env barrack beyond).step s request = some s') :
      Outside env barrack beyond sessionKey s'

/-- Outside of the window the client's sessions count no slots or have their arrays. -/
theorem outside_clientFit (hs : Outside env barrack beyond sessionKey s) :
    ClientFit barrack sessionKey True s := by
  induction hs with
  | init hs =>
    obtain ⟨heap, rfl⟩ := hs
    rintro session (hsession | hsession) <;> cases hsession
  | step _ hown hlogin hstep ih =>
    intro session hsession
    obtain ⟨hkey, hbacked⟩ := realmStep_clientFit ih hown (fun _ => hlogin) hstep session hsession
    exact ⟨hkey, fun hout => hbacked (.inl hout)⟩
  | loaded hs hown hloads hstep =>
    intro session hsession
    obtain ⟨hkey, hbacked⟩ := realmStep_clientFit (clientFit_inductive.reachable hs) hown
      False.elim hstep session hsession
    exact ⟨hkey, fun _ => hbacked (.inr hloads)⟩

/-- A request of the client whose index is in range finds the array there. -/
theorem outside_allocated (hs : Outside env barrack beyond sessionKey s)
    (hown : Own barrack sessionKey request) {commanderIndex : UInt8}
    (hrange : InRange (s.world beyond request).session.game commanderIndex) :
    Allocated (s.world beyond request).session.game (s.world beyond request).heap :=
  (((outside_clientFit hs).world beyond hown).backed trivial).allocated hrange

/-- Outside of the window the other conditions are enough. -/
theorem carefulRequest_of_outside (hs : Outside env barrack beyond sessionKey s)
    (hown : Own barrack sessionKey request)
    (hindex : ∀ off ∈ indexOffset request.type, Fitting request.type request.packetSize →
      comparesIndex request.type = false → InRange (s.world beyond request).session.game
        ((s.world beyond request).memory (request.packet + off)))
    (hrows : startsBarrack request.type → ∀ rows,
      (env.withRedis barrack).selectCommanders (s.world beyond request).writes
          (s.world beyond request).session.socket.accountId = .success (some rows) →
        rows = [] ∨ (env.withRedis barrack).allocates (s.world beyond request).heap.attempts =
          true ∧ rows.length ≤ 5)
    (hcurrent : Replaces (env.withRedis barrack) request.type request.packet request.packetSize
        (s.world beyond request) →
      (s.world beyond request).session.game.commanderSession.currentCommander = none) :
    CarefulRequest env barrack beyond sessionKey s request where
  routerId := hown.routerId
  sessionKey := hown.sessionKey
  careful := ⟨hindex, fun _ _ _ hrange => outside_allocated hs hown hrange, hrows, hcurrent⟩

end Runs

end R1Emu.Handler
