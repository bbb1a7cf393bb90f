import R1Emu.Game.Loading
import R1Emu.Handler.ErrorLaw

/-!
# Where an error leaves something behind

Two handlers of the barrack write before they can still fail, the one that connects to a zone
sets the socket session first, and the integrity check takes an error for a truth value.
Each of them obeys the law exactly when its defect is not met.
-/
namespace R1Emu.Handler
open R1Emu.Actor R1Emu.Game R1Emu.Lib R1Emu.Lib.Stage R1Emu.Lib.Bytes R1Emu.Packet R1Emu.Server
open R1Emu.Commander (eqSlotCount)

variable {Key : Type}

/-! ### The handlers that do not -/

/-- Saving the session with the commander at `p`, and moving it to the zone, fails after
something has been written. -/
def SaveDefect (env : Env Key) (w : World Key) (p : CommanderPtr) (routerId : UInt16) : Prop :=
  let saved := startGameSession w.session (some p)
  let answer := env.write w.writes (socketWrite saved)
  answer.done = false ∧ answer.applied = true ∨
    answer.done = true ∧ ∃ c eqSlots, w.heap.commander p = some c ∧
      equippedIds w.heap c.inventory = some eqSlots ∧
      acknowledged env (w.writes ++ [socketWrite saved]) (gameWrites saved c eqSlots ++
        [.rename (gameSessionKey saved)
          ⟨routerId, undefinedMap, w.session.socket.accountId⟩]) = false

/-- The game is started with a commander and on a server that exist. -/
def StartGameDefect (env : Env Key) (w : World Key) (packet packetSize : ℕ) : Prop :=
  let routerId := UInt16.ofNat (leValue (w.memory.read packet 2))
  checkClientPacketSize PacketType.cbStartGame.size 3 packetSize = true ∧
    (zoneServers[routerId.toNat]?).isSome = true ∧
    ∃ p, w.heap.slot w.session.game.accountSession.commanders
      (slotIndex (w.memory (packet + 2))) = some (some p) ∧ SaveDefect env w p routerId

/-- The row of a new commander is inserted, but the insertion is not acknowledged, or there is
no memory for the commander. -/
def CommanderCreateDefect (env : Env Key) (w : World Key) (packet packetSize : ℕ) : Prop :=
  let i := slotIndex (w.memory packet)
  let accountSession := w.session.game.accountSession
  checkClientPacketSize PacketType.cbCommanderCreate.size 82 packetSize = true ∧
    0 ≤ i ∧ i < accountSession.commandersCountMax ∧
    w.heap.slot accountSession.commanders i = some none ∧
    ∃ c w' eqSlots, newCommander env packet (start w) = some (.ok (.ok c), w') ∧
      equippedIds w'.heap c.inventory = some eqSlots ∧
      let answer := env.write w.writes (.insertCommander (commanderRow c eqSlots))
      answer.applied = true ∧ (answer.done = false ∨ env.allocates w'.heap.attempts = false)

/-- The game session is loaded, but the move that follows is not acknowledged, when the socket
session has changed or the move was made. -/
def ConnectDefect (env : Env Key) (w : World Key) (packet : ℕ) : Prop :=
  ∃ accountId gameSession w' c,
    loadGameSession env packet (start w) = some (.ok (accountId, gameSession), w') ∧
    gameSession.commanderSession.currentCommander.bind w'.heap.commander = some c ∧
    let answer := env.write w.writes
      (.rename ⟨env.routerId, undefinedMap, accountId⟩ ⟨env.routerId, c.mapId, accountId⟩)
    answer.done = false ∧ (answer.applied = true ∨
      connectedSocket env w.session.socket accountId c.mapId ≠ w.session.socket)

/-- When a handler breaks the law. -/
def Defective : PacketType → Env Key → World Key → ℕ → ℕ → Prop
  | .cbStartGame, env, w, packet, packetSize => StartGameDefect env w packet packetSize
  | .cbCommanderCreate, env, w, packet, packetSize => CommanderCreateDefect env w packet packetSize
  | .cbCheckClientIntegrity, env, w, _, _ => LoadFails env w w.session.socket.accountId
  | .czConnect, env, w, packet, _ => ConnectDefect env w packet
  | _, _, _, _, _ => False

theorem lawful_start (w : World Key) (r : Except PacketHandlerState PacketHandlerState) :
    Lawful w r (start w) :=
  ⟨fun _ => ⟨rfl, .refl _, rfl⟩, by simp [start]⟩

/-- Something has been written. -/
theorem not_lawful_error {w w' : World Key} {r : Except PacketHandlerState PacketHandlerState}
    (hr : value r = .error) {write : Write} (hwrites : w.writes ++ [write] <+: w'.writes) :
    ¬ Lawful w r w' := by
  intro h
  have hlen := hwrites.length_le
  rw [(h.1 hr).writes, List.length_append, List.length_singleton] at hlen
  omega

theorem lawful_of_untouched {w w' : World Key} (hw : (start w).Untouched w')
    (r : Except PacketHandlerState PacketHandlerState) : Lawful w r w' :=
  ⟨fun _ => ⟨hw.session, hw.heap, hw.writes⟩, by simp [hw.called, start]⟩

/-- An error after a write is lawful if the write was not done, and the session is as it was. -/
theorem lawful_written_iff {w : World Key} (w' : World Key)
    {r : Except PacketHandlerState PacketHandlerState}
    (hr : value r = .error) (hheap : w.heap.Kept w'.heap) (hwrites : w'.writes = w.writes)
    (env : Env Key) (write : Write) :
    Lawful w r (w'.written env write) ↔
      (env.write w.writes write).applied = false ∧ w'.session = w.session := by
  have hwritten := written_writes w' env write
  rw [hwrites] at hwritten
  cases happlied : (env.write w.writes write).applied with
  | false =>
    rw [happlied] at hwritten
    refine ⟨fun h => ⟨rfl, ?_⟩, fun h => ⟨fun _ => ⟨?_, ?_, hwritten⟩, fun _ => hr⟩⟩
    · exact (written_session w' env write).symm.trans (h.1 hr).session
    · exact (written_session w' env write).trans h.2
    · rwa [written_heap]
  | true =>
    rw [happlied, if_pos rfl] at hwritten
    refine iff_of_false (@not_lawful_error _ _ _ _ hr write ?_) (by simp)
    rw [hwritten]

/-- Once something has been written, the move must be acknowledged. -/
theorem startGameMove_lawful_iff (env : Env Key) (saved : Session) (routerId : UInt16)
    (zoneServer : List UInt8 × ℕ) (commanderIndex : UInt8) {w w' : World Key} {write : Write}
    (hwrites : w.writes ++ [write] <+: w'.writes) (hcalled : w'.called = []) :
    (startGameMove env saved routerId zoneServer commanderIndex).Sat w' (Lawful w) ↔
      (env.write w'.writes (.rename (gameSessionKey saved)
        ⟨routerId, undefinedMap, saved.socket.accountId⟩)).done = true := by
  simp only [startGameMove, redisMoveGameSession, sat_bind, sat_perform, sat_pure, then_ok,
    sat_require, sat_updateSession, sat_commanderAt, sat_send, then_error]
  cases (env.write w'.writes _).done with
  | false =>
    have hne := not_lawful_error (r := .error .error) rfl (hwrites.trans (writes_prefix_written env w'
      (.rename (gameSessionKey saved) ⟨routerId, undefinedMap, saved.socket.accountId⟩)))
    simp [hne]
  | true => simp [Lawful, hcalled]

/-- So must all the writes that save the session, once the first of them was. -/
theorem startGame_saved_iff (env : Env Key) {w w' : World Key} {saved : Session}
    (hwrites : w'.writes = w.writes ++ [socketWrite saved]) (hcalled : w'.called = [])
    (c : Commander Key) (eqSlots : Fin eqSlotCount → UInt32) (routerId : UInt16)
    (zoneServer : List UInt8 × ℕ) (commanderIndex : UInt8) :
    Then (fun done : Bool => do
        require done .error
        startGameMove env saved routerId zoneServer commanderIndex) (Lawful w)
      (.ok (acknowledged env (w.writes ++ [socketWrite saved]) (gameWrites saved c eqSlots)))
      (w'.sent env (gameWrites saved c eqSlots)) ↔
    acknowledged env (w.writes ++ [socketWrite saved]) (gameWrites saved c eqSlots ++
      [.rename (gameSessionKey saved) ⟨routerId, undefinedMap, saved.socket.accountId⟩]) = true := by
  obtain ⟨-, -, hcalled', hprefix⟩ := sent_frame env w' (gameWrites saved c eqSlots)
  rw [hwrites] at hprefix
  rw [acknowledged_concat, ← hwrites]
  cases hack : acknowledged env w'.writes (gameWrites saved c eqSlots) with
  | false => simp [not_lawful_error (r := .error .error) rfl hprefix]
  | true =>
    have hiff := startGameMove_lawful_iff env saved routerId zoneServer commanderIndex hprefix
      (hcalled'.trans hcalled)
    rw [sent_writes hack] at hiff
    simpa using hiff

/-- What the handler does once the commander and the server are found. -/
theorem startGame_save_iff (env : Env Key) (w : World Key) (p : CommanderPtr) (routerId : UInt16)
    (zoneServer : List UInt8 × ℕ) (commanderIndex : UInt8) :
    (do
      require (← redisUpdateSession env (startGameSession w.session (some p))) .error
      startGameMove env (startGameSession w.session (some p)) routerId zoneServer commanderIndex :
        Handling Key _).Sat (start w) (Lawful w) ↔ ¬ SaveDefect env w p routerId := by
  simp only [SaveDefect, sat_bind]
  generalize hsaved : startGameSession w.session (some p) = saved
  have hp : saved.game.commanderSession.currentCommander = some p := by rw [← hsaved]; rfl
  have haccount : w.session.socket.accountId = saved.socket.accountId := by rw [← hsaved]; rfl
  rw [sat_redisUpdateSession hp, haccount]
  change ((env.write w.writes (socketWrite saved)).done = false → _) ∧
    ((env.write w.writes (socketWrite saved)).done = true → ∀ c, w.heap.commander p = some c →
      ∀ eqSlots, equippedIds w.heap c.inventory = some eqSlots → _) ↔ _
  cases hdone : (env.write w.writes (socketWrite saved)).done with
  | false =>
    have herror := lawful_written_iff (w := w) (start w) (r := .error .error) rfl (.refl _) rfl env
      (socketWrite saved)
    simp [herror]
  | true =>
    have hwritten : ((start w).written env (socketWrite saved)).writes =
        w.writes ++ [socketWrite saved] := written_writes_of_done hdone
    have hmove := fun c eqSlots => startGame_saved_iff env hwritten (written_called _ _ _) c eqSlots
      routerId zoneServer commanderIndex
    constructor
    · rintro ⟨-, h⟩ (⟨hfalse, -⟩ | ⟨-, c, eqSlots, hc, heq, hack⟩)
      · cases hfalse
      · have hdone := (hmove c eqSlots).mp (h rfl c hc eqSlots heq)
        rw [hack] at hdone
        cases hdone
    · intro h
      refine ⟨by simp, fun _ c hc eqSlots heq => (hmove c eqSlots).mpr ?_⟩
      by_contra hack
      exact h (.inr ⟨rfl, c, eqSlots, hc, heq, Bool.eq_false_iff.mpr hack⟩)

theorem startGame_errorLaw_iff (env : Env Key) (w : World Key) (packet packetSize : ℕ) :
    ErrorLaw barrackHandlerStartGame env w packet packetSize ↔
      ¬ StartGameDefect env w packet packetSize := by
  rw [errorLaw_iff]
  have hlawful := lawful_start w
  simp only [barrackHandlerStartGame, sat_bind, sat_checkSize, sat_readU16, sat_readU8, sat_gets,
    sat_commanderSlot, sat_require, then_ok, then_error]
  constructor
  · rintro ⟨h, -⟩ ⟨hsize, hserver, p, hslot, hdefect⟩
    obtain ⟨server, hserver⟩ := Option.isSome_iff_exists.mp hserver
    have hsave := (h hsize (some p) hslot).1 rfl
    simp only [start, hserver] at hsave
    exact (startGame_save_iff env w p _ server _).mp hsave hdefect
  · intro h
    refine ⟨fun hsize slot hslot => ⟨fun hsome => ?_, fun _ => hlawful _⟩, fun _ => hlawful _⟩
    obtain ⟨p, rfl⟩ := Option.isSome_iff_exists.mp hsome
    cases hserver : zoneServers[(UInt16.ofNat (leValue (w.memory.read packet 2))).toNat]? with
    | none => simpa only [start, hserver] using (sat_pure _ _ _).mpr (hlawful _)
    | some server =>
      have hsave := (startGame_save_iff env w p _ server (w.memory (packet + 2))).mpr fun hdefect =>
        h ⟨hsize, by rw [hserver]; rfl, p, hslot, hdefect⟩
      simpa only [start, hserver] using hsave

theorem preserves_createDefaultItem (env : Env Key) (w₀ : World Key) (slot : Fin eqSlotCount) :
    Preserves w₀.Untouched (createDefaultItem env slot) := by
  intro w hw
  refine (itemFactoryCreate_sat env _ 1 hw).bind (fun _ _ h => h.1) fun item w₁ h₁ => ?_
  rw [sat_bind, sat_found]
  rintro item rfl
  simpa [setItemSlot] using h₁.1.setHeap (h₁.1.heap.setItemSlot (h₁.2 item rfl) _)

theorem preserves_r1emuGenerateRandom (w₀ : World Key) :
    Preserves w₀.Untouched r1emuGenerateRandom := by
  intro w hw
  rw [sat_r1emuGenerateRandom]
  exact ⟨⟨hw.session, hw.heap, hw.writes⟩, hw.called⟩

theorem preserves_r1emuGenerateRandom64 (w₀ : World Key) :
    Preserves w₀.Untouched r1emuGenerateRandom64 :=
  (preserves_r1emuGenerateRandom w₀).bind fun _ => (preserves_r1emuGenerateRandom w₀).bind fun _ =>
    preserves_pure _

/-- A commander is asked for without a trace in the session. -/
theorem preserves_newCommander (env : Env Key) (w₀ : World Key) (packet : ℕ) :
    Preserves w₀.Untouched (newCommander env packet) := by
  intro w hw
  simp only [newCommander, sat_bind, sat_gets, sat_readString, sat_readU16, sat_readU8, then_ok,
    sat_ite, sat_pure]
  refine ⟨fun _ => hw, fun _ => ⟨fun _ => hw, fun _ => ?_⟩⟩
  have hrandom := preserves_r1emuGenerateRandom w₀
  have hequip := preserves_equipSlots (preserves_createDefaultItem env w₀)
    (List.finRange eqSlotCount) fun _ => none
  cases commanderClass (UInt16.ofNat (leValue (w.memory.read (packet + 66) 2))) with
  | none => exact preserves_pure _ w hw
  | some classId =>
    have hrandom64 := preserves_r1emuGenerateRandom64 w₀
    rw [sat_ite]
    refine ⟨fun _ => preserves_pure _ w hw, fun _ => ?_⟩
    exact (hrandom.bind fun _ => hrandom64.bind fun _ => hequip.bind fun _ => preserves_pure _) w hw

/-- What the handler does once a commander can be inserted. -/
theorem commanderCreate_insert_iff (env : Env Key) {w w' : World Key}
    (hw : (start w).Untouched w') (c : Commander Key) (commanders : Option CommandersPtr)
    (i : Int) (commanderIndex : UInt8) : 
    (do
      match ← mySqlCommanderInsert env c with
      | none => return .error
      | some commanderId =>
        let newCommander := { c with commanderId }
        match ← commanderDup env (pure newCommander) with
        | none => return .error
        | some dupCommander =>
          setCommanderSlot commanders i.toNat (some dupCommander)
          send (.commanderCreate newCommander commanderIndex.toNat)
          return .updateSession : Handling Key PacketHandlerState).Sat w' (Lawful w) ↔
    ∀ eqSlots, equippedIds w'.heap c.inventory = some eqSlots →
      ¬ ((env.write w.writes (.insertCommander (commanderRow c eqSlots))).applied = true ∧
        ((env.write w.writes (.insertCommander (commanderRow c eqSlots))).done = false ∨
          env.allocates w'.heap.attempts = false)) := by
  have hwrites : w'.writes = w.writes := hw.writes
  simp only [mySqlCommanderInsert, sat_bind, sat_gets, sat_found, sat_perform, sat_pure, then_ok,
    hwrites]
  refine forall₂_congr fun eqSlots heq => ?_
  generalize hrow : Write.insertCommander (commanderRow c eqSlots) = write
  have herror := lawful_written_iff (w := w) w' (r := .ok .error) rfl hw.heap hwrites env write
  cases hdone : (env.write w.writes write).done with
  | false => simp [herror, hw.session]
  | true =>
    have hwritten : (w'.written env write).writes = w.writes ++ [write] := by
      rw [written_writes_of_done (hwrites ▸ hdone), hwrites]
    have hdup : ∀ heap, ¬ Lawful w (.ok .error) { w'.written env write with heap } := fun heap =>
      @not_lawful_error _ _ _ _ rfl write (by rw [← hwritten])
    have happlied := (env.write w.writes write).applied_of_done hdone
    have hcalled : w'.called = [] := hw.called
    cases hallocates : env.allocates w'.heap.attempts with
    | false => simp [-written_session, -written_called, commanderDup, hallocates, happlied, hdup]
    | true => simp [commanderDup, hallocates, Lawful, hcalled]

theorem commanderCreate_errorLaw_iff (env : Env Key) (w : World Key) (packet packetSize : ℕ) :
    ErrorLaw barrackHandlerCommanderCreate env w packet packetSize ↔
      ¬ CommanderCreateDefect env w packet packetSize := by
  rw [errorLaw_iff]
  have hlawful := lawful_start w
  simp only [barrackHandlerCommanderCreate, sat_bind, sat_checkSize, sat_readU8, sat_gets,
    then_ok, then_error, accountSessionIsCommanderSlotEmpty, sat_ite, sat_pure, sat_commanderSlot,
    sat_require, start_memory, start_session, start_heap]
  constructor
  · rintro ⟨h, -⟩ ⟨hsize, hpos, hlt, hslot, c, w', eqSlots, hnew, heq, hdefect⟩
    have hcreate := ((h hsize).2 (by rintro (h | h) <;> omega) none hslot).1 rfl _ _ hnew
    exact (commanderCreate_insert_iff env (preserves_newCommander env _ packet _ (.refl _) _ _ hnew)
      c _ _ _).mp hcreate eqSlots heq hdefect
  · intro h
    refine ⟨fun hsize => ⟨fun _ => ⟨by simp, fun _ => hlawful _⟩,
      fun hrange slot hslot => ⟨fun hempty r w' hnew => ?_, fun _ => hlawful _⟩⟩, fun _ => hlawful _⟩
    have hw := preserves_newCommander env _ packet _ (.refl _) _ _ hnew
    rcases r with e | msgType | c
    · exact lawful_of_untouched hw _
    · have hcalled : w'.called = [] := hw.called
      simp [Lawful, hcalled]
    · refine (commanderCreate_insert_iff env hw c _ _ _).mpr fun eqSlots heq hdefect => h ?_
      rw [Option.isNone_iff_eq_none] at hempty
      exact ⟨hsize, by omega, by omega, hempty ▸ hslot, c, w', eqSlots, hnew, heq, hdefect⟩

theorem preserves_commanderDup (env : Env Key) (w₀ : World Key) {src : Handling Key (Commander Key)}
    (hsrc : Preserves w₀.Untouched src) : Preserves w₀.Untouched (commanderDup env src) := by
  refine (preserves_allocate env).bind fun allocated => .ite ?_ (preserves_pure _)
  refine hsrc.bind fun c => Preserves.bind ?_ fun _ => preserves_pure _
  exact preserves_onHeap fun h => h.kept_newCommander c

theorem preserves_loadGameSession (env : Env Key) (w₀ : World Key) (packet : ℕ) :
    Preserves w₀.Untouched (loadGameSession env packet) := by
  refine (preserves_gets _).bind fun accountId => (preserves_gets _).bind fun accountName =>
    (preserves_redisGetAccountSession env _ .zero).bind fun account => ?_
  cases account with
  | none => exact preserves_exit _
  | some account =>
    refine (preserves_require _ _).bind fun _ =>
      (preserves_mySqlLoadAccountCommanders env account accountId).bind fun loaded => ?_
    cases loaded with
    | none => exact preserves_exit _
    | some loaded =>
      refine (preserves_commanderSlot _ 0).bind fun first =>
        (preserves_commanderDup env w₀ (preserves_commanderAt first)).bind fun _ =>
          (preserves_redisGetGameSession env _).bind fun gameSession => ?_
      cases gameSession with
      | none => exact preserves_exit _
      | some gameSession => exact preserves_pure _

/-- What the handler does once the game session is loaded. -/
theorem connect_move_iff (env : Env Key) {w w' : World Key} (hw : (start w).Untouched w')
    (accountId : UInt64) (gameSession : GameSession) (c : Commander Key) :
    (do
      updateSession fun s => { s with socket := connectedSocket env s.socket accountId c.mapId }
      require (← redisMoveGameSession env ⟨env.routerId, undefinedMap, accountId⟩
        ⟨env.routerId, c.mapId, accountId⟩) .error
      updateSession fun s => { s with game := gameSession }
      send (.connectOk 0 privilegesAdmin c)
      return .updateSession : Handling Key PacketHandlerState).Sat w' (Lawful w) ↔
    ¬ ((env.write w.writes (.rename ⟨env.routerId, undefinedMap, accountId⟩
        ⟨env.routerId, c.mapId, accountId⟩)).done = false ∧
      ((env.write w.writes (.rename ⟨env.routerId, undefinedMap, accountId⟩
        ⟨env.routerId, c.mapId, accountId⟩)).applied = true ∨
      connectedSocket env w.session.socket accountId c.mapId ≠ w.session.socket)) := by
  have hsession : w'.session = w.session := hw.session
  have hwrites : w'.writes = w.writes := hw.writes
  have hcalled : w'.called = [] := hw.called
  simp only [redisMoveGameSession, sat_bind, sat_updateSession, sat_perform, sat_require, sat_send,
    sat_pure, then_ok, then_error]
  generalize Write.rename _ _ = write
  have herror := lawful_written_iff (w := w) { w' with session := { w'.session with
    socket := connectedSocket env w'.session.socket accountId c.mapId } } (r := .error .error) rfl
    hw.heap hwrites env write
  rw [← hwrites, ← hsession] at herror ⊢
  cases (env.write w'.writes write).done with
  | false => simp [herror, Session.ext_iff]
  | true => simp [Lawful, hcalled]

theorem connect_errorLaw_iff (env : Env Key) (w : World Key) (packet packetSize : ℕ) :
    ErrorLaw zoneHandlerConnect env w packet packetSize ↔ ¬ ConnectDefect env w packet := by
  rw [errorLaw_iff]
  have hload := preserves_loadGameSession env (start w) packet _ (.refl _)
  rw [zoneHandlerConnect, sat_bind]
  constructor
  · rintro h ⟨accountId, gameSession, w', c, hrun, hc, hdefect⟩
    have hmove := h _ _ hrun
    rw [then_ok, sat_bind, sat_commanderAt] at hmove
    exact (connect_move_iff env (hload _ _ hrun) accountId gameSession c).mp (hmove c hc) hdefect
  · intro h r w' hrun
    have hw := hload _ _ hrun
    rcases r with e | ⟨accountId, gameSession⟩
    · exact lawful_of_untouched hw _
    · rw [then_ok, sat_bind, sat_commanderAt]
      exact fun c hc => (connect_move_iff env hw accountId gameSession c).mpr fun hdefect =>
        h ⟨accountId, gameSession, w', c, hrun, hc, hdefect⟩

/-! ### A handler that calls another -/

@[simp] theorem sat_callHandler (handler : Handling Key PacketHandlerState) (w : World Key)
    (Q : Except PacketHandlerState PacketHandlerState → World Key → Prop) :
    (callHandler handler).Sat w Q ↔ handler.Sat w fun r w' =>
      Q (.ok (value r)) { w' with called := w'.called ++ [value r] } := by
  simp [callHandler]

/-- The integrity check fails to fail when the barrack does. -/
theorem checkClientIntegrity_errorLaw_iff (env : Env Key) (w : World Key) (packet packetSize : ℕ) :
    ErrorLaw barrackHandlerCheckClientIntegrity env w packet packetSize ↔
      ¬ LoadFails env w w.session.socket.accountId := by
  rw [errorLaw_iff]
  simp only [barrackHandlerCheckClientIntegrity, sat_bind, sat_send, then_ok, sat_callHandler,
    barrackHandlerStartBarrack, sat_gets, sat_require, sat_pure, then_error]
  generalize hw₁ :
    ({ start w with reply := (start w).reply ++ [.memory integrityPacket] } : World Key) = w₁
  have hfails : LoadFails env w₁ w.session.socket.accountId ↔
      LoadFails env w w.session.socket.accountId := by
    rw [← hw₁]
    rfl
  have hcalled : w₁.called = [] := by rw [← hw₁]; rfl
  rw [← hfails]
  constructor
  · intro h hfails
    obtain ⟨w', hnone⟩ := mySqlLoadAccountCommanders_none hfails h
    simp [stateValue, Lawful] at hnone
  · intro h r w' hrun
    obtain ⟨loaded, rfl, hnone⟩ := mySqlLoadAccountCommanders_sat env _ _ w₁ r w' hrun
    have hw := preserves_mySqlLoadAccountCommanders env _ _ w₁ (.refl w₁) _ w' hrun
    rcases loaded with _ | ⟨accountSession, commandersCount⟩
    · exact absurd (hnone rfl) h
    · have hcalled' : w'.called = [] := hw.called.trans hcalled
      simp [Lawful, hcalled', stateValue]

/-! ### A world in which no row can be selected -/

def deafEnv : Env UInt64 where
  routerId := 0
  actorGenKey := id
  staticData := ⟨fun _ => none, fun _ => none⟩
  allocates _ := true
  rand _ := 0
  uninitialised := .zero
  write _ _ := ⟨true, true, fun _ => rfl, 0⟩
  selectAccount _ _ _ := .error
  selectCommanders _ _ := .error
  selectFlag _ := .error
  hmgetAccount _ _ := .error
  hmgetGame _ _ := .error
  adminCmdProcess _ w := some (false, w)
  build _ := []

def emptyWorld : World UInt64 where
  session := ⟨socketSessionInit 0 0 undefinedMap (Vector.replicate 11 0) false, .zero⟩
  heap :=
    { item := fun _ => ⟨0, 0, 0, 0, .quest {}⟩, cell := fun _ => none, next := 0, destroyed := [],
      commanders := [], arrays := [], nextItem := 0, actorId := 0, attempts := 0 }
  seed := 0
  writes := []
  memory := fun _ => 0
  reply := []
  events := []
  called := []

/-- The barrack cannot be started, and the check reports an update. -/
theorem checkClientIntegrity_swallows_error :
    ¬ ErrorLaw barrackHandlerCheckClientIntegrity deafEnv emptyWorld 0 0 := fun h =>
  (checkClientIntegrity_errorLaw_iff deafEnv emptyWorld 0 0).mp h trivial

/-! ### All the handlers -/

theorem Obeys.errorLaw_iff {handler : Handler Key} {env : Env Key} {packet packetSize : ℕ}
    (h : Obeys (handler env packet packetSize)) (w : World Key) :
    ErrorLaw handler env w packet packetSize ↔ ¬ False :=
  iff_of_true (h.errorLaw w) id

theorem barrackHandlers_errorLaw_iff (env : Env Key) (w : World Key) (packet packetSize : ℕ) :
    ∀ entry ∈ (barrackHandlers : List (PacketType × Handler Key)),
      ErrorLaw entry.2 env w packet packetSize ↔ ¬ Defective entry.1 env w packet packetSize := by
  simp only [barrackHandlers, List.forall_mem_cons]
  exact ⟨(barrackHandlerLogin_obeys env packet packetSize).errorLaw_iff w,
    (barrackHandlerLoginByPassport_obeys env packet packetSize).errorLaw_iff w,
    (barrackHandlerStartBarrack_obeys env packet packetSize).errorLaw_iff w,
    (barrackHandlerCurrentBarrack_obeys env packet packetSize).errorLaw_iff w,
    (barrackHandlerBarrackNameChange_obeys env packet packetSize).errorLaw_iff w,
    commanderCreate_errorLaw_iff env w packet packetSize,
    (barrackHandlerCommanderDestroy_obeys env packet packetSize).errorLaw_iff w,
    (barrackHandlerCommanderMove_obeys env packet packetSize).errorLaw_iff w,
    startGame_errorLaw_iff env w packet packetSize,
    (barrackHandlerLogout_obeys env packet packetSize).errorLaw_iff w,
    checkClientIntegrity_errorLaw_iff env w packet packetSize, by simp⟩

theorem zoneHandlers_errorLaw_iff [DecidableEq Key] (env : Env Key) (w : World Key)
    (packet packetSize : ℕ) : ∀ entry ∈ (zoneHandlers : List (PacketType × Handler Key)),
      ErrorLaw entry.2 env w packet packetSize ↔ ¬ Defective entry.1 env w packet packetSize := by
  have hnone := (notImplemented_obeys env packet packetSize).errorLaw_iff w
  simp only [zoneHandlers, List.forall_mem_cons]
  exact ⟨connect_errorLaw_iff env w packet packetSize,
    (zoneHandlerGameReady_obeys env packet packetSize).errorLaw_iff w,
    (zoneHandlerJump_obeys env packet packetSize).errorLaw_iff w, hnone, hnone,
    (zoneHandlerKeyboardMove_obeys env packet packetSize).errorLaw_iff w,
    (zoneHandlerMoveStop_obeys env packet packetSize).errorLaw_iff w, hnone,
    (zoneHandlerCampInfo_obeys env packet packetSize).errorLaw_iff w, hnone, hnone,
    (zoneHandlerLogout_obeys env packet packetSize).errorLaw_iff w, hnone, hnone,
    (zoneHandlerSkillGround_obeys env packet packetSize).errorLaw_iff w,
    (zoneHandlerRestSit_obeys env packet packetSize).errorLaw_iff w,
    (zoneHandlerChat_obeys env packet packetSize).errorLaw_iff w, hnone,
    (zoneHandlerHeadRotate_obeys env packet packetSize).errorLaw_iff w,
    (zoneHandlerRotate_obeys env packet packetSize).errorLaw_iff w,
    (zoneHandlerPose_obeys env packet packetSize).errorLaw_iff w, hnone,
    (zoneHandlerItemDelete_obeys env packet packetSize).errorLaw_iff w,
    (zoneHandlerSwapEtcInvChangeIndex_obeys env packet packetSize).errorLaw_iff w,
    (zoneHandlerReqNormalTxNumArg_obeys env packet packetSize).errorLaw_iff w,
    (zoneHandlerDynamicCastingStart_obeys env packet packetSize).errorLaw_iff w, by simp⟩

/-- A handler obeys the law exactly when it is not one of the four in a bad moment. -/
theorem handler_errorLaw_iff [DecidableEq Key] {type : PacketType} {handler : Handler Key}
    (hmem : (type, handler) ∈ barrackHandlers ++ zoneHandlers) (env : Env Key) (w : World Key)
    (packet packetSize : ℕ) :
    ErrorLaw handler env w packet packetSize ↔ ¬ Defective type env w packet packetSize := by
  rcases List.mem_append.mp hmem with hmem | hmem
  · exact barrackHandlers_errorLaw_iff env w packet packetSize _ hmem
  · exact zoneHandlers_errorLaw_iff env w packet packetSize _ hmem

theorem handler_errorLaw_iff_startBarrack :
    ErrorLaw barrackHandlerStartBarrack deafEnv emptyWorld 0 0 :=
  (handler_errorLaw_iff (.tail _ (.tail _ (.head _))) deafEnv emptyWorld 0 0).mpr id

end R1Emu.Handler
