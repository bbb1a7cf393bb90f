import R1Emu.Game.Redis
import R1Emu.Handler.ErrorDefects
import R1Emu.Handler.SessionRun

/-!
# Sessions that stay in the barrack

The barrack saves all its sessions under keys of its own, and a zone saves none before a
session has been moved there. While Redis has sessions of the barrack only, every account has
its game session under one key, that of its socket session, with what was saved last.
-/
namespace R1Emu.Handler
open R1Emu.Actor R1Emu.Game R1Emu.Lib R1Emu.Lib.Stage R1Emu.Lib.Bytes R1Emu.Packet R1Emu.Server
open R1Emu.Commander (eqSlotCount)

/-- Every account has its game session under at most one key, the one that its socket sessions
name, and what is found there is what was saved last. -/
structure OneGameSession (writes : List Write) : Prop where
  unique : ∀ key key', ((redisOf writes).games key).isSome → ((redisOf writes).games key').isSome →
    key.accountId = key'.accountId → key = key'
  named : ∀ socketKey socket, (redisOf writes).sockets socketKey = some socket →
    ∀ key, ((redisOf writes).games key).isSome → key.accountId = socket.accountId →
      key = socket.gameKey
  latest : ∀ socketKey socket, (redisOf writes).sockets socketKey = some socket →
    ((redisOf writes).games socket.gameKey).getD .empty = lastSaved writes socket.accountId

/-! ### What the barrack writes -/

def barrackKey (barrack : UInt16) (accountId : UInt64) : RedisGameSessionKey :=
  ⟨barrack, undefinedMap, accountId⟩

/-- All sessions in Redis are the barrack's. -/
structure AtBarrack (barrack : UInt16) (writes : List Write) : Prop where
  games : ∀ key, ((redisOf writes).games key).isSome → key = barrackKey barrack key.accountId
  latest : ∀ accountId,
    ((redisOf writes).games (barrackKey barrack accountId)).getD .empty = lastSaved writes accountId
  sockets : ∀ socketKey socket, (redisOf writes).sockets socketKey = some socket →
    socket.routerId = barrack ∧ socket.mapId = undefinedMap

/-- Writes to sessions of the barrack, and those that are not to Redis. -/
def Settling (barrack : UInt16) : Write → Prop
  | .hmsetSocket _ _ routerId mapId _ => routerId = barrack ∧ mapId = undefinedMap
  | .hmsetAccount key _ => key = barrackKey barrack key.accountId
  | .hmsetCommander key _ => key = barrackKey barrack key.accountId
  | .hmsetEquipment key _ => key = barrackKey barrack key.accountId
  | .rename source target => source = target
  | _ => True

variable {barrack : UInt16} {writes : List Write}

theorem AtBarrack.oneGameSession (h : AtBarrack barrack writes) : OneGameSession writes where
  unique key key' hkey hkey' haccount := by
    rw [h.games key hkey, h.games key' hkey', haccount]
  named socketKey socket hsocket key hkey haccount := by
    obtain ⟨hrouter, hmap⟩ := h.sockets socketKey socket hsocket
    rw [h.games key hkey, haccount, SocketHash.gameKey, hrouter, hmap]
    rfl
  latest socketKey socket hsocket := by
    obtain ⟨hrouter, hmap⟩ := h.sockets socketKey socket hsocket
    rw [← h.latest, SocketHash.gameKey, hrouter, hmap]
    rfl

theorem AtBarrack.nil : AtBarrack barrack [] where
  games _ hkey := by cases hkey
  latest _ := rfl
  sockets _ _ hsocket := by cases hsocket

/-- Setting fields of a session of the barrack. -/
theorem AtBarrack.hmset (h : AtBarrack barrack writes) {write : Write}
    {key : RedisGameSessionKey} {set : GameHash → GameHash} (hsets : write.sets = some (key, set))
    (hkey : key = barrackKey barrack key.accountId) : AtBarrack barrack (writes ++ [write]) := by
  have hgames : (redisOf (writes ++ [write])).games = Function.update (redisOf writes).games key
      (some (set (((redisOf writes).games key).getD .empty))) := by
    rw [redisOf_concat, Redis.apply_of_sets _ hsets, Redis.hmset_games]
  have hsaved : lastSaved (writes ++ [write]) = Function.update (lastSaved writes) key.accountId
      (set (lastSaved writes key.accountId)) := by
    rw [lastSaved_concat, hsets]
  refine ⟨fun key' hkey' => ?_, fun accountId => ?_, ?_⟩
  · rw [hgames] at hkey'
    by_cases hne : key' = key
    · rw [hne]
      exact hkey
    · rw [Function.update_of_ne hne] at hkey'
      exact h.games key' hkey'
  · rw [hgames, hsaved]
    by_cases haccount : accountId = key.accountId
    · rw [haccount, ← hkey, Function.update_self, Function.update_self, Option.getD_some,
        ← h.latest, ← hkey]
    · have hne : barrackKey barrack accountId ≠ key := fun he =>
        haccount (congrArg RedisGameSessionKey.accountId he)
      rw [Function.update_of_ne haccount, Function.update_of_ne hne, h.latest]
  · rw [redisOf_concat, Redis.apply_of_sets _ hsets]
    exact h.sockets

/-- A write that leaves the game sessions alone. -/
theorem AtBarrack.of_games_eq (h : AtBarrack barrack writes) {write : Write}
    (hsets : write.sets = none)
    (hgames : ((redisOf writes).apply write).games = (redisOf writes).games)
    (hsockets : ∀ socketKey socket, ((redisOf writes).apply write).sockets socketKey = some socket →
      socket.routerId = barrack ∧ socket.mapId = undefinedMap) :
    AtBarrack barrack (writes ++ [write]) := by
  have hsaved : lastSaved (writes ++ [write]) = lastSaved writes := by
    rw [lastSaved_concat, hsets]
  refine ⟨fun key hkey => ?_, fun accountId => ?_, ?_⟩
  · rw [redisOf_concat, hgames] at hkey
    exact h.games key hkey
  · rw [redisOf_concat, hgames, hsaved]
    exact h.latest accountId
  · rw [redisOf_concat]
    exact hsockets

theorem AtBarrack.concat (h : AtBarrack barrack writes) {write : Write}
    (hwrite : Settling barrack write) : AtBarrack barrack (writes ++ [write]) := by
  cases write with
  | insertCommander row => exact h.of_games_eq rfl rfl h.sockets
  | updateCommander commanderId row => exact h.of_games_eq rfl rfl h.sockets
  | deleteCommander commanderId => exact h.of_games_eq rfl rfl h.sockets
  | setFamilyName accountId familyName => exact h.of_games_eq rfl rfl h.sockets
  | hmsetSocket key accountId routerId mapId authenticated =>
    refine h.of_games_eq rfl rfl fun socketKey socket hsocket => ?_
    by_cases hkey : socketKey = key
    · rw [hkey] at hsocket
      have hnew := (Function.update_self ..).symm.trans hsocket
      cases hnew
      exact hwrite
    · exact h.sockets socketKey socket ((Function.update_of_ne hkey _ _).symm.trans hsocket)
  | hmsetAccount key fields => exact h.hmset rfl hwrite
  | hmsetCommander key fields => exact h.hmset rfl hwrite
  | hmsetEquipment key eqSlots => exact h.hmset rfl hwrite
  | rename source target =>
    cases hwrite
    refine h.of_games_eq rfl (Redis.rename_self_games _ _) fun socketKey socket hsocket => ?_
    refine h.sockets socketKey socket ?_
    rw [← Redis.rename_sockets (redisOf writes) source source]
    exact hsocket

/-! ### What the barrack's handlers leave -/

variable {Key : Type}

/-- The session is one of the barrack, and so are all in Redis. -/
structure Settled (barrack : UInt16) (w : World Key) : Prop where
  writes : AtBarrack barrack w.writes
  routerId : w.session.socket.routerId = barrack
  mapId : w.session.socket.mapId = undefinedMap

theorem settled_of_untouched {α : Type} {m : Handling Key α}
    (hm : ∀ w₀, Preserves (World.Untouched w₀) m) : Preserves (Settled barrack) m := fun w hw =>
  (hm w w (.refl w)).mono fun _ _ h =>
    ⟨h.writes ▸ hw.writes, h.session ▸ hw.routerId, h.session ▸ hw.mapId⟩

theorem settled_onHeap {α : Type} (f : Heap Key → α × Heap Key) :
    Preserves (Settled barrack) (onHeap f) :=
  preserves_act fun _ hw => ⟨hw.writes, hw.routerId, hw.mapId⟩

theorem settled_send (r : Reply Key) : Preserves (Settled barrack) (send r) :=
  preserves_act fun _ hw => ⟨hw.writes, hw.routerId, hw.mapId⟩

theorem settled_r1emuGenerateRandom :
    Preserves (Settled barrack) (@r1emuGenerateRandom Key) := by
  intro w hw
  rw [sat_r1emuGenerateRandom]
  exact ⟨hw.writes, hw.routerId, hw.mapId⟩

theorem settled_r1emuGenerateRandom64 :
    Preserves (Settled barrack) (@r1emuGenerateRandom64 Key) :=
  settled_r1emuGenerateRandom.bind fun _ => settled_r1emuGenerateRandom.bind fun _ =>
    preserves_pure _

/-- A handler that keeps the server and the map of the session. -/
theorem settled_updateSession {f : Session → Session}
    (hrouter : ∀ s, (f s).socket.routerId = s.socket.routerId := by exact fun _ => rfl)
    (hmap : ∀ s, (f s).socket.mapId = s.socket.mapId := by exact fun _ => rfl) :
    Preserves (Settled barrack) (updateSession f : Handling Key Unit) :=
  preserves_act fun w hw =>
    ⟨hw.writes, (hrouter w.session).trans hw.routerId, (hmap w.session).trans hw.mapId⟩

theorem settled_perform (env : Env Key) {write : Write} (hwrite : Settling barrack write) :
    Preserves (Settled barrack) (perform env write) := by
  intro w hw
  rw [sat_perform]
  refine ⟨?_, (written_session w env write).symm ▸ hw.routerId,
    (written_session w env write).symm ▸ hw.mapId⟩
  rw [written_writes]
  split
  · exact hw.writes.concat hwrite
  · exact hw.writes

theorem settled_commanderAt (p : Option CommanderPtr) :
    Preserves (Settled barrack) (commanderAt p : Handling Key (Commander Key)) :=
  settled_of_untouched fun _ => preserves_commanderAt p

theorem settled_commanderSlot (commanders : Option CommandersPtr) (i : Int) :
    Preserves (Settled barrack) (@commanderSlot Key commanders i) :=
  settled_of_untouched fun _ => preserves_commanderSlot commanders i

theorem settled_allocate (env : Env Key) : Preserves (Settled barrack) (allocate env) :=
  settled_onHeap _

theorem settled_setCommanderSlot (commanders : Option CommandersPtr) (i : ℕ)
    (p : Option CommanderPtr) : Preserves (Settled barrack) (@setCommanderSlot Key commanders i p) :=
  (preserves_found _).bind fun _ => (preserves_gets _).bind fun _ => (preserves_found _).bind
    fun _ => .ite (settled_onHeap _) preserves_fault

theorem settled_destroySlot (commanders : Option CommandersPtr) (i : ℕ) :
    Preserves (Settled barrack) (@destroySlot Key commanders i) := by
  refine (settled_commanderSlot commanders i).bind fun slot => ?_
  cases slot with
  | none => exact preserves_pure _
  | some p => exact (settled_onHeap _).bind fun _ => settled_setCommanderSlot _ _ _

theorem settled_mySqlGetAccountData (env : Env Key) (accountName password : List UInt8)
    (accountSession : AccountSession) :
    Preserves (Settled barrack) (mySqlGetAccountData env accountName password accountSession) :=
  fun w hw => (mySqlGetAccountData_sat env accountName password accountSession w).mono
    fun _ _ h => h.1 ▸ hw

/-- A session of the barrack is saved under a key of the barrack. -/
theorem settled_redisUpdateSession (env : Env Key) {session : Session}
    (hrouter : session.socket.routerId = barrack) (hmap : session.socket.mapId = undefinedMap) :
    Preserves (Settled barrack) (redisUpdateSession env session) := by
  have hkey : gameSessionKey session = barrackKey barrack session.socket.accountId := by
    rw [gameSessionKey, hrouter, hmap]
    rfl
  refine Preserves.bind ?_ fun saved => .ite ?_ (preserves_pure _)
  · exact (settled_perform env (by exact ⟨hrouter, hmap⟩)).bind fun _ => preserves_pure _
  · refine (settled_perform env (by exact hkey)).bind fun account => ?_
    cases session.game.commanderSession.currentCommander with
    | none => exact preserves_pure _
    | some p =>
      refine (settled_commanderAt _).bind fun c => (settled_perform env (by exact hkey)).bind fun _ => ?_
      exact (preserves_gets _).bind fun _ => (preserves_found _).bind fun eqSlots =>
        (settled_perform env (by exact hkey)).bind fun _ => preserves_pure _

theorem barrackHandlerLogin_settled (env : Env Key) (packet packetSize : ℕ) :
    Preserves (Settled barrack) (barrackHandlerLogin env packet packetSize) := by
  refine (preserves_require _ _).bind fun _ => (preserves_gets _).bind fun accountName =>
    (preserves_gets _).bind fun md5Password => ?_
  refine (settled_mySqlGetAccountData env _ _ _).bind fun data => ?_
  rcases data with _ | ⟨_ | _, accountSession⟩
  · exact preserves_pure _
  · exact (settled_send _).bind fun _ => preserves_pure _
  · refine .ite ((settled_send _).bind fun _ => preserves_pure _) ?_
    exact Preserves.bind settled_updateSession fun _ =>
      (settled_send _).bind fun _ => preserves_pure _

theorem barrackHandlerLoginByPassport_settled (env : Env Key) (packet packetSize : ℕ) :
    Preserves (Settled barrack) (barrackHandlerLoginByPassport env packet packetSize) := by
  refine (preserves_require _ _).bind fun _ =>
    Preserves.bind settled_updateSession fun _ =>
      settled_r1emuGenerateRandom64.bind fun accountId => ?_
  refine Preserves.bind settled_updateSession fun _ =>
    Preserves.bind settled_updateSession fun _ =>
      Preserves.bind settled_updateSession fun _ => ?_
  exact (settled_send _).bind fun _ => preserves_pure _

theorem barrackHandlerCommanderMove_settled (env : Env Key) (packet packetSize : ℕ) :
    Preserves (Settled barrack) (barrackHandlerCommanderMove env packet packetSize) := by
  refine (preserves_require _ _).bind fun _ => (preserves_gets _).bind fun commanderIndex => ?_
  refine Preserves.bind ?_ fun position => (preserves_gets _).bind fun session => ?_
  · exact (preserves_gets _).bind fun _ => (preserves_gets _).bind fun _ =>
      (preserves_gets _).bind fun _ => preserves_pure _
  · refine Preserves.bind (.ite (preserves_pure _) (settled_commanderSlot _ _)) fun commander => ?_
    cases commander with
    | none => exact preserves_pure _
    | some commander =>
      refine Preserves.bind settled_updateSession fun _ =>
        (settled_commanderAt _).bind fun c => (settled_onHeap _).bind fun _ => ?_
      exact (settled_send _).bind fun _ => preserves_pure _

theorem barrackHandlerStartBarrack_settled (env : Env Key) (packet packetSize : ℕ) :
    Preserves (Settled barrack) (barrackHandlerStartBarrack env packet packetSize) := by
  refine (preserves_gets _).bind fun session => ?_
  refine (settled_of_untouched fun _ => preserves_mySqlLoadAccountCommanders env _ _).bind
    fun loaded => ?_
  cases loaded with
  | none => exact preserves_pure _
  | some loaded =>
    exact Preserves.bind settled_updateSession fun _ =>
      (preserves_gets _).bind fun _ => (settled_send _).bind fun _ => preserves_pure _

theorem barrackHandlerCheckClientIntegrity_settled (env : Env Key) (packet packetSize : ℕ) :
    Preserves (Settled barrack) (barrackHandlerCheckClientIntegrity env packet packetSize) := by
  refine (settled_send _).bind fun _ => Preserves.bind ?_ fun state =>
    (preserves_require _ _).bind fun _ => preserves_pure _
  refine (barrackHandlerStartBarrack_settled env packet packetSize).call.bind fun state => ?_
  exact Preserves.bind (preserves_act fun _ hw => ⟨hw.writes, hw.routerId, hw.mapId⟩)
    fun _ => preserves_pure _

theorem barrackHandlerCurrentBarrack_settled (env : Env Key) (packet packetSize : ℕ) :
    Preserves (Settled barrack) (barrackHandlerCurrentBarrack env packet packetSize) :=
  (settled_send _).bind fun _ => (settled_send _).bind fun _ => preserves_pure _

theorem barrackHandlerLogout_settled (env : Env Key) (packet packetSize : ℕ) :
    Preserves (Settled barrack) (barrackHandlerLogout env packet packetSize) :=
  (settled_send _).bind fun _ => preserves_pure _

theorem settled_changeBarrackName (env : Env Key) (packet : ℕ) :
    Preserves (Settled barrack) (changeBarrackName env packet) := by
  refine (preserves_gets _).bind fun barrackName => .ite (preserves_pure _) (.ite (preserves_pure _) ?_)
  refine (preserves_gets _).bind fun accountSession => (preserves_gets _).bind fun bytes =>
    .ite (preserves_pure _) (Preserves.bind ?_ fun answer => .ite (preserves_pure _) ?_)
  · refine (settled_perform env (by exact trivial)).bind fun answer => .ite ?_ (preserves_pure _)
    refine (preserves_gets _).bind fun writes => ?_
    rcases env.selectFlag writes with _ | _ | _ | ⟨flag, flags⟩
    · exact preserves_pure _
    · exact preserves_fault
    · exact preserves_pure _
    · exact preserves_pure _
  · exact Preserves.bind settled_updateSession fun _ => preserves_pure _

theorem barrackHandlerBarrackNameChange_settled (env : Env Key) (packet packetSize : ℕ) :
    Preserves (Settled barrack) (barrackHandlerBarrackNameChange env packet packetSize) := by
  refine (preserves_require _ _).bind fun _ => (settled_changeBarrackName env packet).bind
    fun change => ?_
  exact (preserves_gets _).bind fun _ => (settled_send _).bind fun _ =>
    .ite (preserves_pure _) (preserves_pure _)

theorem barrackHandlerCommanderDestroy_settled (env : Env Key) (packet packetSize : ℕ) :
    Preserves (Settled barrack) (barrackHandlerCommanderDestroy env packet packetSize) := by
  refine (preserves_require _ _).bind fun _ => (preserves_gets _).bind fun commanderIndex =>
    (preserves_gets _).bind fun commanders => (settled_commanderSlot _ _).bind fun slot => ?_
  cases slot with
  | none => exact preserves_pure _
  | some commanderToDelete =>
    refine (settled_commanderAt _).bind fun c => Preserves.bind ?_ fun deleted =>
      .ite ?_ ((settled_send _).bind fun _ => preserves_pure _)
    · exact (settled_perform env (by exact trivial)).bind fun _ => preserves_pure _
    · exact Preserves.bind settled_updateSession fun _ => (settled_destroySlot _ _).bind fun _ =>
        (settled_send _).bind fun _ => preserves_pure _

theorem settled_createDefaultItem (env : Env Key) (slot : Fin eqSlotCount) :
    Preserves (Settled barrack) (createDefaultItem env slot) := by
  refine (settled_of_untouched fun _ => preserves_itemFactoryCreate env _ 1).bind fun item => ?_
  exact (preserves_found _).bind fun _ => (settled_onHeap _).bind fun _ => preserves_pure _

theorem settled_newCommander (env : Env Key) (packet : ℕ) :
    Preserves (Settled barrack) (newCommander env packet) := by
  refine (preserves_gets _).bind fun session => (preserves_gets _).bind fun commanderName =>
    (preserves_gets _).bind fun jobId => (preserves_gets _).bind fun gender =>
      (preserves_gets _).bind fun hairId => ?_
  refine .ite (preserves_pure _) (.ite (preserves_pure _) ?_)
  cases commanderClass jobId with
  | none => exact preserves_pure _
  | some classId =>
    refine .ite (preserves_pure _) (settled_r1emuGenerateRandom.bind fun pcId => ?_)
    exact settled_r1emuGenerateRandom64.bind fun socialInfoId =>
      (preserves_equipSlots (settled_createDefaultItem env) _ _).bind fun _ => preserves_pure _

theorem barrackHandlerCommanderCreate_settled (env : Env Key) (packet packetSize : ℕ) :
    Preserves (Settled barrack) (barrackHandlerCommanderCreate env packet packetSize) := by
  refine (preserves_require _ _).bind fun _ => (preserves_gets _).bind fun commanderIndex =>
    (preserves_gets _).bind fun accountSession => Preserves.bind ?_ fun empty => ?_
  · exact .ite (preserves_pure _) ((settled_commanderSlot _ _).bind fun _ => preserves_pure _)
  refine (preserves_require _ _).bind fun _ => (settled_newCommander env packet).bind
    fun created => ?_
  rcases created with msgType | commander
  · exact (settled_send _).bind fun _ => preserves_pure _
  · refine Preserves.bind ?_ fun inserted => ?_
    · exact (preserves_gets _).bind fun _ => (preserves_found _).bind fun eqSlots =>
        (settled_perform env (by exact trivial)).bind fun _ => preserves_pure _
    · cases inserted with
      | none => exact preserves_pure _
      | some commanderId =>
        refine Preserves.bind ?_ fun dup => ?_
        · exact (settled_allocate env).bind fun _ => .ite ((preserves_pure _).bind fun _ =>
            (settled_onHeap _).bind fun _ => preserves_pure _) (preserves_pure _)
        · cases dup with
          | none => exact preserves_pure _
          | some dupCommander =>
            exact (settled_setCommanderSlot _ _ _).bind fun _ =>
              (settled_send _).bind fun _ => preserves_pure _

/-- A request to start the game in the zone `routerId` gets to the move. -/
def MovesGame (w : World Key) (packet packetSize : ℕ) : Prop :=
  checkClientPacketSize PacketType.cbStartGame.size 3 packetSize = true ∧
    (∃ p, w.heap.slot w.session.game.accountSession.commanders
      (slotIndex (w.memory (packet + 2))) = some (some p)) ∧
    ∃ zoneServer, zoneServers[(UInt16.ofNat (leValue (w.memory.read packet 2))).toNat]? =
      some zoneServer ∧ UInt16.ofNat (leValue (w.memory.read packet 2)) ≠ w.session.socket.routerId

theorem startGameMove_settled (env : Env Key) {tmpSession : Session}
    (hrouter : tmpSession.socket.routerId = barrack) (hmap : tmpSession.socket.mapId = undefinedMap)
    (zoneServer : List UInt8 × ℕ) (commanderIndex : UInt8) :
    Preserves (Settled barrack) (startGameMove env tmpSession barrack zoneServer commanderIndex) := by
  have hkey : gameSessionKey tmpSession = ⟨barrack, undefinedMap, tmpSession.socket.accountId⟩ := by
    rw [gameSessionKey, hrouter, hmap]
  refine Preserves.bind ?_ fun moved => (preserves_require _ _).bind fun _ => ?_
  · exact (settled_perform env (by exact hkey)).bind fun _ => preserves_pure _
  · exact Preserves.bind settled_updateSession fun _ => (settled_commanderAt _).bind fun _ =>
      (settled_send _).bind fun _ => preserves_pure _

/-- Where the game is started in the barrack itself, or not at all. -/
theorem barrackHandlerStartGame_settled (env : Env Key) {packet packetSize : ℕ} {w : World Key}
    (hw : Settled barrack w) (hmoves : ¬ MovesGame w packet packetSize) :
    (barrackHandlerStartGame env packet packetSize).Sat w fun _ => Settled barrack := by
  simp only [barrackHandlerStartGame, sat_bind, sat_checkSize, sat_readU16, sat_readU8, sat_gets,
    sat_commanderSlot, sat_require, then_ok, then_error]
  refine ⟨fun hsize slot hslot => ⟨fun hsome => ?_, fun _ => hw⟩, fun _ => hw⟩
  cases hzone : zoneServers[(UInt16.ofNat (leValue (w.memory.read packet 2))).toNat]? with
  | none => exact preserves_pure _ w hw
  | some zoneServer =>
    obtain ⟨p, rfl⟩ := Option.isSome_iff_exists.mp hsome
    have hrouter : UInt16.ofNat (leValue (w.memory.read packet 2)) = barrack := by
      by_contra hne
      exact hmoves ⟨hsize, ⟨p, hslot⟩, zoneServer, hzone, fun he => hne (he.trans hw.routerId)⟩
    rw [hrouter]
    refine Preserves.bind (settled_redisUpdateSession env ?_ ?_) (fun saved => ?_) w hw
    · exact hw.routerId
    · exact hw.mapId
    · refine (preserves_require _ _).bind fun _ => startGameMove_settled env ?_ ?_ _ _
      · exact hw.routerId
      · exact hw.mapId

theorem barrackHandlers_settled {type : PacketType} {handler : Handler Key}
    (hhandler : barrackHandlers.lookup type = some handler) (env : Env Key)
    {packet packetSize : ℕ} {w : World Key} (hw : Settled barrack w)
    (hmoves : type = .cbStartGame → ¬ MovesGame w packet packetSize) :
    (handler env packet packetSize).Sat w fun _ => Settled barrack := by
  cases type <;> cases hhandler
  · exact barrackHandlerLogin_settled env packet packetSize w hw
  · exact barrackHandlerLoginByPassport_settled env packet packetSize w hw
  · exact barrackHandlerStartBarrack_settled env packet packetSize w hw
  · exact barrackHandlerCurrentBarrack_settled env packet packetSize w hw
  · exact barrackHandlerBarrackNameChange_settled env packet packetSize w hw
  · exact barrackHandlerCommanderCreate_settled env packet packetSize w hw
  · exact barrackHandlerCommanderDestroy_settled env packet packetSize w hw
  · exact barrackHandlerCommanderMove_settled env packet packetSize w hw
  · exact barrackHandlerStartGame_settled env hw (hmoves rfl)
  · exact barrackHandlerLogout_settled env packet packetSize w hw
  · exact barrackHandlerCheckClientIntegrity_settled env packet packetSize w hw

theorem processOneRequest_settled (env : Env Key) {handler : Handler Key} {packet packetSize : ℕ}
    {w : World Key}
    (hhandler : (handler env packet packetSize).Sat w fun _ => Settled barrack) :
    (processOneRequest env handler packet packetSize).Sat w fun _ => Settled barrack := by
  rw [processOneRequest, sat_bind, sat_call]
  refine hhandler.mono fun r w' hw' => ?_
  rw [then_ok]
  cases value r with
  | error => exact preserves_pure _ w' hw'
  | ok => exact preserves_pure _ w' hw'
  | updateSession =>
    rw [sat_bind, sat_gets, then_ok]
    exact (settled_redisUpdateSession env hw'.routerId hw'.mapId).bind
      (fun _ => preserves_pure _) w' hw'
  | deleteSession => exact preserves_fault w' hw'

/-! ### What a zone does before a session is moved to it -/

/-- The session of a client that has not connected to a zone. -/
structure Idle (session : Session) : Prop where
  commander : session.game.commanderSession.currentCommander = none
  privilege : ¬ session.game.accountSession.privilege ≤ privilegesAdmin

/-- The session and the databases are as they were, and nothing is to be saved. -/
def Quiet (handler : Handling Key PacketHandlerState) (w : World Key) : Prop :=
  handler.Sat w fun r w' => w'.session = w.session ∧ w'.writes = w.writes ∧
    value r ≠ .updateSession

theorem notify_quiet {type : PacketType} {structSize : ℕ} {event : ℕ → Handling Key (GameEvent Key)}
    (w : World Key) (hevent : ∀ packet, (event packet).Sat w fun _ _ => False) (env : Env Key)
    (packet packetSize : ℕ) : Quiet (notify type structSize event env packet packetSize) w := by
  simp only [Quiet, notify, sat_bind, sat_checkSize, then_ok, then_error]
  exact ⟨fun _ => (hevent packet).mono fun _ _ h => h.elim, fun _ => by simp⟩

theorem notImplemented_quiet (w : World Key) (env : Env Key) (packet packetSize : ℕ) :
    Quiet (notImplemented env packet packetSize) w := by
  simp [Quiet, notImplemented]

variable {w : World Key}

/-- Nothing has been moved to the zone, so that no account is found there. -/
theorem zoneHandlerConnect_quiet (env : Env Key) {routerId : UInt16}
    (hgames : AtBarrack barrack w.writes) (hzone : routerId ≠ barrack) (packet packetSize : ℕ) :
    Quiet (zoneHandlerConnect (env.withRedis routerId) packet packetSize) w := by
  have hnone : ∀ accountId, (redisOf w.writes).games ⟨routerId, undefinedMap, accountId⟩ = none := by
    intro accountId
    by_contra hsome
    have hkey := hgames.games _ (Option.isSome_iff_ne_none.mpr hsome)
    exact hzone (congrArg RedisGameSessionKey.routerId hkey)
  simp [Quiet, zoneHandlerConnect, loadGameSession, redisGetAccountSession, Env.withRedis, hnone]

theorem zoneHandlers_quiet [DecidableEq Key] {type : PacketType} {handler : Handler Key}
    (hhandler : zoneHandlers.lookup type = some handler) (env : Env Key) {routerId : UInt16}
    (hgames : AtBarrack barrack w.writes) (hzone : routerId ≠ barrack) (hidle : Idle w.session)
    (packet packetSize : ℕ) : Quiet (handler (env.withRedis routerId) packet packetSize) w := by
  have hcommander := hidle.commander
  have hprivilege := hidle.privilege
  cases type <;> cases hhandler
  case czConnect => exact zoneHandlerConnect_quiet env hgames hzone packet packetSize
  case czJump => exact notify_quiet w (fun _ => by simp [hcommander]) _ packet packetSize
  case czMoveStop => exact notify_quiet w (fun _ => by simp [hcommander]) _ packet packetSize
  case czRestSit => exact notify_quiet w (fun _ => by simp [hcommander]) _ packet packetSize
  case czHeadRotate => exact notify_quiet w (fun _ => by simp [hcommander]) _ packet packetSize
  case czRotate => exact notify_quiet w (fun _ => by simp [hcommander]) _ packet packetSize
  case czPose => exact notify_quiet w (fun _ => by simp [hcommander]) _ packet packetSize
  case czGameReady => simp [Quiet, zoneHandlerGameReady, hcommander]
  case czKeyboardMove =>
    simp [Quiet, zoneHandlerKeyboardMove, readPositionXYZ, readPositionXZ, hcommander]
  case czCampinfo => simp [Quiet, zoneHandlerCampInfo]
  case czLogout => simp [Quiet, zoneHandlerLogout, hcommander]
  case czSkillGround => simp [Quiet, zoneHandlerSkillGround, hcommander]
  case czChat => simp [Quiet, zoneHandlerChat, hcommander, hprivilege]
  case czItemDelete => simp [Quiet, zoneHandlerItemDelete, currentStore, hcommander]
  case czSwapEtcInvChangeIndex =>
    simp [Quiet, zoneHandlerSwapEtcInvChangeIndex, currentStore, hcommander]
  case czReqNormalTxNumarg => simp [Quiet, zoneHandlerReqNormalTxNumArg]
  case czDynamicCastingStart => simp [Quiet, zoneHandlerDynamicCastingStart, hcommander]
  all_goals exact notImplemented_quiet w _ packet packetSize

theorem processOneRequest_quiet (env : Env Key) {handler : Handler Key} {packet packetSize : ℕ}
    (hquiet : Quiet (handler env packet packetSize) w) :
    Quiet (processOneRequest env handler packet packetSize) w := by
  rw [Quiet, processOneRequest, sat_bind, sat_call]
  refine hquiet.mono ?_
  rintro r w' ⟨hsession, hwrites, hstate⟩
  rw [then_ok]
  cases hr : value r with
  | error => simpa using ⟨hsession, hwrites⟩
  | ok => simpa using ⟨hsession, hwrites⟩
  | updateSession => exact absurd hr hstate
  | deleteSession => simp

end R1Emu.Handler
