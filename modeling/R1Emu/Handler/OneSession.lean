import R1Emu.Handler.SettledSessions

/-!
# One game session for each account

As long as no request to start the game moves a session to a zone, every account has one game
session in Redis. A request that moves a session is followed by a save where it was, which
leaves a second key behind.
-/
namespace R1Emu.Handler
open R1Emu.Game R1Emu.Lib R1Emu.Lib.Stage R1Emu.Lib.Transition R1Emu.Lib.Bytes R1Emu.Packet
  R1Emu.Server

variable {Key : Type} {barrack : UInt16}

/-! ### The second key -/

/-- A key with a game session. -/
def Present (key : RedisGameSessionKey) (w : World Key) : Prop :=
  ((redisOf w.writes).games key).isSome

/-- The session is as it was, and no key is taken away. -/
structure Grows (w w' : World Key) : Prop where
  session : w'.session = w.session
  present : ∀ key, Present key w → Present key w'

theorem Grows.trans {w₁ w₂ w₃ : World Key} (h : Grows w₁ w₂) (h' : Grows w₂ w₃) : Grows w₁ w₃ :=
  ⟨h'.session.trans h.session, fun key hkey => h'.present key (h.present key hkey)⟩

theorem written_of_applied {env : Env Key} {w : World Key} {write : Write}
    (h : (env.write w.writes write).applied = true) :
    (w.written env write).writes = w.writes ++ [write] := by
  rw [written_writes, if_pos h]

/-- Setting fields leaves the key behind that it sets. -/
theorem perform_sets (env : Env Key) (routerId : UInt16) (w : World Key) {write : Write}
    {key : RedisGameSessionKey} {set : GameHash → GameHash} (hsets : write.sets = some (key, set)) :
    (perform (env.withRedis routerId) write).Sat w fun r w' =>
      (∃ answer : Answer, r = .ok answer ∧ answer.done = true) ∧ Present key w' ∧ Grows w w' := by
  have hanswer : ((env.withRedis routerId).write w.writes write).done = true ∧
      ((env.withRedis routerId).write w.writes write).applied = true := by
    cases write <;> cases hsets <;> exact ⟨rfl, rfl⟩
  have hgames : (redisOf (w.written (env.withRedis routerId) write).writes).games =
      Function.update (redisOf w.writes).games key
        (some (set (((redisOf w.writes).games key).getD .empty))) := by
    rw [written_of_applied hanswer.2, redisOf_concat, Redis.apply_of_sets _ hsets,
      Redis.hmset_games]
  rw [sat_perform]
  refine ⟨⟨_, rfl, hanswer.1⟩, ?_, written_session w _ write, fun other hother => ?_⟩
  · rw [Present, hgames, Function.update_self]
    rfl
  · rw [Present, hgames]
    by_cases hne : other = key
    · rw [hne, Function.update_self]
      rfl
    · rwa [Function.update_of_ne hne]

theorem redisUpdateSocketSession_grows (env : Env Key) (routerId : UInt16)
    (key : RedisSocketSessionKey) (socketSession : SocketSession) (w : World Key) :
    (redisUpdateSocketSession (env.withRedis routerId) key socketSession).Sat w fun r w' =>
      r = .ok true ∧ Grows w w' := by
  rw [redisUpdateSocketSession, sat_bind, sat_perform, then_ok, sat_pure]
  refine ⟨rfl, written_session w _ _, fun other hother => ?_⟩
  have happlied : ((env.withRedis routerId).write w.writes (.hmsetSocket key
    socketSession.accountId key.routerId socketSession.mapId socketSession.authenticated)).applied =
      true := rfl
  rw [Present, written_of_applied happlied, redisOf_concat]
  exact hother

/-- A save is always done, and leaves the session's key behind. -/
theorem redisUpdateSession_present (env : Env Key) (routerId : UInt16) (session : Session)
    (w : World Key) :
    (redisUpdateSession (env.withRedis routerId) session).Sat w fun r w' =>
      r = .ok true ∧ Present (gameSessionKey session) w' ∧ Grows w w' := by
  refine Sat.bind (redisUpdateSocketSession_grows env routerId _ _ w) (fun _ _ h => ?_)
    fun saved w₀ h₀ => ?_
  · cases h.1
  obtain ⟨hsaved, hsocket⟩ := h₀
  cases hsaved
  refine Sat.bind (perform_sets env routerId _ rfl) (fun _ _ h => ?_) fun account w₁ h₁ => ?_
  · obtain ⟨answer, hanswer, -⟩ := h.1
    cases hanswer
  obtain ⟨⟨_, hanswer, haccount⟩, hpresent, hgrows⟩ := h₁
  cases hanswer
  have hgrows₁ := hsocket.trans hgrows
  cases session.game.commanderSession.currentCommander with
  | none =>
    rw [sat_pure]
    exact ⟨congrArg _ haccount, hpresent, hgrows₁⟩
  | some p =>
    rw [sat_bind, sat_commanderAt]
    intro c _
    rw [then_ok]
    refine Sat.bind (perform_sets env routerId _ rfl) (fun _ _ h => ?_) fun commander w₂ h₂ => ?_
    · obtain ⟨answer, hanswer, -⟩ := h.1
      cases hanswer
    obtain ⟨⟨_, hanswer, hcommander⟩, -, hgrows₂⟩ := h₂
    cases hanswer
    rw [sat_bind, sat_gets, then_ok, sat_bind, sat_found]
    intro eqSlots _
    rw [then_ok]
    refine Sat.bind (perform_sets env routerId _ rfl) (fun _ _ h => ?_) fun equipment w₃ h₃ => ?_
    · obtain ⟨answer, hanswer, -⟩ := h.1
      cases hanswer
    obtain ⟨⟨_, hanswer, hequipment⟩, -, hgrows₃⟩ := h₃
    cases hanswer
    rw [sat_pure, haccount, hcommander, hequipment]
    exact ⟨rfl, hgrows₃.present _ (hgrows₂.present _ hpresent),
      (hgrows₁.trans hgrows₂).trans hgrows₃⟩

/-- A session that is there is moved. -/
theorem redisMoveGameSession_present (env : Env Key) (routerId : UInt16) {w : World Key}
    {source : RedisGameSessionKey} (target : RedisGameSessionKey) (hsource : Present source w) :
    (redisMoveGameSession (env.withRedis routerId) source target).Sat w fun r w' =>
      r = .ok true ∧ w'.session = w.session ∧ Present target w' := by
  obtain ⟨hash, hhash⟩ := Option.isSome_iff_exists.mp hsource
  rw [redisMoveGameSession, sat_bind, sat_perform, then_ok, sat_pure]
  refine ⟨congrArg Except.ok hsource, written_session w _ _, ?_⟩
  have happlied : ((env.withRedis routerId).write w.writes (.rename source target)).applied =
      true := hsource
  rw [Present, written_of_applied happlied, redisOf_concat]
  exact Option.isSome_iff_exists.mpr ⟨hash, Redis.rename_games_target hhash target⟩

/-- The session has been moved to the zone when the handler asks for the save. -/
theorem barrackHandlerStartGame_moves (env : Env Key) (routerId : UInt16) {w : World Key}
    {packet packetSize : ℕ} (hmoves : MovesGame w packet packetSize) :
    (barrackHandlerStartGame (env.withRedis routerId) packet packetSize).Sat w fun r w' =>
      value r = .updateSession ∧ w'.session.socket = w.session.socket ∧
        Present ⟨UInt16.ofNat (leValue (w.memory.read packet 2)), undefinedMap,
          w.session.socket.accountId⟩ w' := by
  obtain ⟨hsize, ⟨p, hp⟩, zoneServer, hzone, hne⟩ := hmoves
  simp only [barrackHandlerStartGame, sat_bind, sat_checkSize, sat_readU16, sat_readU8, sat_gets,
    sat_commanderSlot, sat_require, then_ok, then_error, hp, Option.some.injEq, forall_eq']
  refine ⟨fun _ => ⟨fun _ => ?_, fun h => by cases h⟩, fun h => by rw [hsize] at h; cases h⟩
  rw [hzone]
  refine Sat.bind (redisUpdateSession_present env routerId _ w) (fun _ _ h => ?_)
    fun saved w₁ h₁ => ?_
  · cases h.1
  obtain ⟨hsaved, hpresent, hgrows⟩ := h₁
  cases hsaved
  rw [sat_bind, sat_require]
  refine ⟨fun _ => ?_, fun h => by cases h⟩
  rw [then_ok, startGameMove]
  refine Sat.bind (redisMoveGameSession_present env routerId _ hpresent) (fun _ _ h => ?_)
    fun moved w₂ h₂ => ?_
  · cases h.1
  obtain ⟨hmoved, hsession, htarget⟩ := h₂
  cases hmoved
  simp only [sat_bind, sat_require, then_ok, then_error, sat_updateSession, sat_commanderAt,
    sat_send, sat_pure, value_ok]
  refine ⟨fun _ c _ => ⟨trivial, ?_, htarget⟩, fun h => by cases h⟩
  exact congrArg Session.socket (hsession.trans hgrows.session)

/-- Then the session is saved where it was. -/
theorem processOneRequest_moves (env : Env Key) (routerId : UInt16) {w : World Key}
    {packet packetSize : ℕ} (hmoves : MovesGame w packet packetSize) :
    (processOneRequest (env.withRedis routerId) barrackHandlerStartGame packet packetSize).Sat w
      fun _ w' => Present (gameSessionKey w.session) w' ∧
        Present ⟨UInt16.ofNat (leValue (w.memory.read packet 2)), undefinedMap,
          w.session.socket.accountId⟩ w' := by
  rw [processOneRequest, sat_bind, sat_call]
  refine (barrackHandlerStartGame_moves env routerId hmoves).mono ?_
  rintro r w' ⟨hstate, hsocket, htarget⟩
  rw [then_ok, hstate, sat_bind, sat_gets, then_ok]
  refine Sat.bind (redisUpdateSession_present env routerId _ w') (fun _ _ h => ?_)
    fun saved w₁ h₁ => ?_
  · cases h.1
  · have hkey : gameSessionKey w'.session = gameSessionKey w.session := by
      rw [gameSessionKey, hsocket]
      rfl
    rw [sat_pure, ← hkey]
    exact ⟨h₁.2.1, h₁.2.2.present _ htarget⟩

/-! ### Runs -/

/-- The session belongs to the barrack, or has not connected to its zone. -/
structure Fits (barrack routerId : UInt16) (session : Session) : Prop where
  settled : routerId = barrack →
    session.socket.routerId = barrack ∧ session.socket.mapId = undefinedMap
  idle : routerId ≠ barrack → Idle session

/-- Redis has sessions of the barrack only, and every server has sessions that fit it. -/
structure RealmInv (barrack : UInt16) (s : Realm Key) : Prop where
  writes : AtBarrack barrack s.writes
  sessions : ∀ routerId sessionKey session, s.sessions routerId sessionKey = some session →
    Fits barrack routerId session
  left : ∀ routerId sessionKey session, s.left routerId sessionKey = some session →
    Fits barrack routerId session

theorem sessionNew_fits (beyond : ℕ → UInt8) (barrack routerId : UInt16) (sessionKey : Chars 11) :
    Fits barrack routerId (sessionNew beyond routerId sessionKey) where
  settled hrouter := ⟨hrouter, rfl⟩
  idle _ := by
    refine ⟨rfl, ?_⟩
    change ¬ privilegesPlayer ≤ privilegesAdmin
    decide

/-- An entry of a table is the one that was put in, or another one. -/
theorem update₂_eq_some {α β γ : Type} [DecidableEq α] [DecidableEq β] {f : α → β → Option γ}
    {a a' : α} {b b' : β} {c : Option γ} {c' : γ} (h : update₂ f a b c a' b' = some c') :
    a' = a ∧ c = some c' ∨ f a' b' = some c' := by
  unfold update₂ at h
  by_cases ha : a' = a
  · subst ha
    rw [Function.update_self] at h
    by_cases hb : b' = b
    · subst hb
      rw [Function.update_self] at h
      exact .inl ⟨rfl, h⟩
    · rw [Function.update_of_ne hb] at h
      exact .inr h
  · rw [Function.update_of_ne ha] at h
    exact .inr h

variable {s : Realm Key}

theorem RealmInv.session_fits (h : RealmInv barrack s) (beyond : ℕ → UInt8)
    (request : ClientRequest) : Fits barrack request.routerId (s.session beyond request) := by
  rw [Realm.session]
  cases hsession : s.session? request with
  | none => exact sessionNew_fits beyond barrack _ _
  | some session =>
    rw [Realm.session?] at hsession
    split at hsession
    · rcases hleft : s.left request.routerId request.sessionKey with _ | left
      · rw [hleft] at hsession
        exact h.sessions _ _ _ hsession
      · rw [hleft] at hsession
        cases hsession
        exact h.left _ _ _ hleft
    · exact h.sessions _ _ _ hsession

theorem RealmInv.store (h : RealmInv barrack s) {routerId : UInt16} {sessionKey : Chars 11}
    {session : Session} (hfits : Fits barrack routerId session) :
    RealmInv barrack (s.store routerId sessionKey session) where
  writes := h.writes
  left := h.left
  sessions routerId' sessionKey' session' hsession := by
    rcases update₂_eq_some hsession with ⟨rfl, hsome⟩ | hsession
    · cases hsome
      exact hfits
    · exact h.sessions _ _ _ hsession

theorem RealmInv.processed (h : RealmInv barrack s) {request : ClientRequest}
    {state : PacketHandlerState} {w : World Key} (hwrites : AtBarrack barrack w.writes)
    (hfits : Fits barrack request.routerId w.session) :
    RealmInv barrack (s.processed request state w) where
  writes := hwrites
  sessions routerId sessionKey session hsession := by
    simp only [Realm.processed] at hsession
    split at hsession
    · rcases update₂_eq_some hsession with ⟨rfl, hsome⟩ | hsession
      · cases hsome
        exact hfits
      · exact h.sessions _ _ _ hsession
    · exact h.sessions _ _ _ hsession
  left routerId sessionKey session hsession := by
    rcases update₂_eq_some hsession with ⟨rfl, hsome⟩ | hsession
    · split at hsome
      · cases hsome
      · cases hsome
        exact hfits
    · exact h.left _ _ _ hsession

/-- The request starts the game in a zone. -/
def StartsGame (barrack : UInt16) (beyond : ℕ → UInt8) (s : Realm Key) (request : ClientRequest) :
    Prop :=
  request.routerId = barrack ∧ request.type = .cbStartGame ∧
    MovesGame (s.world beyond request) request.packet request.packetSize

variable [DecidableEq Key] {env : Env Key} {beyond : ℕ → UInt8}

theorem realmStep_inv {request : ClientRequest} {s' : Realm Key} (h : RealmInv barrack s)
    (hstarts : ¬ StartsGame barrack beyond s request)
    (hstep : realmStep env barrack beyond s request = some s') : RealmInv barrack s' := by
  have hfits := h.session_fits beyond request
  have hstore : RealmInv barrack
      (s.store request.routerId request.sessionKey (s.session beyond request)) := h.store hfits
  unfold realmStep at hstep
  cases hhandler : (packetHandlers barrack request.routerId request.type : Option (Handler Key)) with
  | none =>
    rw [hhandler] at hstep
    cases hstep
    exact hstore.processed h.writes hfits
  | some handler =>
    rw [hhandler] at hstep
    obtain ⟨⟨state, w⟩, hrun, hstep⟩ := Option.bind_eq_some_iff.mp hstep
    cases hstep
    by_cases hrouter : request.routerId = barrack
    · rw [packetHandlers, if_pos hrouter] at hhandler
      obtain ⟨hrouterId, hmapId⟩ := hfits.settled hrouter
      have hsettled : Settled barrack (s.world beyond request) := ⟨h.writes, hrouterId, hmapId⟩
      have hhandled : (handler (env.withRedis request.routerId) request.packet
          request.packetSize).Sat (s.world beyond request) fun _ => Settled barrack :=
        barrackHandlers_settled hhandler _ hsettled
          fun htype hmoves => hstarts ⟨hrouter, htype, hmoves⟩
      have hw := (sat_iff_run _ _ fun _ => Settled barrack).mp
        (processOneRequest_settled _ hhandled) _ _ hrun
      exact hstore.processed hw.writes ⟨fun _ => ⟨hw.routerId, hw.mapId⟩, absurd hrouter⟩
    · rw [packetHandlers, if_neg hrouter] at hhandler
      have hquiet : Quiet (handler (env.withRedis request.routerId) request.packet
          request.packetSize) (s.world beyond request) :=
        zoneHandlers_quiet hhandler env h.writes hrouter (hfits.idle hrouter) _ _
      obtain ⟨hsession, hwrites, -⟩ := (sat_iff_run _ _ fun (state : PacketHandlerState)
          (w' : World Key) =>
        w'.session = (s.world beyond request).session ∧
          w'.writes = (s.world beyond request).writes ∧ state ≠ .updateSession).mp
            (processOneRequest_quiet _ hquiet) _ _ hrun
      exact hstore.processed (hwrites ▸ h.writes) (hsession ▸ hfits)

theorem realm_inductive : Inductive (realm env barrack beyond)
    (fun s request => ¬ StartsGame barrack beyond s request) (RealmInv barrack) where
  init s hs := by
    obtain ⟨heap, rfl⟩ := hs
    exact ⟨.nil, by simp [emptyRealm], by simp [emptyRealm]⟩
  step _ _ _ h hstarts hstep := realmStep_inv h hstarts hstep

/-- Where a session is moved, two keys are left. -/
theorem realmStep_startsGame {request : ClientRequest} {s' : Realm Key}
    (hstarts : StartsGame barrack beyond s request)
    (hstep : realmStep env barrack beyond s request = some s') : ¬ OneGameSession s'.writes := by
  obtain ⟨hrouter, htype, hmoves⟩ := hstarts
  have hhandler : (packetHandlers barrack request.routerId request.type : Option (Handler Key)) =
      some barrackHandlerStartGame := by
    rw [packetHandlers, if_pos hrouter, htype]
    rfl
  unfold realmStep at hstep
  rw [hhandler] at hstep
  obtain ⟨⟨state, w⟩, hrun, hstep⟩ := Option.bind_eq_some_iff.mp hstep
  cases hstep
  obtain ⟨hsource, htarget⟩ := (sat_iff_run _ _ fun _ (w' : World Key) =>
    Present (gameSessionKey (s.world beyond request).session) w' ∧ Present _ w').mp
      (processOneRequest_moves env request.routerId hmoves) _ _ hrun
  obtain ⟨-, -, zoneServer, -, hne⟩ := hmoves
  intro hone
  have hkeys := hone.unique _ _ htarget hsource rfl
  exact hne (congrArg RedisGameSessionKey.routerId hkeys)

/-- In every run in which no request starts the game in a zone, every account has one game
session; the first such request leaves a second one. -/
theorem one_game_session {s : Realm Key} (hs : ReachableUnder (realm env barrack beyond)
    (fun s request => ¬ StartsGame barrack beyond s request) s) :
    OneGameSession s.writes ∧
      ∀ request s', (realm env barrack beyond).step s request = some s' →
        (OneGameSession s'.writes ↔ ¬ StartsGame barrack beyond s request) := by
  have hinv := realm_inductive.reachable hs
  refine ⟨hinv.writes.oneGameSession, fun request s' hstep =>
    ⟨fun hone hstarts => ?_, fun hstarts => ?_⟩⟩
  · exact realmStep_startsGame hstarts hstep hone
  · exact (realmStep_inv hinv hstarts hstep).writes.oneGameSession

/-! ### One account starts the game -/

/-- The account 7 has one commander, with an item in every slot. -/
def oneAccountEnv : Env UInt64 :=
  { deafEnv with
    staticData := ⟨fun _ => some "Equip", fun _ => none⟩
    selectAccount := fun _ _ _ => .success (some [⟨7, false, 0, 0, 3, [], 0⟩])
    selectCommanders := fun _ _ => .success (some [(1,
      { accountId := 7, commanderName := [], level := 1, exp := 0, gender := 1, jobId := 0,
        classId := 0, hairId := 0, mapId := 1021, position := startPosition,
        barrackPosition := startPosition, hp := 1, mp := 1, eqSlots := fun _ => 2 })]) }

/-- A request to the barrack 1000. The packet starts with the bytes of `data`. -/
def barrackRequest (type : PacketType) (data : List UInt8) (packetSize : ℕ) : ClientRequest where
  routerId := 1000
  sessionKey := Vector.replicate 11 0
  continues := false
  type := type
  memory i := data.getD i 0
  packet := 0
  packetSize := packetSize
  seed := 0

/-- The client logs in, starts the barrack, and starts the game with the first commander in
the zone 0. -/
def startGameRun : List ClientRequest :=
  [barrackRequest .cbLogin [] 56, barrackRequest .cbStartBarrack [] 0,
    barrackRequest .cbStartGame [0, 0, 1] 3]

def emptyRealm₀ : Realm UInt64 := emptyRealm fun _ => emptyWorld.heap

/-- Whether the account 7 has a game session under the key. -/
def hasKey (s : Realm UInt64) (routerId : UInt16) : Bool :=
  ((redisOf s.writes).games ⟨routerId, undefinedMap, 7⟩).isSome

/-- Once the client has logged in, its account has one game session. -/
theorem one_game_session_after_login :
    ∃ s, (realm oneAccountEnv 1000 fun _ => 0).run emptyRealm₀ [barrackRequest .cbLogin [] 56] =
      some s ∧ OneGameSession s.writes ∧ hasKey s 1000 = true := by
  have hrun : ((realm oneAccountEnv 1000 fun _ => 0).run emptyRealm₀
      [barrackRequest .cbLogin [] 56]).map (hasKey · 1000) = some true := by decide +kernel
  obtain ⟨s, hs, hkey⟩ := Option.map_eq_some_iff.mp hrun
  refine ⟨s, hs, (one_game_session (ReachableUnder.run (.init ⟨_, rfl⟩) _ ?_ hs)).1, hkey⟩
  refine ⟨?_, fun _ _ => trivial⟩
  rintro ⟨-, htype, -⟩
  cases htype

/-- Once it has started the game, the account has two: in the zone, and in the barrack. -/
theorem start_game_leaves_two_sessions :
    ∃ s, (realm oneAccountEnv 1000 fun _ => 0).run emptyRealm₀ startGameRun = some s ∧
      hasKey s 1000 = true ∧ hasKey s 0 = true ∧ ¬ OneGameSession s.writes := by
  have hrun : ((realm oneAccountEnv 1000 fun _ => 0).run emptyRealm₀ startGameRun).map
      (fun s => hasKey s 1000 && hasKey s 0) = some true := by decide +kernel
  obtain ⟨s, hs, hkeys⟩ := Option.map_eq_some_iff.mp hrun
  obtain ⟨hbarrack, hzone⟩ := Bool.and_eq_true_iff.mp hkeys
  refine ⟨s, hs, hbarrack, hzone, fun hone => ?_⟩
  have hsame := hone.unique _ _ hbarrack hzone rfl
  cases congrArg RedisGameSessionKey.routerId hsame

end R1Emu.Handler
