import R1Emu.Game.Equipment
import R1Emu.Game.Redis
import R1Emu.Handler.ErrorDefects
import R1Emu.Handler.SessionRun

/-!
# The end of a connection

When a connection ends, the event server of the zone loads the client's game session, tells the
others that the client leaves, and deletes the client's keys from Redis. A socket session that
is missing is made on the way, and a game session that cannot be loaded ends the handler early.
Commands on a map are always answered, and the answer of the other database, which the
commander is saved to, is ignored.
-/
namespace R1Emu.Zone
open R1Emu.Actor R1Emu.Game R1Emu.Lib R1Emu.Lib.Stage
open R1Emu.Commander (eqSlotCount)
open R1Emu.Handler (undefinedAccount deafEnv emptyWorld)

variable {Key : Type}

/-- What Redis holds, and the world in which a game session is loaded. -/
structure Disconnection (Key : Type) where
  redis : Redis
  world : World Key

/-- The fields of a game session, when none of them is missing. -/
def allFields (hash : GameHash) : Option GameFields := do
  return ⟨← hash.account, ← hash.commander, ← hash.equipment⟩

/-- `HMGET` of a game session. -/
def gameFields (redis : Redis) (key : RedisGameSessionKey) : Option GameFields :=
  (redis.games key).bind allFields

/-- The environment of the event server, which reads what Redis holds. -/
def reading (env : Env Key) (redis : Redis) : Env Key :=
  { env with hmgetGame := fun _ key => .array (gameFields redis key) }

abbrev Disconnecting (Key : Type) := Stage (Disconnection Key) Bool

/-- What a function does in the world. It does not leave the handler. -/
def inWorld {α : Type} (m : Handling Key α) : Disconnecting Key α := fun s =>
  match m s.world with
  | some (.ok a, world) => some (.ok a, { s with world })
  | _ => none

def redisUpdateSocketSession (key : RedisSocketSessionKey) (socketSession : SocketHash) :
    Disconnecting Key Unit :=
  modify fun s => { s with redis := { s.redis with
    sockets := Function.update s.redis.sockets key (some socketSession) } }

/-- A socket session that does not exist is made, and set. -/
def redisGetSocketSession (key : RedisSocketSessionKey) : Disconnecting Key SocketHash := do
  match (← gets (·.redis)).sockets key with
  | some socketSession => return socketSession
  | none =>
    let socketSession := ⟨undefinedAccount, key.routerId, undefinedMap, false⟩
    redisUpdateSocketSession key socketSession
    return socketSession

def redisGetGameSessionBySocketId (env : Env Key) (key : RedisSocketSessionKey) :
    Disconnecting Key (Option GameSession) := do
  let socketSession ← redisGetSocketSession key
  let redis ← gets (·.redis)
  inWorld (redisGetGameSession (reading env redis) socketSession.gameKey)

def redisFlushGameSession (key : RedisGameSessionKey) : Disconnecting Key Unit :=
  modify fun s => { s with redis := { s.redis with
    games := Function.update s.redis.games key none } }

def redisFlushSocketSession (key : RedisSocketSessionKey) : Disconnecting Key Unit :=
  modify fun s => { s with redis := { s.redis with
    sockets := Function.update s.redis.sockets key none } }

def redisFlushSession (key : RedisSocketSessionKey) : Disconnecting Key Unit := do
  let socketSession ← redisGetSocketSession key
  redisFlushGameSession socketSession.gameKey
  redisFlushSocketSession key

/-- `EVENT_TYPE_LEAVE`, from the client whose connection ended. -/
def dispatchLeave (sessionKeyStr : Chars 11) (pcId : UInt32) : Disconnecting Key Unit :=
  inWorld (modify fun w => { w with events := w.events ++ [(sessionKeyStr, .leave pcId)] })

def zoneEventServerOnDisconnect (env : Env Key) (routerId : UInt16) (sessionKeyStr : Chars 11) :
    Disconnecting Key Bool := do
  let key := ⟨routerId, cString sessionKeyStr.toList⟩
  match ← redisGetGameSessionBySocketId env key with
  | none => return false
  | some gameSession =>
    let commander ← inWorld (commanderAt gameSession.commanderSession.currentCommander)
    dispatchLeave sessionKeyStr commander.pcId
    redisFlushSession key
    return true

/-! ### What the end of a connection should do -/

/-- A client, by its server and the key of its session there. -/
structure Client where
  routerId : UInt16
  sessionKeyStr : Chars 11

def Client.socketKey (self : Client) : RedisSocketSessionKey :=
  ⟨self.routerId, cString self.sessionKeyStr.toList⟩

/-- The key of the game session that the socket session names. -/
def gameKey? (redis : Redis) (key : RedisSocketSessionKey) : Option RedisGameSessionKey :=
  (redis.sockets key).map SocketHash.gameKey

/-- The commander that the client has in the game. -/
def commander? (redis : Redis) (key : RedisSocketSessionKey) : Option CommanderFields := do
  let hash ← redis.games (← gameKey? redis key)
  hash.commander

/-- The keys of the client are gone, all others are as they were, and those of other clients
too, and a commander that was in the game leaves. -/
structure CleanedUp (client : Client) (s s' : Disconnection Key) : Prop where
  socket : s'.redis.sockets client.socketKey = none
  game : ∀ key, gameKey? s.redis client.socketKey = some key → s'.redis.games key = none
  otherSockets : ∀ other ≠ client.socketKey, s'.redis.sockets other = s.redis.sockets other
  otherGames : ∀ key, gameKey? s.redis client.socketKey ≠ some key →
    s'.redis.games key = s.redis.games key
  othersGames : ∀ other ≠ client.socketKey, ∀ key, gameKey? s.redis other = some key →
    s'.redis.games key = s.redis.games key
  leave : s'.world.events = s.world.events ++
    ((commander? s.redis client.socketKey).map fun c =>
      (client.sessionKeyStr, GameEvent.leave c.pcId)).toList

/-- The handler gets to its end, and cleans up. -/
def CleansUp (env : Env Key) (client : Client) (s : Disconnection Key) : Prop :=
  ∃ result s', (zoneEventServerOnDisconnect env client.routerId client.sessionKeyStr).run s =
    some (result, s') ∧ CleanedUp client s s'

/-- There are static data for the item, of a category that items can be made of. -/
def Creatable (env : Env Key) (id : UInt32) : Prop :=
  ((itemFactoryGetCategoryFromId env.staticData id).bind (·.emptyBody)).isSome = true

/-- There is memory for the commander, and each item that is equipped can be made. -/
def Loadable (env : Env Key) (attempts : ℕ) (equipment : Fin eqSlotCount → UInt32) : Prop :=
  env.allocates attempts = true ∧ ∀ slot : Fin eqSlotCount,
    Creatable env (equipment slot) ∧ env.allocates (attempts + 1 + slot) = true

/-- The client has a socket session, no field of the game session that it names is missing, the
commander with its equipment can be loaded, and nobody else has this game session. -/
def InGame (env : Env Key) (client : Client) (s : Disconnection Key) : Prop :=
  ∃ socket fields, s.redis.sockets client.socketKey = some socket ∧
    gameFields s.redis socket.gameKey = some fields ∧
    Loadable env s.world.heap.attempts fields.equipment ∧
    ∀ other ≠ client.socketKey, gameKey? s.redis other ≠ some socket.gameKey

/-! ### Loading -/

section Loading
variable {env : Env Key} {w w' w'' : World Key}

/-- The events are as they were, and so are the commanders. -/
structure Beside (w w' : World Key) : Prop where
  events : w'.events = w.events
  commanders : w'.heap.commanders = w.heap.commanders

theorem Beside.refl (w : World Key) : Beside w w := ⟨rfl, rfl⟩

theorem Beside.trans (h : Beside w w') (h' : Beside w' w'') : Beside w w'' :=
  ⟨h'.events.trans h.events, h'.commanders.trans h.commanders⟩

/-- An item is made when it can be, and takes one allocation. -/
theorem itemFactoryCreate_sat (env : Env Key) (id : UInt32) (w : World Key) :
    (itemFactoryCreate env id 1).Sat w fun r w' => Beside w w' ∧ ∃ item, r = .ok item ∧
      (item.isSome = true ↔ Creatable env id ∧ env.allocates w.heap.attempts = true) ∧
      (item.isSome = true → w'.heap.attempts = w.heap.attempts + 1) := by
  rw [itemFactoryCreate, Creatable]
  cases hcategory : itemFactoryGetCategoryFromId env.staticData id with
  | none => simpa using Beside.refl w
  | some category =>
    simp only [sat_bind, onHeap, sat_act, then_ok, sat_allocate, sat_ite, sat_pure]
    refine ⟨fun hallocates => ?_, fun hallocates => ⟨⟨rfl, rfl⟩, none, rfl, by simp [hallocates],
      by simp⟩⟩
    rw [itemInit]
    cases hbody : category.emptyBody with
    | none => exact (sat_pure _ _ _).mpr ⟨⟨rfl, rfl⟩, none, rfl, by simp [hbody], by simp⟩
    | some body =>
      simp only [Option.map_some, sat_bind, sat_act, then_ok, sat_pure, Heap.newItem]
      exact ⟨⟨rfl, rfl⟩, _, rfl, by simp [hbody, hallocates], fun _ => trivial⟩

theorem total_getRedisEquipment (env : Env Key) (equipment : Fin eqSlotCount → UInt32)
    (slots : List (Fin eqSlotCount)) (equippedItems : UInt8 → Option Commander.ItemPtr) :
    Total (getRedisEquipment env equipment slots equippedItems) := by
  induction slots generalizing equippedItems with
  | nil => exact total_pure _
  | cons slot slots ih =>
    rw [getRedisEquipment]
    refine (total_itemFactoryCreate env _ 1).bind fun item => ?_
    cases item with
    | none => exact total_pure _
    | some item => exact ih _

/-- The equipment can be loaded when each item can. -/
theorem getRedisEquipment_sat (env : Env Key) (equipment : Fin eqSlotCount → UInt32)
    (slots : List (Fin eqSlotCount)) (equippedItems : UInt8 → Option Commander.ItemPtr)
    (w : World Key) : (getRedisEquipment env equipment slots equippedItems).Sat w fun r w' =>
      Beside w w' ∧ ∃ loaded, r = .ok loaded ∧ (loaded.isSome = true ↔
        ∀ i (hi : i < slots.length), Creatable env (equipment slots[i]) ∧
          env.allocates (w.heap.attempts + i) = true) := by
  induction slots generalizing equippedItems w with
  | nil =>
    rw [getRedisEquipment, sat_pure]
    exact ⟨.refl w, _, rfl, by simp⟩
  | cons slot slots ih =>
    rw [getRedisEquipment, sat_bind]
    refine (itemFactoryCreate_sat env _ w).mono ?_
    rintro _ w₁ ⟨hbeside, item, rfl, hitem, hattempts⟩
    rw [then_ok]
    cases item with
    | none =>
      rw [sat_pure]
      refine ⟨hbeside, none, rfl, iff_of_false Bool.false_ne_true fun hall => ?_⟩
      exact Bool.false_ne_true (hitem.mpr (hall 0 (Nat.zero_lt_succ _)))
    | some item =>
      have hfirst := hitem.mp rfl
      refine (ih _ w₁).mono ?_
      rintro r w₂ ⟨hbeside', loaded, rfl, hloaded⟩
      refine ⟨hbeside.trans hbeside', loaded, rfl, hloaded.trans ?_⟩
      rw [hattempts rfl]
      constructor
      · rintro hrest (_ | i) hi
        · exact hfirst
        · have hnext := hrest i (Nat.lt_of_succ_lt_succ hi)
          rwa [Nat.add_assoc, Nat.add_comm 1 i] at hnext
      · intro hall i hi
        have hnext := hall (i + 1) (Nat.succ_lt_succ hi)
        refine ⟨hnext.1, ?_⟩
        rw [Nat.add_assoc, Nat.add_comm 1 i]
        exact hnext.2

/-- The item in the slot has the id. -/
def Bears (h : Heap Key) (equipment : Fin eqSlotCount → UInt32)
    (equippedItems : UInt8 → Option Commander.ItemPtr) (slot : Fin eqSlotCount) : Prop :=
  ∃ p, equippedItems (UInt8.ofNat slot) = some p ∧ p < h.nextItem ∧ (h.item p).id = equipment slot

theorem Bears.restocked {h h' : Heap Key} {equipment : Fin eqSlotCount → UInt32}
    {equippedItems : UInt8 → Option Commander.ItemPtr} {slot : Fin eqSlotCount}
    (hbears : Bears h equipment equippedItems slot) (hr : Restocked h h') :
    Bears h' equipment equippedItems slot := by
  obtain ⟨p, hp, hlt, hid⟩ := hbears
  exact ⟨p, hp, hlt.trans_le hr.items, (congrArg Item.id (hr.item p hlt)).trans hid⟩

theorem ofNat_slot_injective {slot slot' : Fin eqSlotCount}
    (h : UInt8.ofNat slot = UInt8.ofNat slot') : slot = slot' := by
  revert slot slot'
  decide

/-- The equipment that is loaded has the ids. -/
theorem getRedisEquipment_bears (env : Env Key) (equipment : Fin eqSlotCount → UInt32)
    (slots : List (Fin eqSlotCount)) {equippedItems : UInt8 → Option Commander.ItemPtr}
    {w : World Key} (h : ∀ slot ∉ slots, Bears w.heap equipment equippedItems slot) :
    (getRedisEquipment env equipment slots equippedItems).Sat w fun r w' =>
      ∀ loaded, r = .ok (some loaded) → ∀ slot, Bears w'.heap equipment loaded slot := by
  induction slots generalizing equippedItems w with
  | nil =>
    rw [getRedisEquipment, sat_pure]
    rintro _ ⟨⟩ slot
    exact h slot List.not_mem_nil
  | cons slot slots ih =>
    rw [getRedisEquipment, sat_bind]
    refine (itemFactoryCreate_restocked env _ 1 w).mono ?_
    rintro _ w₁ ⟨hr, item, rfl, hitem⟩
    rw [then_ok]
    cases item with
    | none =>
      rw [sat_pure]
      rintro _ ⟨⟩
    | some p =>
      obtain ⟨-, hlt, -, hid⟩ := hitem p rfl
      refine ih fun slot' hslot' => ?_
      by_cases heq : slot' = slot
      · subst heq
        exact ⟨p, Function.update_self .., hlt, hid⟩
      · obtain ⟨q, hq, hbears⟩ := (h slot' (by simp [heq, hslot'])).restocked hr
        refine ⟨q, ?_, hbears⟩
        rw [Function.update_of_ne fun hslot => heq (ofNat_slot_injective hslot), hq]

/-- A game session with these fields, whose commander wears items with their ids. -/
structure Loaded (fields : GameFields) (gameSession : GameSession) (h : Heap Key) : Prop where
  accountSession : gameSession.accountSession =
    { AccountSession.zero with
      accountName := strncpy 33 fields.account.accountName
      sessionKey := strncpy 11 fields.account.sessionKey
      privilege := fields.account.privilege
      commandersCountMax := fields.account.commandersCountMax }
  commander : ∃ equippedItems,
    gameSession.commanderSession.currentCommander.bind h.commander =
      some (fields.commander.toCommander equippedItems) ∧
    ∀ slot, Bears h fields.equipment equippedItems slot

theorem reading_hmgetGame {redis : Redis} {key : RedisGameSessionKey} {fields : GameFields}
    (h : gameFields redis key = some fields) (writes : List Write) :
    (reading env redis).hmgetGame writes key = .array (some fields) := congrArg _ h

/-- A game session with a missing field is not loaded. -/
theorem redisGetGameSession_missing {redis : Redis} {key : RedisGameSessionKey}
    (h : gameFields redis key = none) :
    redisGetGameSession (reading env redis) key w = some (.ok none, w) := by
  have hread : (reading env redis).hmgetGame w.writes key = .array none := congrArg _ h
  rw [redisGetGameSession]
  refine (bind_ok rfl _).trans ?_
  rw [hread]
  rfl

/-- Without memory for the commander, a null pointer is followed. -/
theorem redisGetGameSession_fault {key : RedisGameSessionKey} {fields : GameFields}
    (hread : env.hmgetGame w.writes key = .array (some fields))
    (hmemory : env.allocates w.heap.attempts = false) : redisGetGameSession env key w = none := by
  have hnew : commanderNew env w = some (.ok none,
      { w with heap := { w.heap with attempts := w.heap.attempts + 1 } }) := by
    rw [commanderNew]
    refine (bind_ok rfl _).trans ?_
    exact congrFun (if_neg (ne_true_of_eq_false hmemory)) _
  rw [redisGetGameSession]
  refine (bind_ok rfl _).trans ?_
  rw [hread]
  exact (bind_ok hnew _).trans rfl

/-- The game session that is loaded has the fields that Redis holds. -/
theorem redisGetGameSession_loads {key : RedisGameSessionKey} {fields : GameFields}
    (hread : env.hmgetGame w.writes key = .array (some fields))
    (hmemory : env.allocates w.heap.attempts = true) :
    (redisGetGameSession env key).Ends w fun r w' => w'.events = w.events ∧
      ∃ game, r = .ok game ∧
        (game.isSome = true ↔ Loadable env w.heap.attempts fields.equipment) ∧
        ∀ gameSession, game = some gameSession → Loaded fields gameSession w'.heap := by
  have hnew : commanderNew env w = some (.ok (some w.heap.commanders.length),
      { w with heap := ({ w.heap with attempts := w.heap.attempts + 1 }.newCommander
        commanderInit).2 }) := by
    rw [commanderNew]
    refine (bind_ok rfl _).trans ?_
    exact congrFun (if_pos hmemory) _
  have hequipment := (total_getRedisEquipment env fields.equipment
    (List.finRange eqSlotCount) fun _ => none).ends (getRedisEquipment_sat _ _ _ _
      { w with heap := ({ w.heap with attempts := w.heap.attempts + 1 }.newCommander
        commanderInit).2 })
  obtain ⟨r, w', hrun, hbeside, loaded, rfl, hloaded⟩ := hequipment
  have hloadable : loaded.isSome = true ↔ Loadable env w.heap.attempts fields.equipment := by
    rw [hloaded, Loadable]
    constructor
    · intro hall
      refine ⟨hmemory, fun slot => ?_⟩
      have hslot := hall slot (by rw [List.length_finRange]; exact slot.2)
      rwa [List.getElem_finRange] at hslot
    · rintro ⟨-, hall⟩ i hi
      rw [List.getElem_finRange]
      exact hall _
  cases loaded with
  | none =>
    refine ⟨.ok none, w', ?_, hbeside.events, none, rfl, hloadable, fun _ hnone => by cases hnone⟩
    rw [redisGetGameSession]
    refine (bind_ok rfl _).trans ?_
    rw [hread]
    exact (bind_ok hnew _).trans ((bind_ok rfl _).trans ((bind_ok hrun _).trans rfl))
  | some equippedItems =>
    have hbears := getRedisEquipment_bears env fields.equipment (List.finRange eqSlotCount)
      (fun slot hslot => absurd (List.mem_finRange slot) hslot) _ _ hrun equippedItems rfl
    let heap := w'.heap.setCommander w.heap.commanders.length
      (some (fields.commander.toCommander equippedItems))
    let gameSession : GameSession :=
      { accountSession := { AccountSession.zero with
          accountName := strncpy 33 fields.account.accountName
          sessionKey := strncpy 11 fields.account.sessionKey
          privilege := fields.account.privilege
          commandersCountMax := fields.account.commandersCountMax }
        commanderSession := ⟨some w.heap.commanders.length⟩ }
    have hload : redisGetGameSession env key w =
        some (.ok (some gameSession), { w' with heap := heap }) := by
      rw [redisGetGameSession]
      refine (bind_ok rfl _).trans ?_
      rw [hread]
      exact (bind_ok hnew _).trans ((bind_ok rfl _).trans ((bind_ok hrun _).trans rfl))
    have hlength : w.heap.commanders.length < w'.heap.commanders.length := by
      rw [hbeside.commanders]
      simp [Heap.newCommander]
    have hcommander : heap.commander w.heap.commanders.length =
        some (fields.commander.toCommander equippedItems) := by
      change ((w'.heap.commanders.set _ _)[w.heap.commanders.length]?).join = _
      rw [List.getElem?_set_self hlength, Option.join_some]
    have hgame : Loaded fields gameSession heap := ⟨rfl, equippedItems, hcommander, hbears⟩
    refine ⟨_, _, hload, hbeside.events, _, rfl, ⟨fun _ => hloadable.mp rfl, fun _ => rfl⟩, ?_⟩
    intro game hsome
    obtain rfl := Option.some.inj hsome
    exact hgame

end Loading

/-! ### The handler -/

section Handler
variable {env : Env Key} {client : Client} {s : Disconnection Key} {socket : SocketHash}

/-- Redis has a socket session of the client. -/
def Connected (client : Client) (socket : SocketHash) (s : Disconnection Key) : Prop :=
  s.redis.sockets client.socketKey = some socket

/-- The socket session that is made for a client without one. -/
def newSocket (client : Client) : SocketHash :=
  ⟨undefinedAccount, client.routerId, undefinedMap, false⟩

def withSocket (client : Client) (s : Disconnection Key) : Disconnection Key :=
  { s with redis := { s.redis with
    sockets := Function.update s.redis.sockets client.socketKey (some (newSocket client)) } }

theorem withSocket_connected (client : Client) (s : Disconnection Key) :
    Connected client (newSocket client) (withSocket client s) := by
  simp only [Connected, withSocket, Function.update_self]

theorem redisGetSocketSession_found (h : Connected client socket s) :
    redisGetSocketSession client.socketKey s = some (.ok socket, s) := by
  rw [redisGetSocketSession]
  refine (bind_ok rfl _).trans ?_
  rw [show s.redis.sockets client.socketKey = some socket from h]
  rfl

/-- A handler that finds no socket session goes on as if there had been one. -/
theorem onDisconnect_withSocket (h : s.redis.sockets client.socketKey = none) :
    zoneEventServerOnDisconnect env client.routerId client.sessionKeyStr s =
      zoneEventServerOnDisconnect env client.routerId client.sessionKeyStr (withSocket client s) := by
  have hmade : redisGetSocketSession client.socketKey s = redisGetSocketSession client.socketKey
      (withSocket client s) := by
    rw [redisGetSocketSession_found (withSocket_connected client s), redisGetSocketSession]
    refine (bind_ok rfl _).trans ?_
    rw [h]
    rfl
  have hload : redisGetGameSessionBySocketId env client.socketKey s =
      redisGetGameSessionBySocketId env client.socketKey (withSocket client s) := by
    change andThen (redisGetSocketSession client.socketKey) _ s = andThen _ _ (withSocket client s)
    rw [andThen, hmade]
    rfl
  change andThen (redisGetGameSessionBySocketId env client.socketKey) _ s =
    andThen _ _ (withSocket client s)
  rw [andThen, hload]
  rfl

/-- The client's keys are deleted. -/
def flushed (client : Client) (socket : SocketHash) (redis : Redis) : Redis where
  sockets := Function.update redis.sockets client.socketKey none
  games := Function.update redis.games socket.gameKey none

@[simp] theorem flushed_sockets (client : Client) (socket : SocketHash) (redis : Redis) :
    (flushed client socket redis).sockets =
      Function.update redis.sockets client.socketKey none := rfl

@[simp] theorem flushed_games (client : Client) (socket : SocketHash) (redis : Redis) :
    (flushed client socket redis).games = Function.update redis.games socket.gameKey none := rfl

theorem redisFlushSession_run (h : Connected client socket s) :
    redisFlushSession client.socketKey s =
      some (.ok (), { s with redis := flushed client socket s.redis }) :=
  (bind_ok (redisGetSocketSession_found h) _).trans rfl

/-- How the handler loads the game session that the socket session names. -/
theorem onDisconnect_loading (h : Connected client socket s) {game : Option GameSession}
    {world : World Key} (hgame : redisGetGameSession (reading env s.redis) socket.gameKey s.world =
      some (.ok game, world)) :
    redisGetGameSessionBySocketId env client.socketKey s = some (.ok game, { s with world }) := by
  rw [redisGetGameSessionBySocketId]
  refine (bind_ok (redisGetSocketSession_found h) _).trans ((bind_ok rfl _).trans ?_)
  change inWorld _ s = _
  rw [inWorld, hgame]

/-- A game session with a missing field ends the handler early. -/
theorem onDisconnect_missing (h : Connected client socket s)
    (hfields : gameFields s.redis socket.gameKey = none) :
    zoneEventServerOnDisconnect env client.routerId client.sessionKeyStr s = some (.ok false, s) :=
  (bind_ok (onDisconnect_loading h (redisGetGameSession_missing hfields)) _).trans rfl

/-- So does an item that cannot be made; without memory for the commander it does not return. -/
theorem onDisconnect_unloadable (h : Connected client socket s) {fields : GameFields}
    (hfields : gameFields s.redis socket.gameKey = some fields)
    (hload : ¬ Loadable env s.world.heap.attempts fields.equipment) :
    (zoneEventServerOnDisconnect env client.routerId client.sessionKeyStr).Sat s
      fun r s' => r = .ok false ∧ s'.redis = s.redis := by
  intro r s' hrun
  change andThen (redisGetGameSessionBySocketId env client.socketKey) _ s = _ at hrun
  cases hmemory : env.allocates s.world.heap.attempts with
  | false =>
    have hnone : redisGetGameSessionBySocketId env client.socketKey s = none := by
      change andThen (redisGetSocketSession client.socketKey) _ s = _
      rw [andThen, redisGetSocketSession_found h]
      change inWorld _ s = _
      rw [inWorld, redisGetGameSession_fault (reading_hmgetGame hfields s.world.writes) hmemory]
    rw [andThen, hnone] at hrun
    cases hrun
  | true =>
    obtain ⟨_, world, hgame, -, game, rfl, hloadable, -⟩ :=
      redisGetGameSession_loads (reading_hmgetGame hfields s.world.writes) hmemory
    obtain rfl : game = none :=
      Option.not_isSome_iff_eq_none.mp fun hsome => hload (hloadable.mp hsome)
    rw [andThen, onDisconnect_loading h hgame] at hrun
    cases hrun
    exact ⟨rfl, rfl⟩

/-- A commander that is loaded leaves, and the keys are deleted. -/
theorem onDisconnect_leaves (h : Connected client socket s) {fields : GameFields}
    (hfields : gameFields s.redis socket.gameKey = some fields)
    (hload : Loadable env s.world.heap.attempts fields.equipment) : ∃ s',
      zoneEventServerOnDisconnect env client.routerId client.sessionKeyStr s =
        some (.ok true, s') ∧ s'.redis = flushed client socket s.redis ∧
        s'.world.events =
          s.world.events ++ [(client.sessionKeyStr, .leave fields.commander.pcId)] := by
  obtain ⟨_, world, hgame, hevents, game, rfl, hloadable, hcommander⟩ :=
    redisGetGameSession_loads (reading_hmgetGame hfields s.world.writes) hload.1
  obtain ⟨gameSession, rfl⟩ := Option.isSome_iff_exists.mp (hloadable.mpr hload)
  obtain ⟨c, hc, hpcId⟩ : ∃ c, gameSession.commanderSession.currentCommander.bind
      world.heap.commander = some c ∧ c.pcId = fields.commander.pcId := by
    obtain ⟨equippedItems, hc, -⟩ := (hcommander gameSession rfl).commander
    exact ⟨_, hc, rfl⟩
  have hat : inWorld (commanderAt gameSession.commanderSession.currentCommander)
      ({ s with world } : Disconnection Key) = some (.ok c, { s with world }) := by
    have hfound : commanderAt gameSession.commanderSession.currentCommander world =
        some (.ok c, world) := by
      rw [commanderAt]
      refine (bind_ok rfl _).trans ?_
      rw [hc]
      rfl
    rw [inWorld, hfound]
  let left := { world with
    events := world.events ++ [(client.sessionKeyStr, GameEvent.leave c.pcId)] }
  have hflush := redisFlushSession_run (s := ({ s with world := left } : Disconnection Key)) h
  refine ⟨_, (bind_ok (onDisconnect_loading h hgame) _).trans ((bind_ok hat _).trans
    ((bind_ok rfl _).trans ((bind_ok hflush _).trans rfl))), rfl, ?_⟩
  rw [← hpcId, ← hevents]

/-- A handler that deletes the socket session has loaded the game session. -/
theorem loaded_of_deleted (h : Connected client socket s) {s' : Disconnection Key}
    {r : Except Bool Bool}
    (hrun : zoneEventServerOnDisconnect env client.routerId client.sessionKeyStr s = some (r, s'))
    (hdeleted : s'.redis.sockets client.socketKey = none) : ∃ fields,
      gameFields s.redis socket.gameKey = some fields ∧
        Loadable env s.world.heap.attempts fields.equipment := by
  have hkept : s'.redis.sockets client.socketKey ≠ s.redis.sockets client.socketKey := by
    rw [hdeleted, show s.redis.sockets client.socketKey = some socket from h]
    exact (Option.some_ne_none _).symm
  cases hfields : gameFields s.redis socket.gameKey with
  | none =>
    cases (onDisconnect_missing h hfields).symm.trans hrun
    exact absurd rfl hkept
  | some fields =>
    refine ⟨fields, rfl, ?_⟩
    by_contra hload
    obtain ⟨-, hredis⟩ := onDisconnect_unloadable h hfields hload r s' hrun
    exact hkept (congrArg (fun redis => redis.sockets client.socketKey) hredis)

theorem games_of_fields {redis : Redis} {key : RedisGameSessionKey} {fields : GameFields}
    (h : gameFields redis key = some fields) :
    ∃ hash, redis.games key = some hash ∧ hash.commander = some fields.commander := by
  rw [gameFields] at h
  obtain ⟨hash, hgames, h⟩ := Option.bind_eq_some_iff.mp h
  obtain ⟨account, -, h⟩ := Option.bind_eq_some_iff.mp h
  obtain ⟨commander, hcommander, h⟩ := Option.bind_eq_some_iff.mp h
  obtain ⟨equipment, -, h⟩ := Option.bind_eq_some_iff.mp h
  cases h
  exact ⟨hash, hgames, hcommander⟩

/-- What is left when the client's keys are deleted, and they are nobody else's. -/
theorem cleanedUp_flushed (h : Connected client socket s) {fields : GameFields}
    (hfields : gameFields s.redis socket.gameKey = some fields)
    (hunshared : ∀ other ≠ client.socketKey, gameKey? s.redis other ≠ some socket.gameKey)
    {s' : Disconnection Key} (hredis : s'.redis = flushed client socket s.redis)
    (hevents : s'.world.events =
      s.world.events ++ [(client.sessionKeyStr, .leave fields.commander.pcId)]) :
    CleanedUp client s s' := by
  have hkey : gameKey? s.redis client.socketKey = some socket.gameKey := by
    rw [gameKey?, show s.redis.sockets client.socketKey = some socket from h, Option.map_some]
  have hgames : ∀ key ≠ socket.gameKey, s'.redis.games key = s.redis.games key := by
    intro key hne
    rw [hredis, flushed_games, Function.update_of_ne hne]
  constructor
  case socket => rw [hredis, flushed_sockets, Function.update_self]
  case game =>
    intro key hgame
    obtain rfl := Option.some.inj (hkey.symm.trans hgame)
    rw [hredis, flushed_games, Function.update_self]
  case otherSockets =>
    intro other hne
    rw [hredis, flushed_sockets, Function.update_of_ne hne]
  case otherGames =>
    intro key hne
    apply hgames
    rintro rfl
    exact hne hkey
  case othersGames =>
    intro other hne key hother
    apply hgames
    rintro rfl
    exact hunshared other hne hother
  case leave =>
    obtain ⟨hash, hhash, hcommander⟩ := games_of_fields hfields
    have hin : commander? s.redis client.socketKey = some fields.commander := by
      rw [commander?, hkey]
      simp only [Option.bind_eq_bind, Option.bind_some, hhash, hcommander]
    rw [hevents, hin]
    rfl

end Handler

/-- For every client and every content of Redis, the end of a connection cleans up exactly when
the client is in the game with a commander that can be loaded, alone with its game session. -/
theorem disconnect_cleans_up_iff (env : Env Key) (client : Client) (s : Disconnection Key) :
    CleansUp env client s ↔ InGame env client s := by
  constructor
  · rintro ⟨result, s', hrun, hclean⟩
    obtain ⟨⟨r, left⟩, hmap, hr⟩ := Option.map_eq_some_iff.mp hrun
    obtain rfl : left = s' := congrArg Prod.snd hr
    cases hsocket : s.redis.sockets client.socketKey with
    | none =>
      rw [onDisconnect_withSocket hsocket] at hmap
      have hconnected := withSocket_connected client s
      obtain ⟨fields, hfields, hload⟩ := loaded_of_deleted hconnected hmap hclean.socket
      obtain ⟨s'', hleaves, -, hevents⟩ := onDisconnect_leaves hconnected hfields hload
      cases hleaves.symm.trans hmap
      have hnone : commander? s.redis client.socketKey = none := by
        rw [commander?, gameKey?, hsocket]
        rfl
      have hsame := hclean.leave
      rw [hnone, hevents] at hsame
      exact absurd (congrArg List.length hsame) (by simp [withSocket])
    | some socket =>
      obtain ⟨fields, hfields, hload⟩ := loaded_of_deleted hsocket hmap hclean.socket
      obtain ⟨s'', hleaves, hredis, -⟩ := onDisconnect_leaves hsocket hfields hload
      cases hleaves.symm.trans hmap
      refine ⟨socket, fields, hsocket, hfields, hload, fun other hne hother => ?_⟩
      obtain ⟨hash, hhash, -⟩ := games_of_fields hfields
      have hkept := hclean.othersGames other hne socket.gameKey hother
      rw [hredis, hhash, flushed_games, Function.update_self] at hkept
      cases hkept
  · rintro ⟨socket, fields, hsocket, hfields, hload, hunshared⟩
    obtain ⟨s', hleaves, hredis, hevents⟩ := onDisconnect_leaves hsocket hfields hload
    refine ⟨true, s', ?_, cleanedUp_flushed hsocket hfields hunshared hredis hevents⟩
    rw [Stage.run, hleaves]
    rfl

theorem not_cleansUp_of_missing {env : Env Key} {client : Client} {s : Disconnection Key}
    (socket : SocketHash) (h : Connected client socket s)
    (hfields : gameFields s.redis socket.gameKey = none) : ¬ CleansUp env client s := by
  rintro ⟨result, s', hrun, hclean⟩
  obtain ⟨⟨r, left⟩, hmap, hr⟩ := Option.map_eq_some_iff.mp hrun
  obtain rfl : left = s' := congrArg Prod.snd hr
  obtain ⟨fields, hsome, -⟩ := loaded_of_deleted h hmap hclean.socket
  cases hfields.symm.trans hsome

/-- The client with an empty session key. -/
def firstClient : Client := ⟨0, Vector.replicate 11 0⟩

/-- The client's only key is the socket session that its first packet has made. -/
def firstPacket : Disconnection UInt64 where
  redis := ⟨fun key => if key = firstClient.socketKey then some (newSocket firstClient) else none,
    fun _ => none⟩
  world := emptyWorld

/-- The client has been authenticated, and its account has been saved. -/
def authenticated : Disconnection UInt64 where
  redis := ⟨fun key => if key = firstClient.socketKey then some ⟨1, 0, undefinedMap, true⟩ else none,
    fun key => if key = ⟨0, undefinedMap, 1⟩ then some ⟨some ⟨[], [], 3, 5⟩, none, none⟩ else none⟩
  world := emptyWorld

/-- A client without a commander leaves its keys behind. -/
theorem disconnect_leaves_keys : ¬ CleansUp deafEnv firstClient firstPacket ∧
    ¬ CleansUp deafEnv firstClient authenticated :=
  ⟨not_cleansUp_of_missing (newSocket firstClient) rfl rfl,
    not_cleansUp_of_missing ⟨1, 0, undefinedMap, true⟩ rfl rfl⟩

end R1Emu.Zone
