import R1Emu.Game.Handling
import Mathlib.Data.List.FinRange

/-!
# Sessions in the databases

The functions that load and save a session. Those that load allocate as they go and leave
the world untouched whether they succeed or not; those that save send one command after the
other, and fail when one of them is not acknowledged.
-/
namespace R1Emu.Game
open R1Emu.Actor R1Emu.Lib R1Emu.Lib.Stage R1Emu.Lib.Bytes R1Emu.Server
open R1Emu.Commander (Inventory ItemPtr Store eqSlotCount inventoryInit)

variable {Key : Type}

/-! ### Loading -/

/-- `commanders[i] = commanderNew()` for the first `count` slots, until one cannot be made. -/
def fillSlots (env : Env Key) (commanders : Option CommandersPtr) :
    (i count : ℕ) → Handling Key Bool
  | _, 0 => return true
  | i, count + 1 => do
    let p ← commanderNew env
    setCommanderSlot commanders i p
    if p.isSome then fillSlots env commanders (i + 1) count else return false

def destroySlots (commanders : Option CommandersPtr) : (i count : ℕ) → Handling Key Unit
  | _, 0 => return
  | i, count + 1 => do
    destroySlot commanders i
    destroySlots commanders (i + 1) count

/-- When the array cannot be allocated, the cleanup follows a null pointer, unless there is
no commander. -/
def accountSessionCommandersInit (env : Env Key) (accountSession : AccountSession)
    (commandersCountMax commandersCount : ℕ) : Handling Key (Option AccountSession) := do
  if ← allocate env then
    let a ← onHeap (·.newArray (List.replicate commandersCountMax none))
    if ← fillSlots env (some a) 0 commandersCount then
      return some { accountSession with commanders := some a }
    else
      destroySlots (some a) 0 commandersCount
      return none
  else if commandersCount = 0 then return none else fault

/-- The commanders of an account, each with its id, unless they cannot be requested. -/
def mySqlRequestCommandersByAccountId (env : Env Key) (accountId : UInt64) :
    Handling Key (Option (List (UInt64 × CommanderRow))) := do
  match env.selectCommanders (← gets (·.writes)) accountId with
  | .error => return none
  | .success none => fault
  | .success (some rows) => return some rows

/-- Put what is created for each slot into it. -/
def equipSlots (create : Fin eqSlotCount → Handling Key (Option ItemPtr)) :
    List (Fin eqSlotCount) → (UInt8 → Option ItemPtr) → Handling Key (UInt8 → Option ItemPtr)
  | [], equippedItems => return equippedItems
  | slot :: slots, equippedItems => do
    let item ← create slot
    equipSlots create slots (Function.update equippedItems (UInt8.ofNat slot) item)

/-- A commander loaded from its row. Its random `pcId` is an argument. -/
def CommanderRow.toCommander (row : CommanderRow) (commanderId : UInt64) (familyName : Chars 64)
    (pcId : UInt32) (equippedItems : UInt8 → Option ItemPtr) : Commander Key :=
  { (commanderInit : Commander Key) with
    familyName := strncpy 64 familyName.toList
    commanderName := strncpy 65 row.commanderName
    accountId := row.accountId
    classId := row.classId
    jobId := row.jobId
    gender := row.gender
    level := row.level
    hairId := row.hairId
    pose := 0
    pos := row.position
    barrackPos := row.barrackPosition
    currentXP := row.exp
    maxXP := 1337
    pcId := pcId
    socialInfoId := commanderId
    commanderId := commanderId
    currentHP := row.hp
    maxHP := row.hp
    currentSP := row.mp
    maxSP := row.mp
    currentStamina := 25000
    maxStamina := 25000
    mapId := row.mapId
    inventory := { inventoryInit with equippedItems } }

def mySqlGetCommanders (env : Env Key) (familyName : Chars 64) (commanders : Option CommandersPtr) :
    List (UInt64 × CommanderRow) → ℕ → Handling Key Unit
  | [], _ => return
  | (commanderId, row) :: rows, i => do
    let curCommander ← found (← commanderSlot commanders i)
    let _ ← commanderAt (some curCommander)
    let equippedItems ← equipSlots
      (fun slot => itemFactoryCreateEquipable env (row.eqSlots slot) 1 (UInt8.ofNat slot))
      (List.finRange eqSlotCount) fun _ => none
    setCommander curCommander
      (some (row.toCommander commanderId familyName (env.rand curCommander) equippedItems))
    mySqlGetCommanders env familyName commanders rows (i + 1)

/-- The account session with its commanders, and their number. -/
def mySqlLoadAccountCommanders (env : Env Key) (accountSession : AccountSession)
    (accountId : UInt64) : Handling Key (Option (AccountSession × ℕ)) := do
  match ← mySqlRequestCommandersByAccountId env accountId with
  | none => return none
  | some rows =>
    let accountSession := { accountSession with commandersCountMax := 5 }
    match ← accountSessionCommandersInit env accountSession 5 rows.length with
    | none => return none
    | some accountSession =>
      mySqlGetCommanders env accountSession.familyName accountSession.commanders rows 0
      return some (accountSession, rows.length)

/-- Whether the credentials are good, and the account session then, unless the query fails. -/
def mySqlGetAccountData (env : Env Key) (accountName password : List UInt8)
    (accountSession : AccountSession) : Handling Key (Option (Bool × AccountSession)) := do
  match env.selectAccount (← gets (·.writes)) accountName password with
  | .error => return none
  | .success none => fault
  | .success (some []) => return some (false, accountSession)
  | .success (some (row :: _)) =>
    return some (true, { accountSession with
      accountName := strncpy 33 accountName
      accountId := row.accountId
      isBanned := row.isBanned
      timeBanned := row.timeBanned
      credits := row.credits
      privilege := row.privilegeLevel
      familyName := strncpy 64 row.familyName
      barrackType := row.barrackType })

def redisGetAccountSession (env : Env Key) (key : RedisGameSessionKey)
    (accountSession : AccountSession) : Handling Key (Option AccountSession) := do
  match env.hmgetAccount (← gets (·.writes)) key with
  | .array (some fields) =>
    return some { accountSession with
      accountName := strncpy 33 fields.accountName
      sessionKey := strncpy 11 fields.sessionKey
      privilege := fields.privilege
      commandersCountMax := fields.commandersCountMax }
  | _ => return none

/-- `GET_REDIS_EQUIPMENT` for each slot, until an item cannot be created. -/
def getRedisEquipment (env : Env Key) (equipment : Fin eqSlotCount → UInt32) :
    List (Fin eqSlotCount) → (UInt8 → Option ItemPtr) →
      Handling Key (Option (UInt8 → Option ItemPtr))
  | [], equippedItems => return some equippedItems
  | slot :: slots, equippedItems => do
    match ← itemFactoryCreate env (equipment slot) 1 with
    | none => return none
    | some item =>
      getRedisEquipment env equipment slots
        (Function.update equippedItems (UInt8.ofNat slot) (some item))

def CommanderFields.toCommander (fields : CommanderFields)
    (equippedItems : UInt8 → Option ItemPtr) : Commander Key :=
  { (commanderInit : Commander Key) with
    commanderName := strncpy 65 fields.commanderName
    familyName := strncpy 64 fields.familyName
    accountId := fields.accountId
    classId := fields.classId
    jobId := fields.jobId
    gender := fields.gender
    level := fields.level
    hairId := fields.hairId
    pose := fields.pose
    mapId := fields.mapId
    pos := fields.pos
    barrackPos := fields.barrackPos
    currentXP := fields.currentXP
    maxXP := fields.maxXP
    pcId := fields.pcId
    socialInfoId := fields.socialInfoId
    commanderId := fields.commanderId
    currentHP := fields.currentHP
    maxHP := fields.maxHP
    currentSP := fields.currentSP
    maxSP := fields.maxSP
    currentStamina := fields.currentStamina
    maxStamina := fields.maxStamina
    inventory := { inventoryInit with equippedItems } }

/-- The game session starts from zeroes. A status is a success without a commander. -/
def redisGetGameSession (env : Env Key) (key : RedisGameSessionKey) :
    Handling Key (Option GameSession) := do
  match env.hmgetGame (← gets (·.writes)) key with
  | .status => return some .zero
  | .array (some fields) =>
    let commander ← found (← commanderNew env)
    match ← getRedisEquipment env fields.equipment (List.finRange eqSlotCount) fun _ => none with
    | none => return none
    | some equippedItems =>
      setCommander commander (some (fields.commander.toCommander equippedItems))
      return some
        { accountSession := { AccountSession.zero with
            accountName := strncpy 33 fields.account.accountName
            sessionKey := strncpy 11 fields.account.sessionKey
            privilege := fields.account.privilege
            commandersCountMax := fields.account.commandersCountMax }
          commanderSession := ⟨some commander⟩ }
  | _ => return none

/-! ### Saving -/

def commanderRow (c : Commander Key) (eqSlots : Fin eqSlotCount → UInt32) : CommanderRow where
  accountId := c.accountId
  commanderName := cString c.commanderName.toList
  level := c.level
  exp := c.currentXP
  gender := c.gender
  jobId := c.jobId
  classId := c.classId
  hairId := c.hairId
  mapId := c.mapId
  position := c.pos
  barrackPosition := c.barrackPos
  hp := c.currentHP
  mp := c.currentSP
  eqSlots := eqSlots

/-- The id of the new row. -/
def mySqlCommanderInsert (env : Env Key) (c : Commander Key) : Handling Key (Option UInt64) := do
  let eqSlots ← found (equippedIds (← gets (·.heap)) c.inventory)
  let answer ← perform env (.insertCommander (commanderRow c eqSlots))
  return if answer.done then some answer.insertId else none

def mySqlCommanderUpdate (env : Env Key) (commanderId : UInt64) (c : Commander Key) :
    Handling Key Bool := do
  let eqSlots ← found (equippedIds (← gets (·.heap)) c.inventory)
  return (← perform env (.updateCommander commanderId (commanderRow c eqSlots))).done

def mySqlCommanderDelete (env : Env Key) (commanderId : UInt64) : Handling Key Bool :=
  return (← perform env (.deleteCommander commanderId)).done

/-- `BC_BARRACKNAME_CHANGE_OK` and `BC_BARRACKNAME_CHANGE_ERROR`. -/
def barrackNameChangeOk : Int := 0
def barrackNameChangeError : Int := 1

def mySqlSetFamilyName (env : Env Key) (accountId : UInt64) (familyName : List UInt8) :
    Handling Key Int := do
  let answer ← perform env (.setFamilyName accountId familyName)
  if answer.done then
    match env.selectFlag (← gets (·.writes)) with
    | .error => return barrackNameChangeError
    | .success none => fault
    | .success (some []) => return barrackNameChangeError
    | .success (some (flag :: _)) => return flag
  else return barrackNameChangeError

/-- `CHECK_REDIS_EMPTY_STRING`. -/
def checkRedisEmptyString (s : List UInt8) : List UInt8 :=
  if s = [] then "__EMPTY_STRING__".toUTF8.toList else s

def commanderFields (key : RedisGameSessionKey) (c : Commander Key) : CommanderFields where
  mapId := c.mapId
  commanderName := checkRedisEmptyString (cString c.commanderName.toList)
  familyName := checkRedisEmptyString (cString c.familyName.toList)
  accountId := key.accountId
  classId := c.classId
  jobId := c.jobId
  gender := c.gender
  level := c.level
  hairId := c.hairId
  pose := c.pose
  pos := c.pos
  barrackPos := c.barrackPos
  currentXP := c.currentXP
  maxXP := c.maxXP
  pcId := c.pcId
  socialInfoId := c.socialInfoId
  commanderId := c.commanderId
  currentHP := c.currentHP
  maxHP := c.maxHP
  currentSP := c.currentSP
  maxSP := c.maxSP
  currentStamina := c.currentStamina
  maxStamina := c.maxStamina

def redisUpdateSocketSession (env : Env Key) (key : RedisSocketSessionKey)
    (socketSession : SocketSession) : Handling Key Bool :=
  return (← perform env (.hmsetSocket key socketSession.accountId key.routerId
    socketSession.mapId socketSession.authenticated)).done

/-- All the commands are sent before the first reply is looked at. -/
def redisUpdateGameSession (env : Env Key) (key : RedisGameSessionKey) (socketId : Chars 11)
    (gameSession : GameSession) : Handling Key Bool := do
  let account ← perform env (.hmsetAccount key
    { accountName := cString gameSession.accountSession.accountName.toList
      sessionKey := cString socketId.toList
      privilege := gameSession.accountSession.privilege
      commandersCountMax := gameSession.accountSession.commandersCountMax })
  match gameSession.commanderSession.currentCommander with
  | none => return account.done
  | some p =>
    let c ← commanderAt (some p)
    let commander ← perform env (.hmsetCommander key (commanderFields key c))
    let eqSlots ← found (equippedIds (← gets (·.heap)) c.inventory)
    let equipment ← perform env (.hmsetEquipment key eqSlots)
    return account.done && commander.done && equipment.done

def redisUpdateSession (env : Env Key) (session : Session) : Handling Key Bool := do
  let socketKey := ⟨session.socket.routerId, cString session.socket.sessionKey.toList⟩
  if ← redisUpdateSocketSession env socketKey session.socket then
    redisUpdateGameSession env
      ⟨session.socket.routerId, session.socket.mapId, session.socket.accountId⟩
      session.socket.sessionKey session.game
  else return false

def redisMoveGameSession (env : Env Key) (source target : RedisGameSessionKey) :
    Handling Key Bool :=
  return (← perform env (.rename source target)).done

/-! ### What saving writes -/

/-- The world after several writes have been sent, one after the other. -/
def World.sent (env : Env Key) (w : World Key) (writes : List Write) : World Key :=
  writes.foldl (World.written env) w

/-- Whether they are all acknowledged. -/
def acknowledged (env : Env Key) : List Write → List Write → Bool
  | _, [] => true
  | log, write :: writes => (env.write log write).done && acknowledged env (log ++ [write]) writes

theorem written_writes_of_done {env : Env Key} {w : World Key} {write : Write}
    (h : (env.write w.writes write).done = true) :
    (w.written env write).writes = w.writes ++ [write] := by
  rw [written_writes, if_pos ((env.write w.writes write).applied_of_done h)]

theorem writes_prefix_written (env : Env Key) (w : World Key) (write : Write) :
    w.writes <+: (w.written env write).writes := by
  rw [written_writes]
  split
  · exact List.prefix_append _ _
  · exact List.prefix_rfl

theorem sent_frame (env : Env Key) (w : World Key) (writes : List Write) :
    (w.sent env writes).session = w.session ∧ (w.sent env writes).heap = w.heap ∧
      (w.sent env writes).called = w.called ∧ w.writes <+: (w.sent env writes).writes := by
  induction writes generalizing w with
  | nil => exact ⟨rfl, rfl, rfl, List.prefix_rfl⟩
  | cons write writes ih =>
    obtain ⟨hsession, hheap, hcalled, hwrites⟩ := ih (w.written env write)
    exact ⟨hsession.trans (written_session w env write), hheap.trans (written_heap w env write),
      hcalled.trans (written_called w env write), (writes_prefix_written env w write).trans hwrites⟩

theorem sent_writes {env : Env Key} {w : World Key} {writes : List Write}
    (h : acknowledged env w.writes writes = true) :
    (w.sent env writes).writes = w.writes ++ writes := by
  induction writes generalizing w with
  | nil => exact (List.append_nil _).symm
  | cons write writes ih =>
    rw [acknowledged, Bool.and_eq_true] at h
    have hwritten := written_writes_of_done h.1
    rw [World.sent, List.foldl_cons, ← World.sent, ih (hwritten ▸ h.2), hwritten,
      List.append_assoc, List.singleton_append]

theorem acknowledged_concat (env : Env Key) (log writes : List Write) (write : Write) :
    acknowledged env log (writes ++ [write]) =
      (acknowledged env log writes && (env.write (log ++ writes) write).done) := by
  induction writes generalizing log with
  | nil => simp [acknowledged]
  | cons first writes ih => simp [acknowledged, ih, Bool.and_assoc]

theorem acknowledged_of_done {env : Env Key} {writes : List Write}
    (h : ∀ log, ∀ write ∈ writes, (env.write log write).done = true) (log : List Write) :
    acknowledged env log writes = true := by
  induction writes generalizing log with
  | nil => rfl
  | cons write writes ih =>
    rw [acknowledged, h log write List.mem_cons_self, Bool.true_and]
    exact ih (fun log write hwrite => h log write (List.mem_cons_of_mem _ hwrite)) _

/-- The write that saves the socket session. -/
def socketWrite (session : Session) : Write :=
  .hmsetSocket ⟨session.socket.routerId, cString session.socket.sessionKey.toList⟩
    session.socket.accountId session.socket.routerId session.socket.mapId
    session.socket.authenticated

/-- The key under which a session is saved. -/
def gameSessionKey (session : Session) : RedisGameSessionKey :=
  ⟨session.socket.routerId, session.socket.mapId, session.socket.accountId⟩

def accountWrite (session : Session) : Write :=
  .hmsetAccount (gameSessionKey session)
    { accountName := cString session.game.accountSession.accountName.toList
      sessionKey := cString session.socket.sessionKey.toList
      privilege := session.game.accountSession.privilege
      commandersCountMax := session.game.accountSession.commandersCountMax }

/-- The writes that save the game session with the commander that is played. -/
def gameWrites (session : Session) (c : Commander Key) (eqSlots : Fin eqSlotCount → UInt32) :
    List Write :=
  [accountWrite session,
    .hmsetCommander (gameSessionKey session) (commanderFields (gameSessionKey session) c),
    .hmsetEquipment (gameSessionKey session) eqSlots]

/-- Several writes whose answers are looked at in the end. -/
theorem acknowledged_three (env : Env Key) (w : World Key) (a b c : Write) :
    ((env.write w.writes a).done && (env.write (w.written env a).writes b).done &&
      (env.write ((w.written env a).written env b).writes c).done) =
        acknowledged env w.writes [a, b, c] := by
  cases ha : (env.write w.writes a).done with
  | false => simp [acknowledged, ha]
  | true =>
    have hwa := written_writes_of_done ha
    cases hb : (env.write (w.written env a).writes b).done with
    | false => simp [acknowledged, ha, ← hwa, hb]
    | true => simp [acknowledged, ha, ← hwa, hb, ← written_writes_of_done hb]

/-- All the commands of a game session are sent, and one that is not acknowledged fails it. -/
theorem sat_redisUpdateSession {env : Env Key} {session : Session} {p : CommanderPtr}
    (hp : session.game.commanderSession.currentCommander = some p) (w : World Key)
    (Q : Except PacketHandlerState Bool → World Key → Prop) :
    (redisUpdateSession env session).Sat w Q ↔
      ((env.write w.writes (socketWrite session)).done = false →
        Q (.ok false) (w.written env (socketWrite session))) ∧
      ((env.write w.writes (socketWrite session)).done = true → ∀ c, w.heap.commander p = some c →
        ∀ eqSlots, equippedIds w.heap c.inventory = some eqSlots →
          Q (.ok (acknowledged env (w.writes ++ [socketWrite session]) (gameWrites session c eqSlots)))
            ((w.written env (socketWrite session)).sent env (gameWrites session c eqSlots))) := by
  simp only [redisUpdateSession, redisUpdateSocketSession, sat_bind, sat_perform, then_ok, sat_pure]
  cases hdone : (env.write w.writes (socketWrite session)).done with
  | false =>
    rw [socketWrite] at hdone
    simp [hdone, socketWrite]
  | true =>
    have hwritten := written_writes_of_done hdone
    rw [socketWrite] at hdone
    simp only [hdone, if_true, redisUpdateGameSession, sat_bind, sat_perform, then_ok, hp,
      sat_commanderAt, sat_gets, sat_found, sat_pure, written_heap, Option.bind_some,
      acknowledged_three, reduceCtorEq, false_implies, true_and, true_implies]
    rw [← hwritten]
    rfl

/-! ### Loading leaves the world untouched -/

variable {w₀ : World Key}

/-- The array was allocated after `w₀`, and holds commanders that were. -/
structure Fresh (w₀ w : World Key) (a : CommandersPtr) : Prop where
  array : w₀.heap.arrays.length ≤ a
  slots : ∃ slots, w.heap.arrays[a]? = some slots ∧
    ∀ p, some p ∈ slots → w₀.heap.commanders.length ≤ p

theorem Fresh.of_untouched {w w' : World Key} {a : CommandersPtr} (h : Fresh w₀ w a)
    (hw : w.Untouched w') : Fresh w₀ w' a := by
  obtain ⟨slots, hslots, hp⟩ := h.slots
  obtain ⟨rest, hrest⟩ := hw.heap.arrays
  refine ⟨h.array, slots, ?_, hp⟩
  rw [← hrest, List.getElem?_append_left (List.getElem?_eq_some_iff.mp hslots).1, hslots]

/-- The world is untouched, and the array is new with all it holds. -/
def Loading (w₀ : World Key) (a : CommandersPtr) (w : World Key) : Prop :=
  w₀.Untouched w ∧ Fresh w₀ w a

/-- What leaves every world untouched leaves a new array new. -/
theorem Loading.of_untouched {α : Type} {a : CommandersPtr} {m : Handling Key α}
    (hm : ∀ w₁, Preserves (World.Untouched w₁) m) : Preserves (Loading w₀ a) m := fun w hw =>
  (hm w w (.refl w)).mono fun _ _ h => ⟨hw.1.trans h, hw.2.of_untouched h⟩

theorem setCommanderSlot_loading {a : CommandersPtr} {p : Option CommanderPtr} (i : ℕ)
    (hp : ∀ q, p = some q → w₀.heap.commanders.length ≤ q) :
    Preserves (Loading w₀ a) (setCommanderSlot (some a) i p) := by
  rintro w ⟨hw, hfresh⟩
  obtain ⟨slots, hslots, hnew⟩ := hfresh.slots
  have hlt := (List.getElem?_eq_some_iff.mp hslots).1
  simp only [setCommanderSlot, sat_bind, sat_found, sat_gets, then_ok, hslots, sat_ite, sat_fault,
    onHeap, sat_act, Option.some.injEq, forall_eq', implies_true, and_true]
  refine fun _ => ⟨hw.setHeap (hw.heap.setArray hfresh.array _), hfresh.array, slots.set i p, ?_, ?_⟩
  · simp [Heap.setArray, List.getElem?_set_self hlt]
  · intro q hq
    rcases List.mem_or_eq_of_mem_set hq with hq | hq
    · exact hnew q hq
    · exact hp q hq.symm

theorem setCommander_loading {a : CommandersPtr} {p : CommanderPtr}
    (hp : w₀.heap.commanders.length ≤ p) (c : Option (Commander Key)) :
    Preserves (Loading w₀ a) (setCommander p c) := by
  rintro w ⟨hw, hfresh⟩
  simp only [setCommander, onHeap, sat_act]
  exact ⟨hw.setHeap (hw.heap.setCommander hp c), hfresh.array, hfresh.slots⟩

/-- What a slot of a new array points to is new. -/
theorem commanderSlot_sat {a : CommandersPtr} {w : World Key} (hw : Loading w₀ a w) (i : Int) :
    (commanderSlot (some a) i).Sat w fun r w' => Loading w₀ a w' ∧
      ∀ p, r = .ok (some p) → w₀.heap.commanders.length ≤ p := by
  obtain ⟨slots, hslots, hnew⟩ := hw.2.slots
  simp only [commanderSlot, sat_bind, sat_gets, then_ok, Option.bind_some, hslots, sat_found,
    sat_ite, sat_fault, Option.some.injEq, forall_eq', implies_true, and_true]
  intro _ slot hslot
  refine ⟨hw, fun p hp => hnew p ?_⟩
  cases hp
  exact List.mem_of_getElem? hslot

theorem fillSlots_loading (env : Env Key) (a : CommandersPtr) (i count : ℕ) :
    Preserves (Loading w₀ a) (fillSlots env (some a) i count) := by
  induction count generalizing i with
  | zero => exact preserves_pure _
  | succ count ih =>
    intro w hw
    have hnew : (commanderNew env).Sat w fun r w' => Loading w₀ a w' ∧
        ∀ p, r = .ok (some p) → w₀.heap.commanders.length ≤ p := by
      have hsat := commanderNew_sat env (World.Untouched.refl w)
      have hlen := hw.1.heap.commanders.length_le
      exact hsat.mono fun r w' h =>
        ⟨⟨hw.1.trans h.1, hw.2.of_untouched h.1⟩, fun p hp => hlen.trans (h.2 p hp)⟩
    refine hnew.bind (fun _ _ h => h.1) fun p w₁ h₁ => ?_
    refine (setCommanderSlot_loading i (fun q hq => h₁.2 q (hq ▸ rfl))).bind (fun _ => ?_) w₁ h₁.1
    exact .ite (ih (i + 1)) (preserves_pure _)

theorem destroySlots_loading (a : CommandersPtr) (i count : ℕ) :
    Preserves (Loading w₀ a) (@destroySlots Key (some a) i count) := by
  induction count generalizing i with
  | zero => exact preserves_pure _
  | succ count ih =>
    refine Preserves.bind (fun w hw => ?_) fun _ => ih (i + 1)
    refine (commanderSlot_sat hw i).bind (fun _ _ h => h.1) fun p w₁ h₁ => ?_
    cases p with
    | none => exact preserves_pure _ w₁ h₁.1
    | some p =>
      refine (setCommander_loading (h₁.2 p rfl) none).bind (fun _ => ?_) w₁ h₁.1
      exact setCommanderSlot_loading i (by simp)

/-- On success the account session has a new array. -/
theorem accountSessionCommandersInit_sat (env : Env Key) (accountSession : AccountSession)
    (commandersCountMax commandersCount : ℕ) {w : World Key} (hw : w₀.Untouched w) :
    (accountSessionCommandersInit env accountSession commandersCountMax commandersCount).Sat w
      fun r w' => w₀.Untouched w' ∧ ∀ s, r = .ok (some s) →
        ∃ a, s.commanders = some a ∧ Loading w₀ a w' := by
  refine (preserves_allocate env w hw).bind (fun _ _ h => ⟨h, by simp⟩) fun allocated w₁ h₁ => ?_
  cases allocated with
  | false => simpa using fun _ => h₁
  | true =>
    have hnew := h₁.onHeap (Heap.kept_newArray w₁.heap (List.replicate commandersCountMax none))
    have hload : Loading w₀ w₁.heap.arrays.length { w₁ with
        heap := (w₁.heap.newArray (List.replicate commandersCountMax none)).2 } := by
      refine ⟨hnew, h₁.heap.arrays.length_le, List.replicate commandersCountMax none, ?_, ?_⟩
      · simp [Heap.newArray]
      · simp
    simp only [if_true, sat_bind, onHeap, sat_act, then_ok]
    refine (fillSlots_loading env _ 0 commandersCount _ hload).mono fun r w₂ h₂ => ?_
    cases r with
    | error e => exact ⟨h₂.1, by simp⟩
    | ok filled =>
      cases filled with
      | true => simpa using ⟨h₂.1, h₂⟩
      | false =>
        exact (destroySlots_loading _ 0 commandersCount w₂ h₂).bind (fun _ _ h => ⟨h.1, by simp⟩)
          fun _ w₃ h₃ => by simpa using h₃.1

theorem preserves_equipSlots {P : World Key → Prop}
    {create : Fin eqSlotCount → Handling Key (Option ItemPtr)}
    (hcreate : ∀ slot, Preserves P (create slot)) (slots : List (Fin eqSlotCount))
    (equippedItems : UInt8 → Option ItemPtr) :
    Preserves P (equipSlots create slots equippedItems) := by
  induction slots generalizing equippedItems with
  | nil => exact preserves_pure _
  | cons slot slots ih => exact (hcreate slot).bind fun item => ih _

theorem mySqlGetCommanders_loading (env : Env Key) (familyName : Chars 64) (a : CommandersPtr)
    (rows : List (UInt64 × CommanderRow)) (i : ℕ) :
    Preserves (Loading w₀ a) (mySqlGetCommanders env familyName (some a) rows i) := by
  induction rows generalizing i with
  | nil => exact preserves_pure _
  | cons row rows ih =>
    intro w hw
    refine (commanderSlot_sat hw i).bind (fun _ _ h => h.1) fun slot w₁ h₁ => ?_
    rw [sat_bind, sat_found]
    rintro p rfl
    have hequip : ∀ w₁, Preserves (World.Untouched w₁) (equipSlots
        (fun slot => itemFactoryCreateEquipable env (row.2.eqSlots slot) 1 (UInt8.ofNat slot))
        (List.finRange eqSlotCount) fun _ => none) := fun _ =>
      preserves_equipSlots (fun _ => preserves_itemFactoryCreateEquipable env _ 1 _) _ _
    refine ((Loading.of_untouched fun _ => preserves_commanderAt _).bind fun _ =>
      (Loading.of_untouched hequip).bind fun equippedItems => ?_) w₁ h₁.1
    exact (setCommander_loading (h₁.2 p rfl) _).bind fun _ => ih (i + 1)

theorem preserves_mySqlRequestCommandersByAccountId (env : Env Key) (accountId : UInt64) :
    Preserves w₀.Untouched (mySqlRequestCommandersByAccountId env accountId) := by
  refine (preserves_gets _).bind fun writes => ?_
  cases env.selectCommanders writes accountId with
  | error => exact preserves_pure _
  | success result =>
    cases result with
    | none => exact preserves_fault
    | some rows => exact preserves_pure _

theorem preserves_mySqlLoadAccountCommanders (env : Env Key) (accountSession : AccountSession)
    (accountId : UInt64) :
    Preserves w₀.Untouched (mySqlLoadAccountCommanders env accountSession accountId) := by
  refine (preserves_mySqlRequestCommandersByAccountId env accountId).bind fun rows => ?_
  cases rows with
  | none => exact preserves_pure _
  | some rows =>
    intro w hw
    refine (accountSessionCommandersInit_sat env _ 5 rows.length hw).bind (fun _ _ h => h.1)
      fun loaded w₁ h₁ => ?_
    cases loaded with
    | none => exact preserves_pure _ w₁ h₁.1
    | some loaded =>
      obtain ⟨a, ha, hload⟩ := h₁.2 loaded rfl
      have hget : (mySqlGetCommanders env loaded.familyName (some a) rows 0).Sat w₁
          fun _ => Loading w₀ a := mySqlGetCommanders_loading env _ a rows 0 w₁ hload
      rw [← ha] at hget
      exact hget.bind (fun _ _ h => h.1) fun _ w₂ h₂ => preserves_pure _ w₂ h₂.1

theorem preserves_redisGetAccountSession (env : Env Key) (key : RedisGameSessionKey)
    (accountSession : AccountSession) :
    Preserves w₀.Untouched (redisGetAccountSession env key accountSession) := by
  refine (preserves_gets _).bind fun writes => ?_
  split <;> exact preserves_pure _

theorem preserves_getRedisEquipment (env : Env Key) (equipment : Fin eqSlotCount → UInt32)
    (slots : List (Fin eqSlotCount)) (equippedItems : UInt8 → Option ItemPtr) :
    Preserves w₀.Untouched (getRedisEquipment env equipment slots equippedItems) := by
  induction slots generalizing equippedItems with
  | nil => exact preserves_pure _
  | cons slot slots ih =>
    refine (preserves_itemFactoryCreate env _ 1).bind fun item => ?_
    cases item with
    | none => exact preserves_pure _
    | some item => exact ih _

theorem preserves_redisGetGameSession (env : Env Key) (key : RedisGameSessionKey) :
    Preserves w₀.Untouched (redisGetGameSession env key) := by
  refine (preserves_gets _).bind fun writes => ?_
  cases env.hmgetGame writes key with
  | null => exact preserves_pure _
  | error => exact preserves_pure _
  | status => exact preserves_pure _
  | other => exact preserves_pure _
  | array fields =>
    cases fields with
    | none => exact preserves_pure _
    | some fields =>
      intro w hw
      refine (commanderNew_sat env hw).bind (fun _ _ h => h.1) fun commander w₁ h₁ => ?_
      rw [sat_bind, sat_found]
      rintro p rfl
      refine (preserves_getRedisEquipment env _ _ _ w₁ h₁.1).bind (fun _ _ h => h)
        fun equipped w₂ h₂ => ?_
      cases equipped with
      | none => exact preserves_pure _ w₂ h₂
      | some equippedItems =>
        have hset := h₂.setHeap (h₂.heap.setCommander (h₁.2 p rfl)
          (some (fields.commander.toCommander equippedItems)))
        simpa [setCommander, onHeap] using hset

end R1Emu.Game
