import R1Emu.Handler.Barrack

/-!
# The handlers of the zone server

Most of them tell the players around what the commander does. Those that change the session
do so in the commander that is played, or, when the client connects, in the whole session.
-/
namespace R1Emu.Handler
open R1Emu.Actor R1Emu.Game R1Emu.Lib R1Emu.Lib.Stage R1Emu.Lib.Bytes R1Emu.Packet R1Emu.Server
open R1Emu.Commander (Store inventoryGetItemByActorId inventoryRemoveItem inventorySwapItems)

variable {Key : Type}

/-- The account that connects, and the game session that the barrack has moved here. -/
def loadGameSession (env : Env Key) (packet : ℕ) : Handling Key (UInt64 × GameSession) := do
  let accountId ← readU64 (packet + 4)
  let accountName ← readBytes (packet + 20) 33
  let accountKey := ⟨env.routerId, undefinedMap, accountId⟩
  match ← redisGetAccountSession env accountKey .zero with
  | none => exit .error
  | some accountSession =>
    require (strncmpEq 33 accountSession.accountName.toList accountName) .error
    match ← mySqlLoadAccountCommanders env accountSession accountId with
    | none => exit .error
    | some (accountSession, _) =>
      let first ← commanderSlot accountSession.commanders 0
      let _ ← commanderDup env (commanderAt first)
      match ← redisGetGameSession env accountKey with
      | none => exit .error
      | some gameSession => return (accountId, gameSession)

/-- The socket session of a client that has connected. -/
def connectedSocket (env : Env Key) (socket : SocketSession) (accountId : UInt64)
    (mapId : UInt16) : SocketSession :=
  socketSessionInit accountId env.routerId mapId socket.sessionKey true

def zoneHandlerConnect : Handler Key := fun env packet _ => do
  let (accountId, tmpGameSession) ← loadGameSession env packet
  let c ← commanderAt tmpGameSession.commanderSession.currentCommander
  updateSession fun s => { s with socket := connectedSocket env s.socket accountId c.mapId }
  require (← redisMoveGameSession env ⟨env.routerId, undefinedMap, accountId⟩
    ⟨env.routerId, c.mapId, accountId⟩) .error
  updateSession fun s => { s with game := tmpGameSession }
  send (.connectOk 0 privilegesAdmin c)
  return .updateSession

/-- `1.0f`, `31.0f` and `350.0f`. -/
def floatOne : UInt32 := 0x3f800000
def gameReadySpeed : UInt32 := 0x41f80000
def commanderHeightJump : UInt32 := 0x43af0000

def zoneHandlerGameReady : Handler Key := fun _ _ _ => do
  let c ← currentCommander
  let w ← gets id
  let inventory := w.heap.store c.inventory
  sendAll [.sessionObjects, .optionList, .skillmapList, .achievePointList, .chatMacroList,
    .uiInfoList, .npcStateList, .helpList, .myPageMap, .guestPageMap, .startInfo,
    .itemEquipList inventory, .itemInventoryList inventory, .skillList c.pcId, .abilityList c.pcId,
    .cooldownList c.socialInfoId, .quickSlotList, .normalUnk1, .normalUnk2, .normalUnk3,
    .normalUnk4 c.socialInfoId, .normalUnk5, .startGame floatOne 0 0 0,
    .objectProperty c.socialInfoId, .loginTime, .myPCEnter c.pos]
  workerDispatchEvent (.enterPc w.session.socket.mapId c)
  sendAll [.enterMonster, .faction, .moveSpeed c.pcId gameReadySpeed]
  return .updateSession

/-- A handler that is not implemented yet. -/
def notImplemented : Handler Key := fun _ _ _ => return .ok

def zoneHandlerOnAir : Handler Key := notImplemented
def zoneHandlerOnGround : Handler Key := notImplemented
def zoneHandlerMovementInfo : Handler Key := notImplemented
def zoneHandlerCzQuickSlotList : Handler Key := notImplemented
def zoneHandlerChangeConfig : Handler Key := notImplemented
def zoneHandlerItemUse : Handler Key := notImplemented
def zoneHandlerINeedParty : Handler Key := notImplemented
def zoneHandlerChatLog : Handler Key := notImplemented
def zoneHandlerDashRun : Handler Key := notImplemented

/-- A handler that only tells the players around. -/
def notify (type : PacketType) (structSize : ℕ) (event : ℕ → Handling Key (GameEvent Key)) :
    Handler Key := fun _ packet packetSize => do
  checkSize type structSize packetSize
  workerDispatchEvent (← event packet)
  return .ok

def zoneHandlerJump : Handler Key :=
  notify .czJump 1 fun _ => do
    return .jump (← gets (·.session.socket.mapId)) (← currentCommander) commanderHeightJump

def zoneHandlerMoveStop : Handler Key :=
  notify .czMoveStop 25 fun packet => do
    return .moveStop (← gets (·.session.socket.mapId)) (← currentCommander)
      (← readPositionXYZ (packet + 1)) (← readPositionXZ (packet + 13)) (← readU32 (packet + 21))

def zoneHandlerRestSit : Handler Key :=
  notify .czRestSit 0 fun _ => do
    return .restSit (← currentCommander).pcId

def zoneHandlerHeadRotate : Handler Key :=
  notify .czHeadRotate 8 fun packet => do
    return .headRotate (← currentCommander).pcId (← readPositionXZ packet)

def zoneHandlerRotate : Handler Key :=
  notify .czRotate 8 fun packet => do
    return .rotate (← currentCommander).pcId (← readPositionXZ packet)

/-- The structure is two bytes shorter than the packet type: the size check never passes. -/
def zoneHandlerPose : Handler Key :=
  notify .czPose 22 fun packet => do
    let c ← currentCommander
    return .pose c.pcId (← readU16 packet) c.pos (← readPositionXZ (packet + 14))

def zoneHandlerKeyboardMove : Handler Key := fun _ packet packetSize => do
  checkSize .czKeyboardMove 31 packetSize
  let position ← readPositionXYZ (packet + 1)
  let direction ← readPositionXZ (packet + 13)
  let timestamp ← readU32 (packet + 27)
  let session ← gets (·.session)
  let p ← found session.game.commanderSession.currentCommander
  let c ← commanderAt (some p)
  let moved := { c with pos := position, dir := direction }
  setCommander p (some moved)
  workerDispatchEvent (.commanderMove session.socket.mapId moved position direction timestamp)
  return .updateSession

def zoneHandlerCampInfo : Handler Key := fun _ _ packetSize => do
  checkSize .czCampinfo 8 packetSize
  send (.campInfo (← gets (·.session.socket.accountId)))
  return .ok

def zoneHandlerLogout : Handler Key := fun _ _ packetSize => do
  checkSize .czLogout 1 packetSize
  send .logout
  workerDispatchEvent (.leave (← currentCommander).pcId)
  return .ok

/-- `skillPos.x += direction.x * 20`. -/
def skillOffset (x direction : UInt32) : UInt32 :=
  (Float32.ofBits x + Float32.ofBits direction * 20).toBits

/-- The structure is four bytes shorter than the packet type: the size check never passes. -/
def zoneHandlerSkillGround : Handler Key := fun _ packet packetSize => do
  let _ ← currentCommander
  checkSize .czSkillGround 47 packetSize
  let pcId := (← currentCommander).pcId
  let skillId ← readU32 (packet + 1)
  let pos1 ← readPositionXYZ (packet + 9)
  let pos2 ← readPositionXYZ (packet + 21)
  let direction ← readPositionXZ (packet + 33)
  let skillPos :=
    { pos1 with x := skillOffset pos1.x direction.x, z := skillOffset pos1.z direction.z }
  sendAll [.normalUnk10_56 pcId skillId pos1 direction false, .skillReady pcId skillId pos1 pos2,
    .normalUnk10_56 pcId skillId skillPos direction true, .normalUnk11_1c pcId pos1 direction,
    .skillRangeFan pcId pos1 direction, .skillMeleeGround pcId skillId pos1 direction]
  return .ok

/-- The admin commands call no handler. -/
def adminCmdProcess (env : Env Key) (command : List UInt8) : Handling Key Bool :=
  lift fun w => (env.adminCmdProcess command w).map fun r => (r.1, { r.2 with called := w.called })

/-- The size of the text is the first field of the packet, less two headers. -/
def zoneHandlerChat : Handler Key := fun env packet packetSize => do
  let msgSize := sizeSub (sizeSub (← readU16 packet).toNat (clientHeaderSize true)) 2
  checkSize .czChat ((2 + msgSize) % 2 ^ 64) packetSize
  let last := (packet + 2 + sizeSub msgSize 1) % 2 ^ 64
  modify fun w => { w with memory := Function.update w.memory last 0 }
  let privilege ← gets (·.session.game.accountSession.privilege)
  let isCommand := privilege ≤ privilegesAdmin && (← readU8 (packet + 2)) = 0x2f
  if ← (if isCommand then do adminCmdProcess env (← readString (packet + 3)) else pure false) then
    return .updateSession
  else
    let c ← currentCommander
    workerDispatchEvent (.chat c (← readBytes (packet + 2) msgSize))
    return .updateSession

section Inventory

variable [DecidableEq Key]

/-- The commander that is played, with the memory of its inventory. -/
def currentStore : Handling Key (CommanderPtr × Commander Key × Store Key) := do
  let p ← found (← gets (·.session.game.commanderSession.currentCommander))
  let c ← commanderAt (some p)
  return (p, c, (← gets (·.heap)).store c.inventory)

omit [DecidableEq Key] in
def setStore (p : CommanderPtr) (c : Commander Key) (s : Store Key) : Handling Key Unit :=
  onHeap fun h => ((), h.setStore p c s)

/-- `INVENTORY_REMOVAL_DESTROYED` and `INVENTORY_TYPE_COMMANDER`. -/
def inventoryRemovalDestroyed : UInt8 := 3
def inventoryTypeCommander : UInt8 := 0

def zoneHandlerItemDelete : Handler Key := fun env packet packetSize => do
  checkSize .czItemDelete 22 packetSize
  let itemId ← readU64 (packet + 6)
  let (p, c, inventory) ← currentStore
  match ← found (inventoryGetItemByActorId env.actorGenKey inventory itemId) with
  | none => return .error
  | some item =>
    let (_, inventory) ← found (inventoryRemoveItem env.actorGenKey inventory item)
    setStore p c inventory
    send (.itemRemove (inventory.item item) inventoryRemovalDestroyed inventoryTypeCommander)
    return .ok

def zoneHandlerSwapEtcInvChangeIndex : Handler Key := fun env packet packetSize => do
  checkSize .czSwapEtcInvChangeIndex 25 packetSize
  let actorId1 ← readU64 (packet + 1)
  let inventoryIndex1 ← readU32 (packet + 9)
  let actorId2 ← readU64 (packet + 13)
  let inventoryIndex2 ← readU32 (packet + 21)
  require (inventoryIndex1 ≠ inventoryIndex2) .error
  let (p, c, inventory) ← currentStore
  let (swapped, inventory) ←
    found (inventorySwapItems env.actorGenKey inventory actorId1 actorId2)
  setStore p c inventory
  require swapped .error
  return .ok

end Inventory

def zoneHandlerReqNormalTxNumArg : Handler Key := fun _ packet _ => do
  sendAll [.jobPoints 4001 1, .skillAdd (← readU32 (packet + 8))]
  return .ok

/-- The direction is an integer that is cast to a float. -/
def castingDirection : PositionXZ := ⟨0x4e7cd414, 0x4f3f3505⟩

def zoneHandlerDynamicCastingStart : Handler Key := fun _ packet _ => do
  let skillId ← readU32 packet
  let c ← currentCommander
  sendAll [.pcMoveStop c.pcId c.pos castingDirection 0, .normalUnk14_4c c.pcId skillId,
    .skillReady c.pcId skillId c.pos c.pos, .normalUnk11_1c c.pcId c.pos castingDirection,
    .skillRangeSquare c.pcId skillId c.pos c.pos,
    .normalUnk10_56 c.pcId skillId c.pos castingDirection true, .buffAdd c.pcId c]
  return .ok

def zoneHandlers [DecidableEq Key] : List (PacketType × Handler Key) :=
  [(.czConnect, zoneHandlerConnect), (.czGameReady, zoneHandlerGameReady),
    (.czJump, zoneHandlerJump), (.czOnAir, zoneHandlerOnAir), (.czOnGround, zoneHandlerOnGround),
    (.czKeyboardMove, zoneHandlerKeyboardMove), (.czMoveStop, zoneHandlerMoveStop),
    (.czMovementInfo, zoneHandlerMovementInfo), (.czCampinfo, zoneHandlerCampInfo),
    (.czQuickslotList, zoneHandlerCzQuickSlotList), (.czChangeConfig, zoneHandlerChangeConfig),
    (.czLogout, zoneHandlerLogout), (.czItemUse, zoneHandlerItemUse),
    (.czINeedParty, zoneHandlerINeedParty), (.czSkillGround, zoneHandlerSkillGround),
    (.czRestSit, zoneHandlerRestSit), (.czChat, zoneHandlerChat), (.czChatLog, zoneHandlerChatLog),
    (.czHeadRotate, zoneHandlerHeadRotate), (.czRotate, zoneHandlerRotate),
    (.czPose, zoneHandlerPose), (.czDashrun, zoneHandlerDashRun),
    (.czItemDelete, zoneHandlerItemDelete),
    (.czSwapEtcInvChangeIndex, zoneHandlerSwapEtcInvChangeIndex),
    (.czReqNormalTxNumarg, zoneHandlerReqNormalTxNumArg),
    (.czDynamicCastingStart, zoneHandlerDynamicCastingStart)]

end R1Emu.Handler
