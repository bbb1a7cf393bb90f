import R1Emu.Game.Database

/-!
# The handlers of the barrack server

Each handler reads its packet at the offsets of the structure laid over it. A slot of the
array of commanders that does not exist is a fault, as is a null pointer that is followed.
-/
namespace R1Emu.Handler
open R1Emu.Actor R1Emu.Game R1Emu.Lib R1Emu.Lib.Stage R1Emu.Lib.Bytes R1Emu.Packet R1Emu.Server
open R1Emu.Commander (ItemPtr eqSlotCount inventoryInit)

variable {Key : Type}

/-- The value of a handler's state in C. -/
def stateValue : PacketHandlerState → Int
  | .error => -1
  | .ok => 0
  | .updateSession => 1
  | .deleteSession => 2

/-- Call another handler, and record what it returns. -/
def callHandler (handler : Handling Key PacketHandlerState) : Handling Key PacketHandlerState := do
  let state ← call handler
  modify fun w => { w with called := w.called ++ [state] }
  return state

def updateSession (f : Session → Session) : Handling Key Unit :=
  modify fun w => { w with session := f w.session }

/-- The password that the answer to a login carries. -/
def loginSessionKey : String := "*0FC621B82495C18DEC8D8D956C82297BEAAAA858"

def barrackHandlerLogin : Handler Key := fun env packet packetSize => do
  checkSize .cbLogin 56 packetSize
  let accountName ← readString packet
  let md5Password ← readBytes (packet + 33) 16
  match ← mySqlGetAccountData env accountName md5Password env.uninitialised with
  | none => return .error
  | some (false, _) =>
    send (.message .userPassIncorrect1 "")
    return .ok
  | some (true, accountSession) =>
    if accountSession.isBanned then
      send (.message .accountBlocked2 "")
      return .ok
    else
      updateSession fun s =>
        { socket := { s.socket with authenticated := true, accountId := accountSession.accountId }
          game := { s.game with accountSession } }
      send (.loginOk accountSession.accountId accountSession.accountName loginSessionKey
        accountSession.privilege)
      return .updateSession

/-- `%llX`. -/
def upperHex (n : ℕ) : List UInt8 := (Nat.toDigits 16 n).map fun c => UInt8.ofNat c.toUpper.toNat

/-- The name handed to `accountSessionInit` is the one it has just cleared. -/
def barrackHandlerLoginByPassport : Handler Key := fun _ _ packetSize => do
  checkSize .cbLoginByPassport 1042 packetSize
  updateSession fun s => { s with socket := { s.socket with authenticated := true } }
  let accountId ← r1emuGenerateRandom64
  updateSession fun s => { s with socket := { s.socket with accountId } }
  updateSession fun s => { s with game := { s.game with
    accountSession := accountSessionInit (Vector.replicate 33 0) s.socket.sessionKey
      privilegesAdmin } }
  let accountName := strncpy 33 (upperHex accountId.toNat)
  updateSession fun s => { s with game := { s.game with
    accountSession := { s.game.accountSession with accountName } } }
  send (.loginOk accountId accountName loginSessionKey privilegesAdmin)
  return .updateSession

/-- The addresses and the ports of the zone servers. -/
def zoneServers : List (List UInt8 × ℕ) :=
  [([127, 0, 0, 1], 2004), ([46, 105, 97, 46], 2005), ([192, 168, 33, 10], 2006),
    ([37, 187, 102, 130], 2007)]

/-- The index in C of the commander that the client counts from one. -/
def slotIndex (commanderIndex : UInt8) : Int := commanderIndex.toNat - 1

/-- The session that is saved in the barrack before the game starts. -/
def startGameSession (session : Session) (commander : Option CommanderPtr) : Session :=
  { session with game := { session.game with commanderSession := ⟨commander⟩ } }

/-- Move the session that has been saved to the zone server, and answer. -/
def startGameMove (env : Env Key) (tmpSession : Session) (routerId : UInt16)
    (zoneServer : List UInt8 × ℕ) (commanderIndex : UInt8) : Handling Key PacketHandlerState := do
  let commander := tmpSession.game.commanderSession.currentCommander
  require (← redisMoveGameSession env (gameSessionKey tmpSession)
    ⟨routerId, undefinedMap, tmpSession.socket.accountId⟩) .error
  updateSession fun s => { s with game := { s.game with commanderSession := ⟨commander⟩ } }
  let c ← commanderAt commander
  send (.startGameOk env.routerId (leValue zoneServer.1) zoneServer.2 c.mapId commanderIndex
    c.socialInfoId false)
  return .updateSession

def barrackHandlerStartGame : Handler Key := fun env packet packetSize => do
  checkSize .cbStartGame 3 packetSize
  let routerId ← readU16 packet
  let commanderIndex ← readU8 (packet + 2)
  let session ← gets (·.session)
  let commander ← commanderSlot session.game.accountSession.commanders (slotIndex commanderIndex)
  require commander.isSome .error
  match zoneServers[routerId.toNat]? with
  | none => return .error
  | some zoneServer =>
    let tmpSession := startGameSession session commander
    require (← redisUpdateSession env tmpSession) .error
    startGameMove env tmpSession routerId zoneServer commanderIndex

/-- A commander of the account, if the index is in range and the slot is not empty. -/
def accountSessionGetCommanderByIndex (accountSession : AccountSession) (commanderIndex : Int) :
    Handling Key (Option CommanderPtr) :=
  if commanderIndex < 0 ∨ (accountSession.commandersCountMax : Int) ≤ commanderIndex then
    return none
  else commanderSlot accountSession.commanders commanderIndex

/-- Two of the three coordinates are copied. -/
def barrackHandlerCommanderMove : Handler Key := fun _ packet packetSize => do
  checkSize .cbCommanderMove 21 packetSize
  let commanderIndex ← readU8 packet
  let position ← readPositionXYZ (packet + 1)
  let session ← gets (·.session)
  match ← accountSessionGetCommanderByIndex session.game.accountSession
      (slotIndex commanderIndex) with
  | none => return .error
  | some commander =>
    updateSession fun s => { s with game := { s.game with commanderSession := ⟨some commander⟩ } }
    let c ← commanderAt (some commander)
    let barrackPos := { c.barrackPos with x := position.x, y := position.y }
    setCommander commander (some { c with barrackPos })
    send (.commanderMoveOk session.socket.accountId commanderIndex barrackPos)
    return .updateSession

def barrackHandlerStartBarrack : Handler Key := fun env _ _ => do
  let session ← gets (·.session)
  match ← mySqlLoadAccountCommanders env session.game.accountSession session.socket.accountId with
  | none => return .error
  | some (accountSession, commandersCount) =>
    updateSession fun s => { s with game := { s.game with accountSession } }
    let w ← gets id
    send (.commanderList session.socket.accountId w.session.game accountSession.commanders
      commandersCount w.heap)
    return .updateSession

/-- The packet that is sent before the barrack is started. -/
def integrityPacket : List UInt8 :=
  [0x4f, 0x00, 0xff, 0xff, 0xff, 0xff, 0x1d, 0x00, 0x04, 0x00, 0x00, 0x00, 0x4b, 0x0a, 0x0f, 0x06,
    0x01, 0x00, 0x10, 0x01, 0x0c, 0x00, 0x00, 0x00, 0x00, 0x00, 0x00, 0x00, 0x00]

/-- The state that starting the barrack returns is taken for a truth value. -/
def barrackHandlerCheckClientIntegrity : Handler Key := fun env packet packetSize => do
  send (.memory integrityPacket)
  let state ← callHandler (barrackHandlerStartBarrack env packet packetSize)
  require (stateValue state ≠ 0) .error
  return .updateSession

def barrackHandlerCurrentBarrack : Handler Key := fun _ _ _ => do
  send .petInformation
  send (.zoneTraffics 1021)
  return .ok

/-- The status of the change, and the handler's state before it is answered. The comparison
binds tighter than the assignment, so the status is a truth value. -/
def changeBarrackName (env : Env Key) (packet : ℕ) : Handling Key (Int × PacketHandlerState) := do
  let barrackName ← readString packet
  if barrackName = [] then return (barrackNameChangeError, .error)
  else if !barrackName.all isprint then return (barrackNameChangeError, .error)
  else
    let accountSession ← gets (·.session.game.accountSession)
    if (← readBytes packet 64) = accountSession.familyName.toList then
      return (barrackNameChangeOk, .updateSession)
    else
      let answer ← mySqlSetFamilyName env accountSession.accountId barrackName
      let changeStatus : Int := if answer ≠ barrackNameChangeOk then 1 else 0
      if changeStatus ≠ 0 then return (changeStatus, .error)
      else
        updateSession fun s => { s with game := { s.game with
          accountSession := { s.game.accountSession with familyName := strncpy 64 barrackName } } }
        return (changeStatus, .updateSession)

def barrackHandlerBarrackNameChange : Handler Key := fun env packet packetSize => do
  checkSize .cbBarracknameChange 64 packetSize
  let (changeStatus, state) ← changeBarrackName env packet
  send (.barrackNameChange changeStatus (← gets (·.session.game.accountSession.familyName)))
  if changeStatus ≠ barrackNameChangeOk then return .ok else return state

def barrackHandlerCommanderDestroy : Handler Key := fun env packet packetSize => do
  checkSize .cbCommanderDestroy 1 packetSize
  let commanderIndex ← readU8 packet
  let commanders ← gets (·.session.game.accountSession.commanders)
  match ← commanderSlot commanders (slotIndex commanderIndex) with
  | none => return .error
  | some commanderToDelete =>
    let c ← commanderAt (some commanderToDelete)
    if ← mySqlCommanderDelete env c.commanderId then
      updateSession fun s => { s with game := { s.game with commanderSession := ⟨none⟩ } }
      destroySlot commanders (slotIndex commanderIndex).toNat
      send (.commanderDestroy commanderIndex.toNat)
      return .updateSession
    else
      send (.message .customMsg
        "There was a problem while deleting your Character. Please try again.")
      return .ok

/-- Whether the index is in range and the slot is empty. -/
def accountSessionIsCommanderSlotEmpty (accountSession : AccountSession) (commanderIndex : Int) :
    Handling Key Bool :=
  if commanderIndex < 0 ∨ (accountSession.commandersCountMax : Int) ≤ commanderIndex then
    return false
  else return (← commanderSlot accountSession.commanders commanderIndex).isNone

/-- The class of a new commander, by its job. -/
def commanderClass : UInt16 → Option UInt16
  | 1001 => some 10001
  | 3001 => some 10003
  | 2001 => some 10006
  | 4001 => some 10005
  | _ => none

/-- The same for each of the four jobs. -/
def defaultEquipment (slot : Fin eqSlotCount) : UInt32 :=
  [2, 2, 4, 531101, 6, 7, 10000, 11000, 201101, 9999996, 4, 9, 9, 4, 521101, 9, 9, 9, 9, 10].getD
    slot 0

/-- An item that cannot be created is a null pointer that is followed. -/
def createDefaultItem (env : Env Key) (slot : Fin eqSlotCount) :
    Handling Key (Option ItemPtr) := do
  let item ← found (← itemFactoryCreate env (defaultEquipment slot) 1)
  setItemSlot item (UInt8.ofNat slot)
  return some item

/-- The commander that the client asks for, or the message with which it is refused. -/
def newCommander (env : Env Key) (packet : ℕ) :
    Handling Key (Except BcMessageType (Commander Key)) := do
  let session ← gets (·.session)
  let commanderName ← readString (packet + 1)
  let jobId ← readU16 (packet + 66)
  let gender ← readU8 (packet + 68)
  let hairId ← readU8 (packet + 81)
  if commanderName = [] then return .error .commanderNameTooShort
  else if !commanderName.all isprint then return .error .nameAlreadyExist
  else
    match commanderClass jobId with
    | none => return .error .createCommanderFail
    | some classId =>
      if gender ≠ 1 ∧ gender ≠ 2 then return .error .createCommanderFail
      else
        let pcId ← r1emuGenerateRandom
        let socialInfoId ← r1emuGenerateRandom64
        let equippedItems ← equipSlots (createDefaultItem env) (List.finRange eqSlotCount)
          fun _ => none
        return .ok { (commanderInit : Commander Key) with
          mapId := 1021
          classId := classId
          jobId := jobId
          gender := gender
          commanderName := strncpy 65 commanderName
          familyName := strncpy 64 session.game.accountSession.familyName.toList
          accountId := session.socket.accountId
          hairId := hairId
          pcId := pcId
          socialInfoId := socialInfoId
          pos := startPosition
          dir := ⟨0, 0⟩
          inventory := { inventoryInit with equippedItems } }

def barrackHandlerCommanderCreate : Handler Key := fun env packet packetSize => do
  checkSize .cbCommanderCreate 82 packetSize
  let commanderIndex ← readU8 packet
  let accountSession ← gets (·.session.game.accountSession)
  require (← accountSessionIsCommanderSlotEmpty accountSession (slotIndex commanderIndex)) .error
  match ← newCommander env packet with
  | .error msgType =>
    send (.message msgType "")
    return .ok
  | .ok commander =>
    match ← mySqlCommanderInsert env commander with
    | none => return .error
    | some commanderId =>
      let newCommander := { commander with commanderId }
      match ← commanderDup env (pure newCommander) with
      | none => return .error
      | some dupCommander =>
        setCommanderSlot accountSession.commanders (slotIndex commanderIndex).toNat
          (some dupCommander)
        send (.commanderCreate newCommander commanderIndex.toNat)
        return .updateSession

def barrackHandlerLogout : Handler Key := fun _ _ _ => do
  send .logoutOk
  return .ok

def barrackHandlers : List (PacketType × Handler Key) :=
  [(.cbLogin, barrackHandlerLogin), (.cbLoginByPassport, barrackHandlerLoginByPassport),
    (.cbStartBarrack, barrackHandlerStartBarrack),
    (.cbCurrentBarrack, barrackHandlerCurrentBarrack),
    (.cbBarracknameChange, barrackHandlerBarrackNameChange),
    (.cbCommanderCreate, barrackHandlerCommanderCreate),
    (.cbCommanderDestroy, barrackHandlerCommanderDestroy),
    (.cbCommanderMove, barrackHandlerCommanderMove), (.cbStartGame, barrackHandlerStartGame),
    (.cbLogout, barrackHandlerLogout),
    (.cbCheckClientIntegrity, barrackHandlerCheckClientIntegrity)]

end R1Emu.Handler
