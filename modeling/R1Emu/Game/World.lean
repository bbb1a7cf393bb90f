import R1Emu.Actor.ItemFactory
import R1Emu.Game.Session
import R1Emu.Lib.Stage
import R1Emu.Server.Worker

/-!
# What a handler works on

A handler reads and writes a session, the heap behind it, and the packet, and it produces
reply packets and events. It also writes to the databases: the world has a log of the writes
that took effect. What the databases answer, and whether memory can be allocated, is up to
the environment; the answers may depend on all that was written before.
-/
namespace R1Emu.Game
open R1Emu.Actor R1Emu.Lib R1Emu.Lib.Bytes R1Emu.Server
open R1Emu.Commander (Inventory ItemPtr Store eqSlotCount)

/-- A row of the table of commanders. -/
structure CommanderRow where
  accountId : UInt64
  commanderName : List UInt8
  level : UInt32
  exp : UInt32
  gender : UInt8
  jobId : UInt16
  classId : UInt16
  hairId : UInt8
  mapId : UInt16
  position : PositionXYZ
  barrackPosition : PositionXYZ
  hp : UInt32
  mp : UInt16
  /-- The ids of the equipped items. -/
  eqSlots : Fin eqSlotCount → UInt32

structure AccountRow where
  accountId : UInt64
  isBanned : Bool
  timeBanned : UInt64
  credits : UInt32
  privilegeLevel : UInt32
  familyName : List UInt8
  barrackType : UInt32

structure RedisSocketSessionKey where
  routerId : UInt16
  sessionKey : List UInt8

structure RedisGameSessionKey where
  routerId : UInt16
  mapId : UInt16
  accountId : UInt64

/-- The fields of a game session in Redis that belong to the account. -/
structure AccountFields where
  accountName : List UInt8
  sessionKey : List UInt8
  privilege : UInt32
  commandersCountMax : ℕ

/-- The fields of a game session in Redis that belong to the commander. -/
structure CommanderFields where
  mapId : UInt16
  commanderName : List UInt8
  familyName : List UInt8
  accountId : UInt64
  classId : UInt16
  jobId : UInt16
  gender : UInt8
  level : UInt32
  hairId : UInt8
  pose : UInt16
  pos : PositionXYZ
  barrackPos : PositionXYZ
  currentXP : UInt32
  maxXP : UInt32
  pcId : UInt32
  socialInfoId : UInt64
  commanderId : UInt64
  currentHP : UInt32
  maxHP : UInt32
  currentSP : UInt16
  maxSP : UInt16
  currentStamina : UInt32
  maxStamina : UInt32

/-- A whole game session in Redis, with the ids of the equipped items. -/
structure GameFields where
  account : AccountFields
  commander : CommanderFields
  equipment : Fin eqSlotCount → UInt32

/-- A write to one of the databases. -/
inductive Write
  | insertCommander (row : CommanderRow)
  | updateCommander (commanderId : UInt64) (row : CommanderRow)
  | deleteCommander (commanderId : UInt64)
  | setFamilyName (accountId : UInt64) (familyName : List UInt8)
  | hmsetSocket (key : RedisSocketSessionKey) (accountId : UInt64) (routerId mapId : UInt16)
      (authenticated : Bool)
  | hmsetAccount (key : RedisGameSessionKey) (fields : AccountFields)
  | hmsetCommander (key : RedisGameSessionKey) (fields : CommanderFields)
  | hmsetEquipment (key : RedisGameSessionKey) (eqSlots : Fin eqSlotCount → UInt32)
  | rename (source target : RedisGameSessionKey)

/-- How a database answers a write: whether the answer says that it was done, and whether it
was. A write that is not acknowledged may have been done, or not. -/
structure Answer where
  done : Bool
  applied : Bool
  applied_of_done : done = true → applied = true
  /-- `mysql_insert_id`. -/
  insertId : UInt64

/-- The rows that a SQL statement selects, unless it fails or no result is stored. -/
inductive SqlReply (α : Type)
  | error
  | success (result : Option (List α))

/-- The reply to a Redis command that reads fields: an array of them, where `none` stands
for a number of elements that is not expected and for an element that is nil. -/
inductive RedisReply (α : Type)
  | null
  | error
  | status
  | array (fields : Option α)
  | other

inductive BcMessageType
  | customMsg
  | userPassIncorrect1
  | accountBlocked2
  | commanderNameTooShort
  | nameAlreadyExist
  | createCommanderFail
  deriving DecidableEq

/-- The reply packets: the builder that makes each, with its arguments. -/
inductive Reply (Key : Type)
  | memory (data : List UInt8)
  | message (type : BcMessageType) (text : String)
  | loginOk (accountId : UInt64) (accountName : Chars 33) (sessionKey : String) (privilege : UInt32)
  | startGameOk (zoneServerId : UInt16) (zoneServerIp zoneServerPort : ℕ) (mapId : UInt16)
      (commanderListId : UInt8) (socialInfoId : UInt64) (isSingleMap : Bool)
  | commanderMoveOk (accountId : UInt64) (commanderListId : UInt8) (position : PositionXYZ)
  | commanderList (accountId : UInt64) (gameSession : GameSession)
      (commanders : Option CommandersPtr) (commandersCount : ℕ) (heap : Heap Key)
  | petInformation
  | zoneTraffics (mapId : UInt16)
  | barrackNameChange (resultType : Int) (barrackName : Chars 64)
  | commanderDestroy (commanderDestroyMask : ℕ)
  | commanderCreate (commander : Commander Key) (commandersCount : ℕ)
  | logoutOk
  | sessionObjects
  | optionList
  | skillmapList
  | achievePointList
  | chatMacroList
  | uiInfoList
  | npcStateList
  | helpList
  | myPageMap
  | guestPageMap
  | startInfo
  | itemEquipList (inventory : Store Key)
  | itemInventoryList (inventory : Store Key)
  | skillList (pcId : UInt32)
  | abilityList (pcId : UInt32)
  | cooldownList (socialInfoId : UInt64)
  | quickSlotList
  | normalUnk1
  | normalUnk2
  | normalUnk3
  | normalUnk4 (socialInfoId : UInt64)
  | normalUnk5
  | startGame (timeMultiplier serverAppTimeOffset globalAppTimeOffset serverDateTime : UInt32)
  | objectProperty (socialInfoId : UInt64)
  | loginTime
  | myPCEnter (position : PositionXYZ)
  | enterMonster
  | faction
  | moveSpeed (pcId movementSpeed : UInt32)
  | connectOk (gameMode : UInt8) (accountPrivileges : UInt32) (commander : Commander Key)
  | normalUnk10_56 (pcId skillId : UInt32) (position : PositionXYZ) (direction : PositionXZ)
      (enableSkill : Bool)
  | skillReady (pcId skillId : UInt32) (pos1 pos2 : PositionXYZ)
  | normalUnk11_1c (pcId : UInt32) (position : PositionXYZ) (direction : PositionXZ)
  | skillRangeFan (pcId : UInt32) (position : PositionXYZ) (direction : PositionXZ)
  | skillMeleeGround (pcId skillId : UInt32) (position : PositionXYZ) (direction : PositionXZ)
  | campInfo (accountId : UInt64)
  | logout
  | itemRemove (item : Item) (removalType inventoryType : UInt8)
  | jobPoints (jobId points : UInt16)
  | skillAdd (skillId : UInt32)
  | pcMoveStop (pcId : UInt32) (position : PositionXYZ) (direction : PositionXZ)
      (timestamp : UInt32)
  | normalUnk14_4c (pcId skillId : UInt32)
  | skillRangeSquare (pcId skillId : UInt32) (pos1 pos2 : PositionXYZ)
  | buffAdd (pcId : UInt32) (commander : Commander Key)

inductive GameEvent (Key : Type)
  | commanderMove (mapId : UInt16) (commander : Commander Key) (position : PositionXYZ)
      (direction : PositionXZ) (timestamp : UInt32)
  | moveStop (mapId : UInt16) (commander : Commander Key) (position : PositionXYZ)
      (direction : PositionXZ) (timestamp : UInt32)
  | restSit (pcId : UInt32)
  | jump (mapId : UInt16) (commander : Commander Key) (height : UInt32)
  | enterPc (mapId : UInt16) (commander : Commander Key)
  | chat (commander : Commander Key) (chatText : List UInt8)
  | headRotate (pcId : UInt32) (direction : PositionXZ)
  | rotate (pcId : UInt32) (direction : PositionXZ)
  | leave (pcId : UInt32)
  | pose (pcId : UInt32) (poseId : UInt16) (position : PositionXYZ) (direction : PositionXZ)

structure World (Key : Type) where
  session : Session
  heap : Heap Key
  /-- The seed of the worker's random numbers. -/
  seed : UInt32
  /-- The writes to the databases that took effect, oldest first. -/
  writes : List Write
  /-- The memory that the packet lies in. -/
  memory : Memory
  reply : List (Reply Key)
  /-- The events dispatched, each with the session key of its emitter. -/
  events : List (Chars 11 × GameEvent Key)
  /-- What the handlers that a handler called have returned. -/
  called : List PacketHandlerState

/-- The rest of the program and of the world. -/
structure Env (Key : Type) where
  /-- The worker's own router id. -/
  routerId : UInt16
  actorGenKey : UInt64 → Key
  staticData : ItemStaticData
  /-- Whether an allocation succeeds, by the number of those before. -/
  allocates : ℕ → Bool
  rand : ℕ → UInt32
  /-- What the stack holds where a local account session is declared. -/
  uninitialised : AccountSession
  write : List Write → Write → Answer
  selectAccount : List Write → List UInt8 → List UInt8 → SqlReply AccountRow
  selectCommanders : List Write → UInt64 → SqlReply (UInt64 × CommanderRow)
  selectFlag : List Write → SqlReply Int
  hmgetAccount : List Write → RedisGameSessionKey → RedisReply AccountFields
  hmgetGame : List Write → RedisGameSessionKey → RedisReply GameFields
  adminCmdProcess : List UInt8 → World Key → Option (Bool × World Key)
  /-- The packet that a builder makes. -/
  build : Reply Key → Frame

abbrev Handling (Key : Type) := Stage (World Key) PacketHandlerState

/-- A handler gets the position and the size of its packet. -/
abbrev Handler (Key : Type) := Env Key → ℕ → ℕ → Handling Key PacketHandlerState

end R1Emu.Game
