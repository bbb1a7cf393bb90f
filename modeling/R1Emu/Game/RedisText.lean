import R1Emu.Game.Database
import R1Emu.Lib.Command
import R1Emu.Lib.KeyValue
import Mathlib.Data.List.GetD

/-!
# Redis commands as texts

A command for Redis is printed from its format, and the client library takes the text for a
format once more: it splits it at spaces, and a percent sign in it, wherever it came from,
stands for an argument that is not there. The fields of a game session are set with three
formats, each with its arguments in the order of the format. They are read with a fourth one,
and told apart in the reply by their place in it.
-/
namespace R1Emu.Game
open R1Emu.Lib.CFormat R1Emu.Lib.Command R1Emu.Lib.KeyValue
open R1Emu.Commander (eqSlotCount)

/-- `RedisGameSessionFields`. -/
inductive GameField
  | accountName
  | sessionKey
  | privilege
  | commandersCountMax
  | mapId
  | commanderName
  | familyName
  | accountId
  | classId
  | jobId
  | gender
  | level
  | hairId
  | pose
  | posX
  | posY
  | posZ
  | barrackPosX
  | barrackPosY
  | barrackPosZ
  | currentXP
  | maxXP
  | pcId
  | socialInfoId
  | commanderId
  | currentHP
  | maxHP
  | currentSP
  | maxSP
  | currentStamina
  | maxStamina
  | eqSlot (slot : Fin eqSlotCount)
  deriving DecidableEq

/-- The names of the equipment fields, by slot. -/
def eqSlotStr : List String :=
  ["head_top", "head_middle", "itemUnk1", "body_armor", "gloves", "boots", "helmet", "bracelet",
    "weapon", "shield", "costume", "itemUnk3", "itemUnk4", "itemUnk5", "leg_armor", "itemUnk6",
    "itemUnk7", "ring_left", "ring_right", "necklace"]

def GameField.str : GameField → String
  | .accountName => "accountName"
  | .sessionKey => "sessionKey"
  | .privilege => "privilege"
  | .commandersCountMax => "commandersCountMax"
  | .mapId => "mapId"
  | .commanderName => "commanderName"
  | .familyName => "familyName"
  | .accountId => "accountId"
  | .classId => "classId"
  | .jobId => "jobId"
  | .gender => "gender"
  | .level => "level"
  | .hairId => "hairId"
  | .pose => "pose"
  | .posX => "posX"
  | .posY => "posY"
  | .posZ => "posZ"
  | .barrackPosX => "barrackPosX"
  | .barrackPosY => "barrackPosY"
  | .barrackPosZ => "barrackPosZ"
  | .currentXP => "currentXP"
  | .maxXP => "maxXP"
  | .pcId => "pcId"
  | .socialInfoId => "socialInfoId"
  | .commanderId => "commanderId"
  | .currentHP => "currentHP"
  | .maxHP => "maxHP"
  | .currentSP => "currentSP"
  | .maxSP => "maxSP"
  | .currentStamina => "currentStamina"
  | .maxStamina => "maxStamina"
  | .eqSlot slot => eqSlotStr.getD slot ""

/-- The fields in the order of the enumeration. -/
def redisGameSessionFields : List GameField :=
  [.accountName, .sessionKey, .privilege, .commandersCountMax, .mapId, .commanderName, .familyName,
    .accountId, .classId, .jobId, .gender, .level, .hairId, .pose, .posX, .posY, .posZ,
    .barrackPosX, .barrackPosY, .barrackPosZ, .currentXP, .maxXP, .pcId, .socialInfoId,
    .commanderId, .currentHP, .maxHP, .currentSP, .maxSP, .currentStamina, .maxStamina] ++
    (List.finRange eqSlotCount).map .eqSlot

/-- `REDIS_SESSION_COUNT`. -/
def redisSessionCount : ℕ := 51

/-! ### The formats and their arguments -/

def keyFormat : List Piece :=
  [.text (text "zone"), .conv .x, .text (text ":map"), .conv .x, .text (text ":acc"), .conv .llx]

def keyArgs (key : RedisGameSessionKey) : List Arg :=
  [.word key.routerId.toUInt64, .word key.mapId.toUInt64, .word key.accountId]

/-- A field that is set, with its conversion. -/
def setFormat (row : GameField × Conversion) : List Piece :=
  [.text (text " " ++ text row.1.str ++ text " "), .conv row.2]

/-- The format of a command that sets fields. -/
def hmsetFormat (rows : List (GameField × Conversion)) : List Piece :=
  .text (text "HMSET ") :: keyFormat ++ rows.flatMap setFormat

def accountFormat : List (GameField × Conversion) :=
  [(.sessionKey, .s), (.accountName, .s), (.privilege, .x), (.commandersCountMax, .x)]

def accountArgs (fields : AccountFields) : List Arg :=
  [.string fields.sessionKey, .string fields.accountName, .word fields.privilege.toUInt64,
    .word (UInt64.ofNat fields.commandersCountMax)]

def commanderFormat : List (GameField × Conversion) :=
  [(.mapId, .x), (.commanderName, .s), (.familyName, .s), (.accountId, .llx), (.classId, .x),
    (.jobId, .x), (.gender, .x), (.level, .x), (.hairId, .x), (.pose, .x), (.posX, .f),
    (.posY, .f), (.posZ, .f), (.barrackPosX, .f), (.barrackPosY, .f), (.barrackPosZ, .f),
    (.currentXP, .x), (.maxXP, .x), (.pcId, .x), (.socialInfoId, .llx), (.commanderId, .llx),
    (.currentHP, .x), (.maxHP, .x), (.currentSP, .x), (.maxSP, .x), (.currentStamina, .x),
    (.maxStamina, .x)]

def commanderArgs (fields : CommanderFields) : List Arg :=
  [.word fields.mapId.toUInt64, .string fields.commanderName, .string fields.familyName,
    .word fields.accountId, .word fields.classId.toUInt64, .word fields.jobId.toUInt64,
    .word fields.gender.toUInt64, .word fields.level.toUInt64, .word fields.hairId.toUInt64,
    .word fields.pose.toUInt64, .float fields.pos.x, .float fields.pos.y, .float fields.pos.z,
    .float fields.barrackPos.x, .float fields.barrackPos.y, .float fields.barrackPos.z,
    .word fields.currentXP.toUInt64, .word fields.maxXP.toUInt64, .word fields.pcId.toUInt64,
    .word fields.socialInfoId, .word fields.commanderId, .word fields.currentHP.toUInt64,
    .word fields.maxHP.toUInt64, .word fields.currentSP.toUInt64, .word fields.maxSP.toUInt64,
    .word fields.currentStamina.toUInt64, .word fields.maxStamina.toUInt64]

def equipmentFormat : List (GameField × Conversion) :=
  (List.finRange eqSlotCount).map fun slot => (.eqSlot slot, .x)

def equipmentArgs (eqSlots : Fin eqSlotCount → UInt32) : List Arg :=
  (List.finRange eqSlotCount).map fun slot => .word (eqSlots slot).toUInt64

def hmgetFormat : List Piece :=
  .text (text "HMGET ") :: keyFormat ++
    redisGameSessionFields.map fun field => .text (text " " ++ text field.str)

def renameFormat : List Piece :=
  .text (text "RENAME ") :: keyFormat ++ .text (text " ") :: keyFormat

def socketFormat : List Piece :=
  [.text (text "HMSET zone"), .conv .x, .text (text ":socket"), .conv .s,
    .text (text " accountId "), .conv .llx, .text (text " routerId "), .conv .x,
    .text (text " mapId "), .conv .x, .text (text " authenticated "), .conv .x]

/-- The text of a Redis command. The other writes are statements for the other database. -/
def command : Write → Option Text
  | .hmsetSocket key accountId routerId mapId authenticated =>
    printf socketFormat [.word key.routerId.toUInt64, .string key.sessionKey, .word accountId,
      .word routerId.toUInt64, .word mapId.toUInt64, .word (if authenticated then 1 else 0)]
  | .hmsetAccount key fields =>
    printf (hmsetFormat accountFormat) (keyArgs key ++ accountArgs fields)
  | .hmsetCommander key fields =>
    printf (hmsetFormat commanderFormat) (keyArgs key ++ commanderArgs fields)
  | .hmsetEquipment key eqSlots =>
    printf (hmsetFormat equipmentFormat) (keyArgs key ++ equipmentArgs eqSlots)
  | .rename source target => printf renameFormat (keyArgs source ++ keyArgs target)
  | _ => none

/-! ### What Redis does with a command -/

abbrev TextHash := Map Text Text
abbrev TextStore := Map Text TextHash

/-- Fields and values, one after the other. -/
def pairs : List Text → Option (List (Text × Text))
  | [] => some []
  | [_] => none
  | field :: value :: rest => (pairs rest).map ((field, value) :: ·)

/-- The store after a command, unless it is refused. -/
def TextStore.execute (store : TextStore) : List Text → Option TextStore
  | [name, source, target] =>
    if name = text "RENAME" then
      (store source).map fun hash =>
        Function.update (Function.update store source none) target (some hash)
    else none
  | name :: key :: objects =>
    if name = text "HMSET" ∧ objects ≠ [] then
      (pairs objects).map fun objects =>
        Function.update store key (some (Map.insertAll ((store key).getD Map.empty) objects))
    else none
  | _ => none

def TextStore.sent (store : TextStore) (write : Write) : Option TextStore := do
  store.execute (← arguments (← command write))

/-- What the writes have left in Redis. -/
def textStoreOf (writes : List Write) : TextStore :=
  writes.foldl (fun store write => (store.sent write).getD store) Map.empty

/-- The values of the fields, where they are set. -/
def TextStore.hmget (store : TextStore) : List Text → Option (List (Option Text))
  | name :: key :: fields =>
    if name = text "HMGET" ∧ fields ≠ [] then
      some (fields.map fun field => (store key).bind fun hash => hash field)
    else none
  | _ => none

/-- The answer of Redis to a command, or of the other database to a statement. -/
def textAnswer (write : List Write → Write → Answer) (writes : List Write) : Write → Answer
  | .insertCommander row => write writes (.insertCommander row)
  | .updateCommander commanderId row => write writes (.updateCommander commanderId row)
  | .deleteCommander commanderId => write writes (.deleteCommander commanderId)
  | .setFamilyName accountId familyName => write writes (.setFamilyName accountId familyName)
  | redisCommand =>
    let executed := ((textStoreOf writes).sent redisCommand).isSome
    ⟨executed, executed, id, 0⟩

/-! ### Reading the reply -/

section Reply
variable (strtof : Text → UInt32)

/-- The element of the reply at the place of the field in the enumeration. -/
def element (elements : List Text) (field : GameField) : Text :=
  elements.getD (redisGameSessionFields.idxOf field) []

/-- The fields as the reply is read, with `strtoul` in base 16 for the numbers. -/
def readFields (elements : List Text) : GameFields :=
  let str := element elements
  let number := fun field => strtoul 16 (str field)
  let float := fun field => strtof (str field)
  { account :=
      { accountName := str .accountName
        sessionKey := str .sessionKey
        privilege := UInt32.ofNat (number .privilege)
        commandersCountMax := number .commandersCountMax }
    commander :=
      { commanderName := str .commanderName
        familyName := str .familyName
        accountId := UInt64.ofNat (number .accountId)
        classId := UInt16.ofNat (number .classId)
        jobId := UInt16.ofNat (number .jobId)
        gender := UInt8.ofNat (number .gender)
        level := UInt32.ofNat (number .level)
        hairId := UInt8.ofNat (number .hairId)
        pose := UInt16.ofNat (number .pose)
        mapId := UInt16.ofNat (number .mapId)
        pos := ⟨float .posX, float .posY, float .posZ⟩
        barrackPos := ⟨float .barrackPosX, float .barrackPosY, float .barrackPosZ⟩
        currentXP := UInt32.ofNat (number .currentXP)
        maxXP := UInt32.ofNat (number .maxXP)
        pcId := UInt32.ofNat (number .pcId)
        socialInfoId := UInt64.ofNat (number .socialInfoId)
        commanderId := UInt64.ofNat (number .commanderId)
        currentHP := UInt32.ofNat (number .currentHP)
        maxHP := UInt32.ofNat (number .maxHP)
        currentSP := UInt16.ofNat (number .currentSP)
        maxSP := UInt16.ofNat (number .maxSP)
        currentStamina := UInt32.ofNat (number .currentStamina)
        maxStamina := UInt32.ofNat (number .maxStamina) }
    equipment := fun slot => UInt32.ofNat (number (.eqSlot slot)) }

/-- The reply is refused when an element is missing or nil. -/
def readReply : Option (List (Option Text)) → RedisReply GameFields
  | none => .null
  | some elements =>
    .array (if elements.length = redisSessionCount then
      (elements.mapM id).map (readFields strtof) else none)

variable {Key : Type}

/-- An environment whose Redis gets commands as texts. What it says about an account alone is
still up to the environment. -/
def Env.withRedisText (env : Env Key) : Env Key :=
  { env with
    write := textAnswer env.write
    hmgetGame := fun writes key => readReply strtof do
      (textStoreOf writes).hmget (← arguments (← printf hmgetFormat (keyArgs key))) }

end Reply

/-! ### The texts that are sent -/

def keyText (key : RedisGameSessionKey) : Text :=
  text "zone" ++ numeral 16 key.routerId.toNat ++ (text ":map" ++ numeral 16 key.mapId.toNat) ++
    (text ":acc" ++ numeral 16 key.accountId.toNat)

/-- The text that a field is saved as. -/
def GameFields.textOf (fields : GameFields) : GameField → Text
  | .accountName => fields.account.accountName
  | .sessionKey => fields.account.sessionKey
  | .privilege => numeral 16 fields.account.privilege.toNat
  | .commandersCountMax => numeral 16 (fields.account.commandersCountMax % 2 ^ 32)
  | .mapId => numeral 16 fields.commander.mapId.toNat
  | .commanderName => fields.commander.commanderName
  | .familyName => fields.commander.familyName
  | .accountId => numeral 16 fields.commander.accountId.toNat
  | .classId => numeral 16 fields.commander.classId.toNat
  | .jobId => numeral 16 fields.commander.jobId.toNat
  | .gender => numeral 16 fields.commander.gender.toNat
  | .level => numeral 16 fields.commander.level.toNat
  | .hairId => numeral 16 fields.commander.hairId.toNat
  | .pose => numeral 16 fields.commander.pose.toNat
  | .posX => formatFloat fields.commander.pos.x
  | .posY => formatFloat fields.commander.pos.y
  | .posZ => formatFloat fields.commander.pos.z
  | .barrackPosX => formatFloat fields.commander.barrackPos.x
  | .barrackPosY => formatFloat fields.commander.barrackPos.y
  | .barrackPosZ => formatFloat fields.commander.barrackPos.z
  | .currentXP => numeral 16 fields.commander.currentXP.toNat
  | .maxXP => numeral 16 fields.commander.maxXP.toNat
  | .pcId => numeral 16 fields.commander.pcId.toNat
  | .socialInfoId => numeral 16 fields.commander.socialInfoId.toNat
  | .commanderId => numeral 16 fields.commander.commanderId.toNat
  | .currentHP => numeral 16 fields.commander.currentHP.toNat
  | .maxHP => numeral 16 fields.commander.maxHP.toNat
  | .currentSP => numeral 16 fields.commander.currentSP.toNat
  | .maxSP => numeral 16 fields.commander.maxSP.toNat
  | .currentStamina => numeral 16 fields.commander.currentStamina.toNat
  | .maxStamina => numeral 16 fields.commander.maxStamina.toNat
  | .eqSlot slot => numeral 16 (fields.equipment slot).toNat

/-- The arguments of a command that sets fields: each field, and its value. -/
def setTexts (key : RedisGameSessionKey) (rows : List (GameField × Conversion))
    (fields : GameFields) : List Text :=
  text "HMSET" :: keyText key :: rows.flatMap fun row => [text row.1.str, fields.textOf row.1]

theorem prints_keyFormat (key : RedisGameSessionKey) :
    Prints keyFormat (keyArgs key) (keyText key) :=
  (((prints_text (text "zone")).append (prints_conv (convert_uint16 key.routerId))).append
    ((prints_text (text ":map")).append (prints_conv (convert_uint16 key.mapId)))).append
      ((prints_text (text ":acc")).append (prints_conv rfl))

/-- The conversion of each row is that of its argument, and prints what the field is saved as. -/
def Aligned (fields : GameFields) (rows : List (GameField × Conversion)) (args : List Arg) : Prop :=
  List.Forall₂ (fun row arg => convert row.2 arg = some (fields.textOf row.1)) rows args

theorem accountFormat_aligned (fields : GameFields) :
    Aligned fields accountFormat (accountArgs fields.account) := by
  have hcount : (UInt64.ofNat fields.account.commandersCountMax).toNat % 2 ^ 32 =
      fields.account.commandersCountMax % 2 ^ 32 := by
    rw [UInt64.toNat_ofNat']
    exact Nat.mod_mod_of_dvd _ (by decide)
  refine .cons rfl (.cons rfl (.cons (convert_uint32 _) (.cons ?_ .nil)))
  rw [convert, hcount]
  rfl

theorem commanderFormat_aligned (fields : GameFields) :
    Aligned fields commanderFormat (commanderArgs fields.commander) := by
  simp [Aligned, commanderFormat, commanderArgs, GameFields.textOf]

theorem equipmentFormat_aligned (fields : GameFields) :
    Aligned fields equipmentFormat (equipmentArgs fields.equipment) := by
  rw [Aligned, equipmentFormat, equipmentArgs, List.forall₂_map_left_iff, List.forall₂_map_right_iff]
  exact List.forall₂_same.mpr fun slot _ => convert_uint32 _

/-- The text of a command that sets fields has their names and values, with spaces between. -/
theorem printf_hmsetFormat {key : RedisGameSessionKey} {rows : List (GameField × Conversion)}
    {fields : GameFields} {args : List Arg} (h : Aligned fields rows args) :
    printf (hmsetFormat rows) (keyArgs key ++ args) = some (join (setTexts key rows fields)) := by
  have hrows : Prints (rows.flatMap setFormat) args (rows.flatMap fun row =>
      text " " ++ text row.1.str ++ text " " ++ fields.textOf row.1) :=
    prints_flatMap (h.imp fun _ _ hrow => (prints_text _).append (prints_conv hrow))
  have hall := (((prints_text (text "HMSET ")).append (prints_keyFormat key)).append hrows).printf_eq
  refine hall.trans (congrArg some ?_)
  have hspace : text " " = [32] := rfl
  have hname : text "HMSET " = text "HMSET" ++ [32] := rfl
  rw [setTexts, join_cons, List.flatMap_cons, List.flatMap_assoc, hspace, hname]
  simp

/-- The commands that set the fields of a game session, each with the rows of its format. -/
def gameCommands (key : RedisGameSessionKey) (fields : GameFields) :
    List (Write × List (GameField × Conversion)) :=
  [(.hmsetAccount key fields.account, accountFormat),
    (.hmsetCommander key fields.commander, commanderFormat),
    (.hmsetEquipment key fields.equipment, equipmentFormat)]

theorem command_gameCommands {key : RedisGameSessionKey} {fields : GameFields}
    {c : Write × List (GameField × Conversion)} (hc : c ∈ gameCommands key fields) :
    command c.1 = some (join (setTexts key c.2 fields)) := by
  simp only [gameCommands, List.mem_cons, List.not_mem_nil, or_false] at hc
  rcases hc with rfl | rfl | rfl
  · exact printf_hmsetFormat (accountFormat_aligned fields)
  · exact printf_hmsetFormat (commanderFormat_aligned fields)
  · exact printf_hmsetFormat (equipmentFormat_aligned fields)

/-! ### Texts that are one argument -/

theorem numeral_unbroken (n : ℕ) : Unbroken (numeral 16 n) :=
  ⟨numeral_plain (by decide) (by decide) n, numeral_ne_nil 16 n⟩

theorem formatFloat_unbroken (bits : UInt32) : Unbroken (formatFloat bits) :=
  ⟨formatFloat_plain bits, formatFloat_ne_nil bits⟩

/-- The texts among the fields can be sent. -/
structure GameFields.Sendable (fields : GameFields) : Prop where
  sessionKey : Unbroken fields.account.sessionKey
  accountName : Unbroken fields.account.accountName
  commanderName : Unbroken fields.commander.commanderName
  familyName : Unbroken fields.commander.familyName

theorem textOf_unbroken {fields : GameFields} (h : fields.Sendable) (field : GameField) :
    Unbroken (fields.textOf field) := by
  cases field <;> first | exact numeral_unbroken _ | exact formatFloat_unbroken _ | skip
  · exact h.accountName
  · exact h.sessionKey
  · exact h.commanderName
  · exact h.familyName

theorem mem_redisGameSessionFields (field : GameField) : field ∈ redisGameSessionFields := by
  rw [redisGameSessionFields, List.mem_append]
  cases field <;> first | exact Or.inl (by decide) | skip
  exact Or.inr (List.mem_map_of_mem (List.mem_finRange _))

theorem str_unbroken (field : GameField) : Unbroken (text field.str) := by
  have hall : ∀ field ∈ redisGameSessionFields, Unbroken (text field.str) := by
    decide +kernel
  exact hall field (mem_redisGameSessionFields field)

theorem keyText_unbroken (key : RedisGameSessionKey) : Unbroken (keyText key) := by
  have hnumeral := fun n => (numeral_unbroken n).1
  refine ⟨?_, by simp [keyText, numeral_ne_nil]⟩
  simp only [keyText, plain_append, hnumeral, and_true]
  decide +kernel

theorem setTexts_unbroken (key : RedisGameSessionKey) {rows : List (GameField × Conversion)}
    {fields : GameFields} (h : ∀ row ∈ rows, Unbroken (fields.textOf row.1)) :
    ∀ t ∈ setTexts key rows fields, Unbroken t := by
  refine List.forall_mem_cons.mpr ⟨by decide +kernel, List.forall_mem_cons.mpr
    ⟨keyText_unbroken key, fun t ht => ?_⟩⟩
  obtain ⟨row, hrow, ht⟩ := List.mem_flatMap.mp ht
  simp only [List.mem_cons, List.not_mem_nil, or_false] at ht
  rcases ht with rfl | rfl
  · exact str_unbroken row.1
  · exact h row hrow

/-! ### What the commands leave behind -/

/-- The fields under the key. -/
def TextStore.hashOf (store : TextStore) (key : RedisGameSessionKey) : TextHash :=
  (store (keyText key)).getD Map.empty

def setObjects (rows : List (GameField × Conversion)) (fields : GameFields) : List (Text × Text) :=
  rows.map fun row => (text row.1.str, fields.textOf row.1)

theorem setObjects_append (rows others : List (GameField × Conversion)) (fields : GameFields) :
    setObjects (rows ++ others) fields = setObjects rows fields ++ setObjects others fields :=
  List.map_append

theorem pairs_setTexts (rows : List (GameField × Conversion)) (fields : GameFields) :
    pairs (rows.flatMap fun row => [text row.1.str, fields.textOf row.1]) =
      some (setObjects rows fields) := by
  induction rows with
  | nil => rfl
  | cons row rows ih =>
    rw [List.flatMap_cons, List.cons_append, List.singleton_append, pairs, ih]
    rfl

theorem execute_setTexts (store : TextStore) (key : RedisGameSessionKey)
    {rows : List (GameField × Conversion)} (hrows : rows ≠ []) (fields : GameFields) :
    store.execute (setTexts key rows fields) = some (Function.update store (keyText key)
      (some ((store.hashOf key).insertAll (setObjects rows fields)))) := by
  have hpairs := pairs_setTexts rows fields
  cases rows with
  | nil => exact absurd rfl hrows
  | cons row rows =>
    rw [setTexts, List.flatMap_cons, List.cons_append, List.singleton_append, TextStore.execute,
      if_pos ⟨rfl, List.cons_ne_nil _ _⟩]
    · rw [List.flatMap_cons, List.cons_append, List.singleton_append] at hpairs
      rw [hpairs]
      rfl
    · simp

theorem sent_gameCommand (store : TextStore) {key : RedisGameSessionKey} {fields : GameFields}
    {c : Write × List (GameField × Conversion)} (hc : c ∈ gameCommands key fields)
    (h : ∀ row ∈ c.2, Unbroken (fields.textOf row.1)) :
    store.sent c.1 = some (Function.update store (keyText key)
      (some ((store.hashOf key).insertAll (setObjects c.2 fields)))) := by
  have hrows : c.2 ≠ [] := by
    simp only [gameCommands, List.mem_cons, List.not_mem_nil, or_false] at hc
    rcases hc with rfl | rfl | rfl
    · exact List.cons_ne_nil _ _
    · exact List.cons_ne_nil _ _
    · exact List.map_eq_nil_iff.not.mpr (by decide)
  rw [TextStore.sent, command_gameCommands hc]
  change (arguments _).bind _ = _
  rw [arguments_join_unbroken (setTexts_unbroken key h)]
  exact execute_setTexts store key hrows fields

theorem textStoreOf_concat (writes : List Write) (write : Write) :
    textStoreOf (writes ++ [write]) =
      ((textStoreOf writes).sent write).getD (textStoreOf writes) := by
  rw [textStoreOf, List.foldl_append]
  rfl

/-- All the fields are saved, each with its text. -/
theorem hashOf_gameCommands (writes : List Write) {key : RedisGameSessionKey} {fields : GameFields}
    (h : fields.Sendable) (field : GameField) :
    (textStoreOf (writes ++ (gameCommands key fields).map Prod.fst)).hashOf key
      (text field.str) = some (fields.textOf field) := by
  have hstep : ∀ log : List Write, ∀ c ∈ gameCommands key fields,
      (textStoreOf (log ++ [c.1])).hashOf key =
        ((textStoreOf log).hashOf key).insertAll (setObjects c.2 fields) := by
    intro log c hc
    rw [textStoreOf_concat, sent_gameCommand _ hc fun row _ => textOf_unbroken h row.1,
      Option.getD_some, TextStore.hashOf, Function.update_self, Option.getD_some]
  have hall : (textStoreOf (writes ++ (gameCommands key fields).map Prod.fst)).hashOf key =
      ((textStoreOf writes).hashOf key).insertAll
        (setObjects (accountFormat ++ commanderFormat ++ equipmentFormat) fields) := by
    have hlog : writes ++ (gameCommands key fields).map Prod.fst =
        writes ++ [.hmsetAccount key fields.account] ++ [.hmsetCommander key fields.commander] ++
          [.hmsetEquipment key fields.equipment] := by
      simp [gameCommands]
    rw [hlog, hstep _ (.hmsetEquipment key fields.equipment, equipmentFormat) (by simp [gameCommands]),
      hstep _ (.hmsetCommander key fields.commander, commanderFormat) (by simp [gameCommands]),
      hstep _ (.hmsetAccount key fields.account, accountFormat) (by simp [gameCommands]),
      setObjects_append, setObjects_append, Map.insertAll_append, Map.insertAll_append]
  have hfields : ∀ field ∈ redisGameSessionFields,
      field ∈ (accountFormat ++ commanderFormat ++ equipmentFormat).map Prod.fst := by
    decide +kernel
  obtain ⟨row, hrow, rfl⟩ := List.mem_map.mp (hfields field (mem_redisGameSessionFields field))
  rw [hall]
  have hkeys : ((setObjects (accountFormat ++ commanderFormat ++ equipmentFormat) fields).map
      Prod.fst).Nodup := by
    rw [setObjects, List.map_map]
    change ((accountFormat ++ commanderFormat ++ equipmentFormat).map
      fun row => text row.1.str).Nodup
    decide +kernel
  have hobject : (text row.1.str, fields.textOf row.1) ∈
      setObjects (accountFormat ++ commanderFormat ++ equipmentFormat) fields :=
    List.mem_map_of_mem hrow
  exact Map.insertAll_of_mem _ hkeys hobject

/-! ### Reading what was saved -/

/-- The commands are all acknowledged. -/
theorem acknowledged_gameCommands (write : List Write → Write → Answer) (writes : List Write)
    {key : RedisGameSessionKey} {fields : GameFields} (h : fields.Sendable)
    {c : Write × List (GameField × Conversion)} (hc : c ∈ gameCommands key fields) :
    (textAnswer write writes c.1).done = true := by
  have hsent : ((textStoreOf writes).sent c.1).isSome = true := by
    rw [sent_gameCommand _ hc fun row _ => textOf_unbroken h row.1, Option.isSome_some]
  simp only [gameCommands, List.mem_cons, List.not_mem_nil, or_false] at hc
  rcases hc with rfl | rfl | rfl <;> exact hsent

theorem arguments_hmget (key : RedisGameSessionKey) :
    (printf hmgetFormat (keyArgs key)).bind arguments = some (text "HMGET" :: keyText key ::
      redisGameSessionFields.map fun field => text field.str) := by
  have hprints := (((prints_text (text "HMGET ")).append (prints_keyFormat key)).append
    (prints_texts (fun field : GameField => text " " ++ text field.str)
      redisGameSessionFields)).printf_eq
  rw [List.append_nil] at hprints
  have hjoin : text "HMGET " ++ keyText key ++
      redisGameSessionFields.flatMap (fun field => text " " ++ text field.str) =
        join (text "HMGET" :: keyText key ::
          redisGameSessionFields.map fun field => text field.str) := by
    have hspace : text " " = [32] := rfl
    have hname : text "HMGET " = text "HMGET" ++ [32] := rfl
    rw [join_cons, List.flatMap_cons, List.flatMap_map, hspace, hname]
    simp
  have hunbroken : ∀ t ∈ text "HMGET" :: keyText key ::
      redisGameSessionFields.map (fun field => text field.str), Unbroken t := by
    refine List.forall_mem_cons.mpr ⟨by decide +kernel, List.forall_mem_cons.mpr
      ⟨keyText_unbroken key, List.forall_mem_map.mpr fun field _ => str_unbroken field⟩⟩
  rw [hjoin] at hprints
  exact (congrArg (Option.bind · arguments) hprints).trans (arguments_join_unbroken hunbroken)

theorem hmget_fields (store : TextStore) (key : RedisGameSessionKey) :
    store.hmget (text "HMGET" :: keyText key ::
      redisGameSessionFields.map fun field => text field.str) =
        some (redisGameSessionFields.map fun field => store.hashOf key (text field.str)) := by
  have hfields : (redisGameSessionFields.map fun field => text field.str) ≠ [] :=
    List.map_eq_nil_iff.not.mpr (by decide)
  have hvalue : ∀ field, ((store (keyText key)).bind fun hash => hash field) =
      store.hashOf key field := by
    intro field
    rw [TextStore.hashOf]
    cases store (keyText key) <;> rfl
  rw [TextStore.hmget, if_pos ⟨rfl, hfields⟩, List.map_map]
  exact congrArg some (List.map_congr_left fun field _ => hvalue _)

theorem element_map (value : GameField → Text) (field : GameField) :
    element (redisGameSessionFields.map value) field = value field := by
  have hlt := List.idxOf_lt_length_of_mem (mem_redisGameSessionFields field)
  rw [element, List.getD_eq_getElem _ _ (by rwa [List.length_map]), List.getElem_map,
    List.getElem_idxOf]

section Reread
variable (strtof : Text → UInt32)

def PositionXYZ.reread (position : PositionXYZ) : PositionXYZ :=
  ⟨strtof (formatFloat position.x), strtof (formatFloat position.y), strtof (formatFloat position.z)⟩

/-- What is read when the fields have been saved: a count of more than 32 bits has lost the
upper ones, and a float is what is read from its text. -/
def GameFields.reread (fields : GameFields) : GameFields :=
  { fields with
    account := { fields.account with
      commandersCountMax := fields.account.commandersCountMax % 2 ^ 32 }
    commander := { fields.commander with
      pos := fields.commander.pos.reread strtof
      barrackPos := fields.commander.barrackPos.reread strtof } }

theorem readFields_textOf (fields : GameFields) :
    readFields strtof (redisGameSessionFields.map fields.textOf) = fields.reread strtof := by
  have h8 : ∀ n : UInt8, UInt8.ofNat (strtoul 16 (numeral 16 n.toNat)) = n := fun n => by
    rw [strtoul_numeral (n.toNat_lt.trans (by decide)), UInt8.ofNat_toNat]
  have h16 : ∀ n : UInt16, UInt16.ofNat (strtoul 16 (numeral 16 n.toNat)) = n := fun n => by
    rw [strtoul_numeral (n.toNat_lt.trans (by decide)), UInt16.ofNat_toNat]
  have h32 : ∀ n : UInt32, UInt32.ofNat (strtoul 16 (numeral 16 n.toNat)) = n := fun n => by
    rw [strtoul_numeral (n.toNat_lt.trans (by decide)), UInt32.ofNat_toNat]
  have h64 : ∀ n : UInt64, UInt64.ofNat (strtoul 16 (numeral 16 n.toNat)) = n := fun n => by
    rw [strtoul_numeral n.toNat_lt, UInt64.ofNat_toNat]
  have hcount : strtoul 16 (numeral 16 (fields.account.commandersCountMax % 2 ^ 32)) =
      fields.account.commandersCountMax % 2 ^ 32 :=
    strtoul_numeral ((Nat.mod_lt _ (by decide)).trans (by decide))
  simp only [readFields, element_map, GameFields.textOf, h8, h16, h32, h64, hcount]
  rfl

end Reread

variable {Key : Type}

/-- A game session that was saved is read back. -/
theorem hmgetGame_gameCommands (env : Env Key) (strtof : Text → UInt32) (writes : List Write)
    {key : RedisGameSessionKey} {fields : GameFields} (h : fields.Sendable) :
    (env.withRedisText strtof).hmgetGame (writes ++ (gameCommands key fields).map Prod.fst) key =
      .array (some (fields.reread strtof)) := by
  have helements := hmget_fields
    (textStoreOf (writes ++ (gameCommands key fields).map Prod.fst)) key
  have hsaved : (fun field : GameField =>
      (textStoreOf (writes ++ (gameCommands key fields).map Prod.fst)).hashOf key
        (text field.str)) = fun field => some (fields.textOf field) := by
    funext field
    exact hashOf_gameCommands writes h field
  rw [hsaved] at helements
  have hall : (redisGameSessionFields.map fun field => some (fields.textOf field)).mapM id =
      some (redisGameSessionFields.map fields.textOf) := by
    rw [List.mapM_map]
    exact List.mapM_pure
  change readReply strtof ((printf hmgetFormat (keyArgs key)).bind fun command =>
    (arguments command).bind _) = _
  rw [← Option.bind_assoc, arguments_hmget, Option.bind_some, helements, readReply, if_pos, hall,
    Option.map_some, readFields_textOf]
  rw [List.length_map]
  rfl

/-! ### The equipment, whatever else was saved -/

/-- The command that saves the equipment has numbers only. -/
theorem sent_equipment (store : TextStore) (key : RedisGameSessionKey) (fields : GameFields) :
    store.sent (.hmsetEquipment key fields.equipment) = some (Function.update store (keyText key)
      (some ((store.hashOf key).insertAll (setObjects equipmentFormat fields)))) := by
  have hmem : (.hmsetEquipment key fields.equipment, equipmentFormat) ∈ gameCommands key fields := by
    simp [gameCommands]
  refine sent_gameCommand store hmem fun row hrow => ?_
  obtain ⟨slot, -, rfl⟩ := List.mem_map.mp hrow
  exact numeral_unbroken _

theorem hashOf_equipment (writes : List Write) (key : RedisGameSessionKey) (fields : GameFields)
    (slot : Fin eqSlotCount) :
    (textStoreOf (writes ++ [.hmsetEquipment key fields.equipment])).hashOf key
      (text (GameField.eqSlot slot).str) = some (fields.textOf (.eqSlot slot)) := by
  have hkeys : ((setObjects equipmentFormat fields).map Prod.fst).Nodup := by
    rw [setObjects, List.map_map]
    change (equipmentFormat.map fun row => text row.1.str).Nodup
    decide +kernel
  have hobject : (text (GameField.eqSlot slot).str, fields.textOf (.eqSlot slot)) ∈
      setObjects equipmentFormat fields :=
    List.mem_map.mpr ⟨(.eqSlot slot, .x), List.mem_map_of_mem (List.mem_finRange slot), rfl⟩
  rw [textStoreOf_concat, sent_equipment, Option.getD_some, TextStore.hashOf,
    Function.update_self, Option.getD_some]
  exact Map.insertAll_of_mem _ hkeys hobject

/-- The values of a reply, none of which is nil. -/
theorem eq_map_of_mapM {α : Type} {value : α → Option Text} {xs : List α} {ts : List Text}
    (h : (xs.map value).mapM id = some ts) : ts = xs.map fun x => (value x).getD [] := by
  induction xs generalizing ts with
  | nil =>
    cases h
    rfl
  | cons x xs ih =>
    rw [List.map_cons, List.mapM_cons] at h
    obtain ⟨t, ht, h⟩ := Option.bind_eq_some_iff.mp h
    obtain ⟨ts, hts, h⟩ := Option.bind_eq_some_iff.mp h
    cases h
    have hx : value x = some t := ht
    rw [ih hts, List.map_cons, hx, Option.getD_some]

/-- The equipment is read as it was saved, if the session is read at all. -/
theorem hmgetGame_equipment (env : Env Key) (strtof : Text → UInt32) (writes : List Write)
    (key : RedisGameSessionKey) (saved : GameFields) :
    ∃ read : Option GameFields, (env.withRedisText strtof).hmgetGame
        (writes ++ [.hmsetEquipment key saved.equipment]) key = .array read ∧
      ∀ fields, read = some fields → fields.equipment = saved.equipment := by
  let value := fun field : GameField =>
    (textStoreOf (writes ++ [.hmsetEquipment key saved.equipment])).hashOf key (text field.str)
  have helements := hmget_fields
    (textStoreOf (writes ++ [.hmsetEquipment key saved.equipment])) key
  refine ⟨((redisGameSessionFields.map value).mapM id).map (readFields strtof), ?_, ?_⟩
  · change readReply strtof ((printf hmgetFormat (keyArgs key)).bind fun command =>
      (arguments command).bind _) = _
    rw [← Option.bind_assoc, arguments_hmget, Option.bind_some, helements, readReply, if_pos]
    rw [List.length_map]
    rfl
  · intro fields hread
    obtain ⟨elements, hmapM, rfl⟩ := Option.map_eq_some_iff.mp hread
    obtain rfl := eq_map_of_mapM hmapM
    funext slot
    have hvalue : value (.eqSlot slot) = some (numeral 16 (saved.equipment slot).toNat) :=
      hashOf_equipment writes key saved slot
    change UInt32.ofNat (strtoul 16 (element (redisGameSessionFields.map fun field =>
      (value field).getD []) (.eqSlot slot))) = saved.equipment slot
    rw [element_map, hvalue, Option.getD_some,
      strtoul_numeral ((saved.equipment slot).toNat_lt.trans (by decide)), UInt32.ofNat_toNat]

end R1Emu.Game
