import R1Emu.Game.Database
import R1Emu.MySql.Table

/-!
# Saving a commander in MySQL

The statements are printed from formats that are put together from the columns, and their
arguments are listed in the order of the columns. A commander is inserted when the table has no
row with its id, of which the question keeps the low 32 bits, and its row is updated otherwise.

The formats are printed into the buffer that they are read from, which the language leaves open.
They are taken for what the library of the Windows build makes of them, where a `long` has 32
bits; a library that empties the buffer first sends only the ends of the statements.
-/
namespace R1Emu.MySql
open R1Emu.Game R1Emu.Lib.CFormat R1Emu.Lib.SqlText
open R1Emu.Commander (eqSlotCount ItemPtr)

variable {Key : Type}

/-- `mySqlCommanderTypeFields`. -/
def Field.typeStr : Field → String
  | .commanderId => "'%llu'"
  | .isDeleted => "'%c'"
  | .accountId => "'%llu'"
  | .commanderName => "'%s'"
  | .timeDeleted => "FROM_UNIXTIME('%u')"
  | .level | .exp | .gender | .jobId | .classId | .hairId | .mapId => "'%u'"
  | .positionX | .positionY | .positionZ => "'%f'"
  | .barrackPositionX | .barrackPositionY | .barrackPositionZ => "'%f'"
  | .hp | .mp => "'%d'"
  | .eqSlot _ => "'%u'"

/-- `MAX_QUERY_SIZE`. -/
def maxQuerySize : ℕ := 4096

/-- `snprintf(query, sizeof(query), "%s...", query, ...)`. The query is copied onto itself, and
the rest is printed behind it. -/
def printBehind (query s : Text) : Text := (query ++ s).take (maxQuerySize - 1)

/-- One field of the loop. The comma of the last field becomes a space. -/
def setField (query : Text) (field : Field) : Text :=
  if field.skipped then query
  else
    let query := printBehind query
      (text field.str ++ text " = " ++ text field.typeStr ++ text ", ")
    if mySqlCommanderFields.getLast? = some field then query.set (query.length - 2) 32 else query

def insertQuery : Text := mySqlCommanderFields.foldl setField (text "INSERT INTO commanders SET ")

def updateQuery : Text :=
  printBehind (mySqlCommanderFields.foldl setField (text "UPDATE commanders SET "))
    (text " WHERE " ++ text Field.commanderId.str ++ text " = " ++ text Field.commanderId.typeStr ++
      text " AND " ++ text Field.isDeleted.str ++ text " = 'n'")

/-- What `mySqlQuery` prints into its buffer; conversions and arguments may not go together. -/
def statement (query : Text) (args : List Arg) : Option Text :=
  (pieces query).bind fun format => (printf format args).map (·.take (maxQuerySize - 2))

/-- A query of which the statement fails gives nothing. -/
def mySqlQuery (server : Server) (table : Commanders) (query : Text) (args : List Arg) :
    Option (Option (Commanders × Result)) :=
  (statement query args).map fun buf => server.execute buf table

/-! ### Commanders -/

def insertArgs (commander : Commander Key) (eqSlots : Fin eqSlotCount → UInt32) : List Arg :=
  [.word commander.accountId, .string (cString commander.commanderName.toList),
    .word commander.level.toUInt64, .word commander.currentXP.toUInt64,
    .word commander.gender.toUInt64, .word commander.jobId.toUInt64,
    .word commander.classId.toUInt64, .word commander.hairId.toUInt64,
    .word commander.mapId.toUInt64, .float commander.pos.x, .float commander.pos.y,
    .float commander.pos.z, .float commander.barrackPos.x, .float commander.barrackPos.y,
    .float commander.barrackPos.z, .word commander.currentHP.toUInt64,
    .word commander.currentSP.toUInt64] ++
  (List.finRange eqSlotCount).map fun slot => .word (eqSlots slot).toUInt64

def updateArgs (commander : Commander Key) (eqSlots : Fin eqSlotCount → UInt32)
    (commanderId : UInt64) : List Arg :=
  insertArgs commander eqSlots ++ [.word commanderId]

/-- The new row's id becomes the commander's. -/
def mySqlCommanderInsert (server : Server) (table : Commanders) (commander : Commander Key)
    (eqSlots : Fin eqSlotCount → UInt32) : Option (Bool × Commander Key × Commanders) :=
  (mySqlQuery server table insertQuery (insertArgs commander eqSlots)).map fun
    | none => (false, commander, table)
    | some (table, result) => (true, { commander with commanderId := result.insertId }, table)

def mySqlCommanderUpdate (server : Server) (table : Commanders) (commanderId : UInt64)
    (commander : Commander Key) (eqSlots : Fin eqSlotCount → UInt32) :
    Option (Bool × Commander Key × Commanders) :=
  (mySqlQuery server table updateQuery (updateArgs commander eqSlots commanderId)).map fun
    | none => (false, commander, table)
    | some (table, _) => (true, commander, table)

def countQuery : Text := text "SELECT count(*) FROM commanders WHERE commander_id = %u"

/-- The commander, whose equipped items have these ids, and the table afterwards. A row that is
not there is a null pointer. -/
def mySqlCommanderFlush (server : Server) (table : Commanders) (commander : Commander Key)
    (eqSlots : Fin eqSlotCount → UInt32) : Option (Bool × Commander Key × Commanders) :=
  (mySqlQuery server table countQuery [.word commander.commanderId]).bind fun
    | none => some (false, commander, table)
    | some (table, result) => do
      let count ← (← result.rows.head?).head?
      if strtol32 10 count = 0 then mySqlCommanderInsert server table commander eqSlots
      else mySqlCommanderUpdate server table commander.commanderId commander eqSlots

/-- `strtol` into an unsigned number. -/
def readWord (bits : ℕ) (s : Text) : ℕ := (strtol32 10 s % 2 ^ bits).toNat

/-- The row as `mySqlGetCommanders` decodes it. -/
def Row.decoded (strtof : Text → UInt32) (row : Row) : CommanderRow where
  accountId := UInt64.ofNat (readWord 64 (row.columns .accountId))
  commanderName := row.columns .commanderName
  level := UInt32.ofNat (readWord 32 (row.columns .level))
  exp := UInt32.ofNat (readWord 32 (row.columns .exp))
  gender := UInt8.ofNat (readWord 8 (row.columns .gender))
  jobId := UInt16.ofNat (readWord 16 (row.columns .jobId))
  classId := UInt16.ofNat (readWord 16 (row.columns .classId))
  hairId := UInt8.ofNat (readWord 8 (row.columns .hairId))
  mapId := UInt16.ofNat (readWord 16 (row.columns .mapId))
  position := ⟨strtof (row.columns .positionX), strtof (row.columns .positionY),
    strtof (row.columns .positionZ)⟩
  barrackPosition := ⟨strtof (row.columns .barrackPositionX),
    strtof (row.columns .barrackPositionY), strtof (row.columns .barrackPositionZ)⟩
  hp := UInt32.ofNat (readWord 32 (row.columns .hp))
  mp := UInt16.ofNat (readWord 16 (row.columns .mp))
  eqSlots := fun slot => UInt32.ofNat (readWord 32 (row.columns (.eqSlot slot)))

/-- The commander that is loaded from the row: the name of the family, the random number and the
items that are made for the slots come from elsewhere. -/
def Row.commander (strtof : Text → UInt32) (row : Row) (familyName : Chars 64) (pcId : UInt32)
    (equippedItems : UInt8 → Option ItemPtr) : Commander Key :=
  (row.decoded strtof).toCommander row.commanderId.toUInt64 familyName pcId equippedItems

/-! ### Accounts -/

/-- `md5BytesToStr`. -/
def md5BytesToStr (md5Bytes : Vector UInt8 16) : Text :=
  md5Bytes.toList.flatMap fun b => [digit (b.toNat / 16), digit (b.toNat % 16)]

def accountQuery : Text :=
  text "SELECT account_id, is_banned, Unix_Timestamp(time_banned), credits, privilege_level, " ++
    text "family_name, barrack_type FROM accounts WHERE account_name = '%s' AND passwd = '%s' " ++
      text "LIMIT 1"

/-- The statement of `mySqlGetAccountData`. -/
def accountStatement (accountName : Text) (password : Vector UInt8 16) : Option Text :=
  statement accountQuery [.string accountName, .string (md5BytesToStr password)]

def familyNameQuery : Text := text "CALL bSetFamilyName(%llx, '%s');"

/-- The statement of `mySqlSetFamilyName`. -/
def familyNameStatement (accountId : UInt64) (familyName : Text) : Option Text :=
  statement familyNameQuery [.word accountId, .string familyName]

end R1Emu.MySql
