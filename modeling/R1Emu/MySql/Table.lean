import R1Emu.Game.World
import R1Emu.Lib.SqlText

/-!
# The table of commanders behind its statements

The server is not part of the emulator: it is any function from a statement and a table to a
table, of which the results below assume what its documentation says where it does not refuse
values that are out of range. It reads a statement into tokens, takes them for one of the three
statements that the emulator sends when it saves a commander, and runs it on the table; a column
keeps what fits its type, and otherwise the nearest value that does. What it does with any other
text, and with a number that has a fraction, is left open.
-/
namespace R1Emu.MySql
open R1Emu.Lib.CFormat R1Emu.Lib.SqlText
open R1Emu.Commander (eqSlotCount)

/-- `MySqlCommanderEnumField`. -/
inductive Field
  | commanderId
  | isDeleted
  | accountId
  | commanderName
  | timeDeleted
  | level
  | exp
  | gender
  | jobId
  | classId
  | hairId
  | mapId
  | positionX
  | positionY
  | positionZ
  | barrackPositionX
  | barrackPositionY
  | barrackPositionZ
  | hp
  | mp
  | eqSlot (slot : Fin eqSlotCount)
  deriving DecidableEq

/-- The names of the columns for the equipment, by slot. -/
def eqSlotStr : List String :=
  ["eqslot_head_top", "eqslot_head_middle", "eqslot_unknown_1", "eqslot_body_armor",
    "eqslot_gloves", "eqslot_boots", "eqslot_helmet", "eqslot_bracelet", "eqslot_weapon",
    "eqslot_shield", "eqslot_costume", "eqslot_unknown_3", "eqslot_unknown_4", "eqslot_unknown_5",
    "eqslot_leg_armor", "eqslot_unknown_6", "eqslot_unknown_7", "eqslot_ring_left",
    "eqslot_ring_right", "eqslot_necklace"]

/-- `mySqlCommanderStrFields`. -/
def Field.str : Field → String
  | .commanderId => "commander_id"
  | .isDeleted => "is_deleted"
  | .accountId => "account_id"
  | .commanderName => "commander_name"
  | .timeDeleted => "time_deleted"
  | .level => "level"
  | .exp => "exp"
  | .gender => "gender"
  | .jobId => "job_id"
  | .classId => "class_id"
  | .hairId => "hair_id"
  | .mapId => "map_id"
  | .positionX => "position_x"
  | .positionY => "position_y"
  | .positionZ => "position_z"
  | .barrackPositionX => "barrack_position_x"
  | .barrackPositionY => "barrack_position_y"
  | .barrackPositionZ => "barrack_position_z"
  | .hp => "hp"
  | .mp => "mp"
  | .eqSlot slot => eqSlotStr.getD slot ""

/-- The fields in the order of the enumeration. -/
def mySqlCommanderFields : List Field :=
  [.commanderId, .isDeleted, .accountId, .commanderName, .timeDeleted, .level, .exp, .gender,
    .jobId, .classId, .hairId, .mapId, .positionX, .positionY, .positionZ, .barrackPositionX,
    .barrackPositionY, .barrackPositionZ, .hp, .mp] ++ (List.finRange eqSlotCount).map .eqSlot

/-- The exceptions of the statements that set fields. -/
def Field.skipped (field : Field) : Bool :=
  field = .commanderId || field = .isDeleted || field = .timeDeleted

/-- The fields that are set. -/
def savedFields : List Field := mySqlCommanderFields.filter fun field => !field.skipped

/-! ### Columns -/

inductive ColumnType
  | int
  | unsigned
  | varchar (size : ℕ)
  | float

/-- The types of the columns that are set. -/
def Field.columnType : Field → ColumnType
  | .accountId => .unsigned
  | .commanderName => .varchar 64
  | .positionX | .positionY | .positionZ => .float
  | .barrackPositionX | .barrackPositionY | .barrackPositionZ => .float
  | .hp | .mp => .float
  | _ => .int

def roundTo (unit n : ℕ) : ℕ := divRound n unit * unit

/-- A whole number in a column of floats: it is rounded to 24 bits when it is stored, and to six
digits when it is fetched. -/
def floatNumber (z : ℤ) : ℤ :=
  let stored := roundTo (2 ^ (Nat.log 2 z.natAbs - 23)) z.natAbs
  z.sign * roundTo (10 ^ (Nat.log 10 stored - 5)) stored

structure Row where
  commanderId : UInt32
  isDeleted : Bool
  /-- What is fetched from the other columns. -/
  columns : Field → Text

/-- The rows, and the id that the next one gets. -/
structure Commanders where
  rows : List Row
  autoIncrement : ℕ
  lt_autoIncrement : ∀ row ∈ rows, row.commanderId.toNat < autoIncrement
  nodup : (rows.map Row.commanderId).Nodup

/-- What is fetched, and the id of a row that was inserted. -/
structure Result where
  rows : List (List Text)
  insertId : UInt64

/-- The server: `mysql_real_query`, which fails where there is no result; the text that is fetched
from a column that has been set to a literal; and the columns of a row of which nothing is set. -/
structure Server where
  execute : Text → Commanders → Option (Commanders × Result)
  fetched : ColumnType → Text → Text
  blank : Field → Text

/-! ### Statements -/

inductive Statement
  | count (commanderId : ℕ)
  | insert (assignments : List (Field × Text))
  | update (assignments : List (Field × Text)) (commanderId : ℕ)

/-- What follows these tokens. -/
def after : List Token → List Token → Option (List Token)
  | [], tokens => some tokens
  | _ :: _, [] => none
  | t :: front, u :: tokens => if t = u then after front tokens else none

def words (names : List String) : List Token := names.map fun name => .word (text name)

/-- `=`. -/
def equals : Token := .symbol 61

/-- `,`. -/
def comma : Token := .symbol 44

def fieldOf (name : Text) : Option Field := savedFields.find? fun field => text field.str = name

/-- Assignments of literals to columns, and what follows them. -/
def assignments : List Token → Option (List (Field × Text) × List Token)
  | .word name :: .symbol 61 :: .string value :: .symbol 44 :: rest =>
    (fieldOf name).bind fun field => (assignments rest).map fun r => ((field, value) :: r.1, r.2)
  | .word name :: .symbol 61 :: .string value :: rest =>
    (fieldOf name).map fun field => ([(field, value)], rest)
  | _ => none

/-- A number without a sign. -/
def number (s : Text) : Option ℕ :=
  if s ≠ [] ∧ s.all (digitValue · < 10) then some (digitsValue 10 s) else none

def parseCount (tokens : List Token) : Option Statement :=
  (after (words ["SELECT", "count"] ++ .symbol 40 :: .symbol 42 :: .symbol 41 ::
    (words ["FROM", "commanders", "WHERE", "commander_id"] ++ [equals])) tokens).bind fun rest =>
    match rest with
    | [.word id] => (number id).map .count
    | _ => none

def parseInsert (tokens : List Token) : Option Statement :=
  (after (words ["INSERT", "INTO", "commanders", "SET"]) tokens).bind fun rest =>
    (assignments rest).bind fun r => if r.2 = [] then some (.insert r.1) else none

def parseUpdate (tokens : List Token) : Option Statement :=
  (after (words ["UPDATE", "commanders", "SET"]) tokens).bind fun rest =>
    (assignments rest).bind fun r =>
      (after (words ["WHERE", "commander_id"] ++ [equals]) r.2).bind fun rest =>
        match rest with
        | .string id :: rest =>
          if rest = words ["AND", "is_deleted"] ++ [equals, .string (text "n")] then
            (number id).map (.update r.1)
          else none
        | _ => none

def parse (tokens : List Token) : Option Statement :=
  parseCount tokens <|> parseInsert tokens <|> parseUpdate tokens

/-- The columns after the assignments. -/
def assign (fetched : ColumnType → Text → Text) (columns : Field → Text) :
    List (Field × Text) → Field → Text
  | [] => columns
  | (field, value) :: rest =>
    assign fetched (Function.update columns field (fetched field.columnType value)) rest

namespace Commanders

/-- How many rows have the id. -/
def count (self : Commanders) (commanderId : ℕ) : ℕ :=
  self.rows.countP fun row => row.commanderId.toNat = commanderId

/-- There is an id for one more row. -/
def insert (self : Commanders) (columns : Field → Text) (h : self.autoIncrement < 2 ^ 32) :
    Commanders where
  rows := self.rows ++ [⟨UInt32.ofNat self.autoIncrement, false, columns⟩]
  autoIncrement := self.autoIncrement + 1
  lt_autoIncrement row hrow := by
    rcases List.mem_append.mp hrow with hrow | hrow
    · exact Nat.lt_succ_of_lt (self.lt_autoIncrement row hrow)
    · rw [List.mem_singleton.mp hrow, UInt32.toNat_ofNat', Nat.mod_eq_of_lt h]
      exact Nat.lt_succ_self _
  nodup := by
    rw [List.map_append, List.nodup_append]
    refine ⟨self.nodup, List.nodup_singleton _, ?_⟩
    intro id hid id' hid' heq
    obtain ⟨row, hrow, rfl⟩ := List.mem_map.mp hid
    have hlt := self.lt_autoIncrement row hrow
    rw [heq, List.mem_singleton.mp hid', UInt32.toNat_ofNat', Nat.mod_eq_of_lt h] at hlt
    exact Nat.lt_irrefl _ hlt

/-- Set columns of the row with this id, unless it is deleted. -/
def updateRow (commanderId : ℕ) (set : (Field → Text) → Field → Text) (row : Row) : Row :=
  if row.commanderId.toNat = commanderId ∧ row.isDeleted = false then
    { row with columns := set row.columns }
  else row

theorem commanderId_updateRow (commanderId : ℕ) (set : (Field → Text) → Field → Text) (row : Row) :
    (updateRow commanderId set row).commanderId = row.commanderId := by
  unfold updateRow
  split <;> rfl

def update (self : Commanders) (commanderId : ℕ) (set : (Field → Text) → Field → Text) :
    Commanders where
  rows := self.rows.map (updateRow commanderId set)
  autoIncrement := self.autoIncrement
  lt_autoIncrement row hrow := by
    obtain ⟨old, hold, rfl⟩ := List.mem_map.mp hrow
    rw [commanderId_updateRow]
    exact self.lt_autoIncrement old hold
  nodup := by
    rw [List.map_map, Function.comp_def]
    simp only [commanderId_updateRow]
    exact self.nodup

end Commanders

/-- A column can be set once by an insertion, and a new row needs an id. -/
def Statement.run (fetched : ColumnType → Text → Text) (blank : Field → Text)
    (table : Commanders) : Statement → Option (Commanders × Result)
  | .count commanderId => some (table, ⟨[[numeral 10 (table.count commanderId)]], 0⟩)
  | .insert assignments =>
    if h : (assignments.map Prod.fst).Nodup ∧ table.autoIncrement < 2 ^ 32 then
      some (table.insert (assign fetched blank assignments) h.2,
        ⟨[], UInt64.ofNat table.autoIncrement⟩)
    else none
  | .update assignments commanderId =>
    some (table.update commanderId fun columns => assign fetched columns assignments, ⟨[], 0⟩)

/-- What the documentation of the server says. -/
structure Server.Laws (server : Server) : Prop where
  /-- A text with the tokens of one of the three statements is executed as that statement. -/
  execute : ∀ statement parsed table, (tokens statement).bind parse = some parsed →
    server.execute statement table = parsed.run server.fetched server.blank table
  /-- A column of numbers with a sign keeps the nearest number of 32 bits. -/
  int : ∀ z : ℤ, server.fetched .int (decimal z) = decimal (max (-2 ^ 31) (min z (2 ^ 31 - 1)))
  /-- So does one of numbers without a sign. -/
  unsigned : ∀ n : ℕ, server.fetched .unsigned (decimal n) = decimal (min n (2 ^ 32 - 1) : ℕ)
  /-- A column of texts, in a character set of single bytes, keeps the front of one. -/
  varchar : ∀ size s, server.fetched (.varchar size) s = s.take size
  /-- A column of floats keeps 24 bits of a number, and gives back six digits. -/
  float : ∀ z : ℤ, z.natAbs ≤ 2 ^ 31 → server.fetched .float (decimal z) = decimal (floatNumber z)

end R1Emu.MySql
