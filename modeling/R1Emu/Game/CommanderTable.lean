import R1Emu.Game.Database
import R1Emu.Lib.CFormat

/-!
# The table of commanders

What the statements that were sent have left in the table. A new row gets the next number as its
id. The ids of its items are printed into columns of signed numbers with 32 bits, and the
account's into one of unsigned numbers; the largest number that fits is stored for one that does
not. The other columns keep what they are given.

What is fetched is read with a `long` of 64 bits, as on Linux. Where a `long` has 32 bits the ids of
the items are the same, and an account's id is cut off at 2^31 - 1.
-/
namespace R1Emu.Game
open R1Emu.Lib.CFormat
open R1Emu.Commander (eqSlotCount)

/-- The text of a number that is fetched from a column. -/
def column (largest n : ℕ) : Text := decimal (min n largest : ℕ)

/-- `strtol` into an `ItemId_t`. -/
def readItemId (s : Text) : UInt32 := UInt32.ofNat (strtol 10 s % 2 ^ 32).toNat

theorem readItemId_column {id : UInt32} (hid : id.toNat < 2 ^ 31) :
    readItemId (column (2 ^ 31 - 1) id.toNat) = id := by
  have hmin : min id.toNat (2 ^ 31 - 1) = id.toNat := min_eq_left (Nat.le_sub_one_of_lt hid)
  rw [readItemId, column, hmin, strtol_decimal (hid.trans (by decide))]
  have hmod : ((id.toNat : ℤ) % 2 ^ 32).toNat = id.toNat := by
    have hlt := id.toNat_lt
    omega
  rw [hmod, UInt32.ofNat_toNat]

/-- The size of a `long` makes no difference to the id of an item. -/
theorem strtol32_itemId (n : ℕ) :
    strtol32 10 (column (2 ^ 31 - 1) n) = strtol 10 (column (2 ^ 31 - 1) n) := by
  have hle : min n (2 ^ 31 - 1) ≤ 2 ^ 31 - 1 := min_le_right n _
  have hread : strtol 10 (column (2 ^ 31 - 1) n) = (min n (2 ^ 31 - 1) : ℕ) := by
    rw [column, strtol_decimal (by omega)]
  apply strtol32_eq_strtol
  · rw [hread]
    omega
  · rw [hread]
    omega

/-- The row as it is fetched when it has been stored. -/
def CommanderRow.fetched (row : CommanderRow) : CommanderRow :=
  { row with
    accountId := UInt64.ofNat (min row.accountId.toNat (2 ^ 32 - 1))
    eqSlots := fun slot => readItemId (column (2 ^ 31 - 1) (row.eqSlots slot).toNat) }

/-- The numbers of the row fit into their columns. -/
structure CommanderRow.Fits (row : CommanderRow) : Prop where
  accountId : row.accountId.toNat < 2 ^ 32
  eqSlots : ∀ slot, (row.eqSlots slot).toNat < 2 ^ 31

theorem CommanderRow.Fits.fetched_eq {row : CommanderRow} (h : row.Fits) : row.fetched = row := by
  have hmin : min row.accountId.toNat (2 ^ 32 - 1) = row.accountId.toNat :=
    min_eq_left (Nat.le_sub_one_of_lt h.accountId)
  have hids : (fun slot => readItemId (column (2 ^ 31 - 1) (row.eqSlots slot).toNat)) =
      row.eqSlots := funext fun slot => readItemId_column (h.eqSlots slot)
  rw [fetched, hmin, hids, UInt64.ofNat_toNat]

/-- The rows with their ids, and how many have ever been inserted. -/
structure CommanderTable where
  rows : List (UInt64 × CommanderRow)
  inserted : ℕ

namespace CommanderTable

/-- `AUTO_INCREMENT`. -/
def nextId (self : CommanderTable) : UInt64 := UInt64.ofNat (self.inserted + 1)

def apply (self : CommanderTable) : Write → CommanderTable
  | .insertCommander row =>
    { rows := self.rows ++ [(self.nextId, row.fetched)], inserted := self.inserted + 1 }
  | .updateCommander commanderId row =>
    { self with rows := self.rows.map fun entry =>
        if entry.1 = commanderId then (commanderId, row.fetched) else entry }
  | .deleteCommander commanderId =>
    { self with rows := self.rows.filter fun entry => entry.1 ≠ commanderId }
  | _ => self

def ofAccount (self : CommanderTable) (accountId : UInt64) : List (UInt64 × CommanderRow) :=
  self.rows.filter fun entry => entry.2.accountId = accountId

/-- A row that fits is found under its account when it has been inserted. -/
theorem mem_ofAccount_insert (self : CommanderTable) {row : CommanderRow} (h : row.Fits) :
    (self.nextId, row) ∈ (self.apply (.insertCommander row)).ofAccount row.accountId := by
  rw [ofAccount, apply, h.fetched_eq]
  exact List.mem_filter.mpr ⟨by simp, decide_eq_true rfl⟩

/-- So is one that replaces a row that there is. -/
theorem mem_ofAccount_update {self : CommanderTable} {commanderId : UInt64}
    {old row : CommanderRow} (hold : (commanderId, old) ∈ self.rows) (h : row.Fits) :
    (commanderId, row) ∈
      (self.apply (.updateCommander commanderId row)).ofAccount row.accountId := by
  rw [ofAccount, apply, h.fetched_eq]
  exact List.mem_filter.mpr ⟨List.mem_map.mpr ⟨_, hold, if_pos rfl⟩, decide_eq_true rfl⟩

end CommanderTable

def tableOf (writes : List Write) : CommanderTable := writes.foldl CommanderTable.apply ⟨[], 0⟩

theorem tableOf_concat (writes : List Write) (write : Write) :
    tableOf (writes ++ [write]) = (tableOf writes).apply write := by
  rw [tableOf, List.foldl_append]
  rfl

/-- The answer of the database to a statement about the table. -/
def tableAnswer (write : List Write → Write → Answer) (writes : List Write) : Write → Answer
  | .insertCommander _ => ⟨true, true, fun _ => rfl, (tableOf writes).nextId⟩
  | .updateCommander .. | .deleteCommander .. => ⟨true, true, fun _ => rfl, 0⟩
  | other => write writes other

/-- An environment whose database has the table. -/
def Env.withTable {Key : Type} (env : Env Key) : Env Key :=
  { env with
    write := tableAnswer env.write
    selectCommanders := fun writes accountId =>
      .success (some ((tableOf writes).ofAccount accountId)) }

end R1Emu.Game
