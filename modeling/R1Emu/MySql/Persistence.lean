import R1Emu.Game.Names
import R1Emu.Lib.KeyValue
import R1Emu.MySql.Statements

/-!
# Commanders that are saved

A flush inserts a row or updates the one that there is, and gives the commander back when its
numbers fit their columns. A run of flushes refines a map from the ids to what was saved last.
-/
namespace R1Emu.MySql
open R1Emu.Game R1Emu.Lib R1Emu.Lib.CFormat R1Emu.Lib.SqlText
open R1Emu.Commander (eqSlotCount ItemPtr)

variable {Key : Type} {c : Commander Key} {eqSlots : Fin eqSlotCount → UInt32}

/-- What a row keeps of its commander, besides positions and items. -/
structure CommanderData where
  commanderName : Text
  accountId : UInt64
  level : UInt32
  currentXP : UInt32
  gender : UInt8
  jobId : UInt16
  classId : UInt16
  hairId : UInt8
  mapId : UInt16
  currentHP : UInt32
  currentSP : UInt16
  deriving DecidableEq

def commanderData (c : Commander Key) : CommanderData where
  commanderName := commanderName c
  accountId := c.accountId
  level := c.level
  currentXP := c.currentXP
  gender := c.gender
  jobId := c.jobId
  classId := c.classId
  hairId := c.hairId
  mapId := c.mapId
  currentHP := c.currentHP
  currentSP := c.currentSP

/-- What is loaded from the row. -/
def Row.data (row : Row) : CommanderData where
  commanderName := cString (strncpy 65 (row.columns .commanderName)).toList
  accountId := UInt64.ofNat (readWord 64 (row.columns .accountId))
  level := UInt32.ofNat (readWord 32 (row.columns .level))
  currentXP := UInt32.ofNat (readWord 32 (row.columns .exp))
  gender := UInt8.ofNat (readWord 8 (row.columns .gender))
  jobId := UInt16.ofNat (readWord 16 (row.columns .jobId))
  classId := UInt16.ofNat (readWord 16 (row.columns .classId))
  hairId := UInt8.ofNat (readWord 8 (row.columns .hairId))
  mapId := UInt16.ofNat (readWord 16 (row.columns .mapId))
  currentHP := UInt32.ofNat (readWord 32 (row.columns .hp))
  currentSP := UInt16.ofNat (readWord 16 (row.columns .mp))

theorem commanderData_commander (strtof : Text → UInt32) (row : Row) (familyName : Chars 64)
    (pcId : UInt32) (equippedItems : UInt8 → Option ItemPtr) :
    commanderData (row.commander strtof familyName pcId equippedItems : Commander Key) =
      row.data := by
  rfl

/-! ### Columns -/

theorem assign_map (fetched : ColumnType → Text → Text) (value : Field → Text)
    (fields : List Field) (columns : Field → Text) (field : Field) :
    assign fetched columns (fields.map fun field => (field, value field)) field =
      if field ∈ fields then fetched field.columnType (value field) else columns field := by
  induction fields generalizing columns with
  | nil => simp [assign]
  | cons other fields ih =>
    rw [List.map_cons, assign, ih]
    by_cases hfield : field ∈ fields
    · simp [hfield]
    by_cases hother : field = other
    · subst hother
      simp [hfield]
    · simp [hfield, hother]

/-- A number that fits a `long` is read as it is. -/
theorem readWord_decimal {bits : ℕ} {z : ℤ} (hlow : -2 ^ 31 ≤ z) (hhigh : z < 2 ^ 31) :
    readWord bits (decimal z) = (z % 2 ^ bits).toNat := by
  rw [readWord, strtol32_decimal]
  congr 2
  omega

section Fetched
variable {server : Server} (hserver : server.Laws)
include hserver

theorem readWord_int {bits : ℕ} (n : ℕ) :
    readWord bits (server.fetched .int (numeral 10 n)) = min n (2 ^ 31 - 1) % 2 ^ bits := by
  have hnearest : max (-2 ^ 31) (min (n : ℤ) (2 ^ 31 - 1)) = ((min n (2 ^ 31 - 1) : ℕ) : ℤ) := by
    omega
  rw [← decimal_natCast, hserver.int, hnearest, readWord_decimal (by omega) (by omega)]
  exact Int.toNat_natCast (_ % 2 ^ bits)

theorem readWord_unsigned {bits : ℕ} (n : ℕ) :
    readWord bits (server.fetched .unsigned (numeral 10 n)) = min n (2 ^ 31 - 1) % 2 ^ bits := by
  have hnearest : max (-2 ^ 31) (min ((min n (2 ^ 32 - 1) : ℕ) : ℤ) (2 ^ 31 - 1)) =
      ((min n (2 ^ 31 - 1) : ℕ) : ℤ) := by
    omega
  rw [← decimal_natCast, hserver.unsigned, readWord, strtol32_decimal, hnearest]
  exact Int.toNat_natCast (_ % 2 ^ bits)

end Fetched

/-! ### Whole numbers in columns of floats -/

theorem divRound_one (n : ℕ) : divRound n 1 = n := by
  simp [divRound, Nat.mod_one]

theorem roundTo_near {unit : ℕ} (hunit : 0 < unit) (n : ℕ) :
    roundTo unit n ≤ n + unit ∧ n ≤ roundTo unit n + unit := by
  have hle : n / unit ≤ divRound n unit := by
    unfold divRound
    split <;> omega
  have hmod := Nat.mod_lt n hunit
  have hsplit : unit * (n / unit) + n % unit = n := Nat.div_add_mod n unit
  have hhigh : divRound n unit * unit ≤ (n / unit + 1) * unit :=
    Nat.mul_le_mul_right unit (divRound_le n unit)
  have hlow : n / unit * unit ≤ divRound n unit * unit := Nat.mul_le_mul_right unit hle
  rw [Nat.mul_comm] at hsplit
  rw [Nat.succ_mul] at hhigh
  unfold roundTo
  omega

theorem floatNumber_of_lt {n : ℕ} (hn : n < 10 ^ 6) : floatNumber n = n := by
  have htwo : Nat.log 2 n - 23 = 0 := by
    have hlog : Nat.log 2 n ≤ 23 :=
      Nat.lt_succ_iff.mp (Nat.log_lt_of_lt_pow' (by decide) (hn.trans (by decide)))
    omega
  have hstored : roundTo (2 ^ (Nat.log 2 n - 23)) n = n := by
    rw [htwo, roundTo, pow_zero, divRound_one, Nat.mul_one]
  have hten : Nat.log 10 n - 5 = 0 := by
    have hlog : Nat.log 10 n < 6 := Nat.log_lt_of_lt_pow' (by decide) hn
    omega
  have hfetched : roundTo (10 ^ (Nat.log 10 n - 5)) n = n := by
    rw [hten, roundTo, pow_zero, divRound_one, Nat.mul_one]
  rw [floatNumber, Int.natAbs_natCast, hstored]
  simp only [hfetched]
  rcases Nat.eq_zero_or_pos n with rfl | hpos
  · rfl
  · rw [Int.sign_eq_one_of_pos (by exact_mod_cast hpos), one_mul]

theorem log_natAbs_lt {z : ℤ} (hz : z.natAbs ≤ 2 ^ 31) : Nat.log 2 z.natAbs < 32 :=
  Nat.log_lt_of_lt_pow' (by decide) (hz.trans_lt (by decide))

/-- Rounding moves a number of 32 bits by less than there are numbers. -/
theorem floatNumber_near {z : ℤ} (hz : z.natAbs ≤ 2 ^ 31) :
    (floatNumber z - z).natAbs < 2 ^ 32 := by
  have htwo : 2 ^ (Nat.log 2 z.natAbs - 23) ≤ 2 ^ 8 := by
    have hlog := log_natAbs_lt hz
    exact Nat.pow_le_pow_right (by decide) (by omega)
  obtain ⟨hhigh, hlow⟩ := roundTo_near (Nat.two_pow_pos _) z.natAbs
  generalize hstored : roundTo (2 ^ (Nat.log 2 z.natAbs - 23)) z.natAbs = stored at hhigh hlow
  have hten : 10 ^ (Nat.log 10 stored - 5) ≤ 10 ^ 4 := by
    have hlog : Nat.log 10 stored < 10 := Nat.log_lt_of_lt_pow' (by decide) (by omega)
    exact Nat.pow_le_pow_right (by decide) (by omega)
  have hpos : 0 < 10 ^ (Nat.log 10 stored - 5) := Nat.pow_pos (by decide)
  obtain ⟨hhigh', hlow'⟩ := roundTo_near hpos stored
  rw [floatNumber, hstored]
  rcases lt_trichotomy z 0 with hneg | rfl | hpos
  · rw [Int.sign_eq_neg_one_of_neg hneg]
    omega
  · simp
  · rw [Int.sign_eq_one_of_pos hpos]
    omega

/-- What is not more than a multiple of the unit is not rounded to more. -/
theorem roundTo_le {unit n m : ℕ} (hunit : 0 < unit) (h : n ≤ m * unit) :
    roundTo unit n ≤ m * unit := by
  apply Nat.mul_le_mul_right
  rcases Nat.lt_or_ge (n / unit) m with hlt | hge
  · exact (divRound_le n unit).trans hlt
  · have hexact : n = m * unit := le_antisymm h ((Nat.le_div_iff_mul_le hunit).mp hge)
    rw [hexact, divRound, Nat.mul_mod_left, Nat.mul_div_cancel _ hunit]
    simp [hunit.ne]

/-- A number that is fetched fits a `long`. -/
theorem floatNumber_lt {z : ℤ} (hz : z.natAbs ≤ 2 ^ 31) : (floatNumber z).natAbs < 2 ^ 31 := by
  have hlog := log_natAbs_lt hz
  have hstored : roundTo (2 ^ (Nat.log 2 z.natAbs - 23)) z.natAbs ≤ 2 ^ 31 := by
    have hmul : 2 ^ (31 - (Nat.log 2 z.natAbs - 23)) * 2 ^ (Nat.log 2 z.natAbs - 23) = 2 ^ 31 := by
      rw [← pow_add, Nat.sub_add_cancel (by omega)]
    rw [← hmul] at hz ⊢
    exact roundTo_le (Nat.two_pow_pos _) hz
  generalize hs : roundTo (2 ^ (Nat.log 2 z.natAbs - 23)) z.natAbs = stored at hstored
  have hfetched : roundTo (10 ^ (Nat.log 10 stored - 5)) stored < 2 ^ 31 := by
    rcases Nat.lt_or_ge stored (10 ^ 9) with hsmall | hlarge
    · have hten : Nat.log 10 stored < 9 := Nat.log_lt_of_lt_pow' (by decide) hsmall
      have hunit : 10 ^ (Nat.log 10 stored - 5) ≤ 10 ^ 3 :=
        Nat.pow_le_pow_right (by decide) (by omega)
      have hpos : 0 < 10 ^ (Nat.log 10 stored - 5) := Nat.pow_pos (by decide)
      exact lt_of_le_of_lt (roundTo_near hpos stored).1 (by omega)
    · have hten : Nat.log 10 stored = 9 :=
        Nat.log_eq_of_pow_le_of_lt_pow hlarge (lt_of_le_of_lt hstored (by decide))
      have hdiv : divRound stored (10 ^ 4) ≤ 214748 := by
        unfold divRound
        split <;> omega
      rw [hten, roundTo]
      exact lt_of_le_of_lt (Nat.mul_le_mul_right _ hdiv) (by decide)
  rw [floatNumber, hs]
  rcases lt_trichotomy z 0 with hneg | rfl | hpos
  · rw [Int.sign_eq_neg_one_of_neg hneg]
    omega
  · simp
  · rw [Int.sign_eq_one_of_pos hpos]
    omega

theorem readWord_float {server : Server} (hserver : server.Laws) {bits : ℕ} {z : ℤ}
    (hz : z.natAbs ≤ 2 ^ 31) : readWord bits (server.fetched .float (decimal z)) =
      (floatNumber z % 2 ^ bits).toNat := by
  have hlt := floatNumber_lt hz
  rw [hserver.float z hz, readWord_decimal (by omega) (by omega)]

/-! ### Rows that give a commander back -/

/-- The name ends in its array, and the numbers fit their columns and a `long`. -/
structure Kept (c : Commander Key) : Prop where
  commanderName : (commanderName c).length ≤ 64
  accountId : c.accountId.toNat < 2 ^ 31
  level : c.level.toNat < 2 ^ 31
  currentXP : c.currentXP.toNat < 2 ^ 31
  currentHP : floatNumber (signed c.currentHP) = signed c.currentHP

theorem signed_eq (n : UInt32) :
    signed n = if 2 * n.toNat < 2 ^ 32 then (n.toNat : ℤ) else n.toNat - 2 ^ 32 :=
  BitVec.toInt_eq_toNat_cond n.toBitVec

theorem natAbs_signed_le (n : UInt32) : (signed n).natAbs ≤ 2 ^ 31 := by
  have hlt := n.toNat_lt
  rw [signed_eq]
  split <;> omega

theorem signed_emod (n : UInt32) : (signed n % 2 ^ 32).toNat = n.toNat := by
  have hlt := n.toNat_lt
  rw [signed_eq]
  split <;> omega

theorem currentHP_iff :
    UInt32.ofNat (floatNumber (signed c.currentHP) % 2 ^ 32).toNat = c.currentHP ↔
      floatNumber (signed c.currentHP) = signed c.currentHP := by
  have hnear := floatNumber_near (natAbs_signed_le c.currentHP)
  have hsigned := signed_emod c.currentHP
  rw [← UInt32.toNat_inj, UInt32.toNat_ofNat']
  omega

theorem currentSP_eq :
    UInt16.ofNat (floatNumber (signed c.currentSP.toUInt32) % 2 ^ 16).toNat = c.currentSP := by
  have hlt := c.currentSP.toNat_lt
  have hsigned : signed c.currentSP.toUInt32 = c.currentSP.toNat := by
    rw [signed_eq, UInt16.toNat_toUInt32, if_pos (by omega)]
  rw [hsigned, floatNumber_of_lt (hlt.trans (by decide)), ← UInt16.toNat_inj, UInt16.toNat_ofNat']
  omega

section Loaded
variable {server : Server} (hserver : server.Laws)
include hserver

theorem varchar_iff :
    cString (strncpy 65 (server.fetched (.varchar 64) (commanderName c))).toList =
      commanderName c ↔ (commanderName c).length ≤ 64 := by
  have hzero : 0 ∉ (commanderName c).take 64 := fun h =>
    zero_notMem_cString _ (List.mem_of_mem_take h)
  have hself := cString_of_notMem hzero
  rw [hserver.varchar, cString_strncpy (by rw [hself, List.length_take]; omega), hself,
    List.take_eq_self_iff]

theorem unsigned_iff {n : UInt64} :
    UInt64.ofNat (readWord 64 (server.fetched .unsigned (numeral 10 n.toNat))) = n ↔
      n.toNat < 2 ^ 31 := by
  rw [readWord_unsigned hserver, ← UInt64.toNat_inj, UInt64.toNat_ofNat']
  omega

theorem int_iff {n : UInt32} :
    UInt32.ofNat (readWord 32 (server.fetched .int (numeral 10 n.toNat))) = n ↔
      n.toNat < 2 ^ 31 := by
  rw [readWord_int hserver, ← UInt32.toNat_inj, UInt32.toNat_ofNat']
  omega

theorem int_eq_uint16 (n : UInt16) :
    UInt16.ofNat (readWord 16 (server.fetched .int (numeral 10 n.toNat))) = n := by
  have hlt := n.toNat_lt
  rw [readWord_int hserver, ← UInt16.toNat_inj, UInt16.toNat_ofNat']
  omega

theorem int_eq_uint8 (n : UInt8) :
    UInt8.ofNat (readWord 8 (server.fetched .int (numeral 10 n.toNat))) = n := by
  have hlt := n.toNat_lt
  rw [readWord_int hserver, ← UInt8.toNat_inj, UInt8.toNat_ofNat']
  omega

/-- A row of which the columns have been set to the texts of a commander. -/
theorem data_eq_iff {row : Row}
    (hcolumns : ∀ field, field.skipped = false →
      row.columns field = server.fetched field.columnType (fieldText c eqSlots field)) :
    row.data = commanderData c ↔ Kept c := by
  have hhp := natAbs_signed_le c.currentHP
  have hsp := natAbs_signed_le c.currentSP.toUInt32
  simp only [Row.data, commanderData, CommanderData.mk.injEq, hcolumns .commanderName rfl,
    hcolumns .accountId rfl, hcolumns .level rfl, hcolumns .exp rfl, hcolumns .gender rfl,
    hcolumns .jobId rfl, hcolumns .classId rfl, hcolumns .hairId rfl, hcolumns .mapId rfl,
    hcolumns .hp rfl, hcolumns .mp rfl, Field.columnType, fieldText, varchar_iff hserver,
    unsigned_iff hserver, int_iff hserver, int_eq_uint16 hserver, int_eq_uint8 hserver,
    readWord_float hserver hhp, readWord_float hserver hsp, currentHP_iff, currentSP_eq, true_and,
    and_true]
  exact ⟨fun h => ⟨h.1, h.2.1, h.2.2.1, h.2.2.2.1, h.2.2.2.2⟩,
    fun h => ⟨h.commanderName, h.accountId, h.level, h.currentXP, h.currentHP⟩⟩

end Loaded

/-! ### The fields that are set -/

theorem mem_savedFields {field : Field} : field ∈ savedFields ↔ field.skipped = false := by
  have hall : field ∈ mySqlCommanderFields := by
    cases field <;> simp [mySqlCommanderFields]
  simp [savedFields, hall]

theorem nodup_savedFields : savedFields.Nodup := by decide

/-! ### The table -/

theorem Commanders.count_eq_zero {table : Commanders} {commanderId : ℕ} :
    table.count commanderId = 0 ↔ ∀ row ∈ table.rows, row.commanderId.toNat ≠ commanderId := by
  simp [Commanders.count, List.countP_eq_zero]

theorem Commanders.nodup_toNat (table : Commanders) :
    (table.rows.map fun row => row.commanderId.toNat).Nodup := by
  have h := table.nodup.map (f := UInt32.toNat) fun _ _ => UInt32.toNat_inj.mp
  rwa [List.map_map] at h

theorem Commanders.count_le_one (table : Commanders) (commanderId : ℕ) :
    table.count commanderId ≤ 1 := by
  have h := List.nodup_iff_count_le_one.mp table.nodup_toNat commanderId
  rwa [List.count_eq_countP, List.countP_map] at h

/-- The row of the commander, and the others as they were. -/
structure Saved (table table' : Commanders) (c : Commander Key) : Prop where
  row : ∃ row, table'.rows.filter (fun row => row.commanderId.toNat = c.commanderId.toNat) = [row] ∧
    ∀ strtof familyName pcId equippedItems,
      commanderData (row.commander strtof familyName pcId equippedItems : Commander Key) =
        commanderData c
  others : table'.rows.filter (fun row => row.commanderId.toNat ≠ c.commanderId.toNat) =
    table.rows.filter fun row => row.commanderId.toNat ≠ c.commanderId.toNat

theorem saved_iff {table table' : Commanders} (row : Row)
    (hrow : table'.rows.filter (fun row => row.commanderId.toNat = c.commanderId.toNat) = [row])
    (hothers : table'.rows.filter (fun row => row.commanderId.toNat ≠ c.commanderId.toNat) =
      table.rows.filter fun row => row.commanderId.toNat ≠ c.commanderId.toNat) :
    Saved table table' c ↔ row.data = commanderData c := by
  constructor
  · intro h
    obtain ⟨other, hother, hdata⟩ := h.row
    rw [hrow] at hother
    rw [List.singleton_inj.mp hother, ← hdata (fun _ => 0) (strncpy 64 []) 0 fun _ => none,
      commanderData_commander]
  · intro h
    refine ⟨⟨row, hrow, fun strtof familyName pcId equippedItems => ?_⟩, hothers⟩
    rw [commanderData_commander, h]

theorem Commanders.filter_eq_singleton {table : Commanders} {row : Row} (h : row ∈ table.rows) :
    table.rows.filter (fun other => other.commanderId.toNat = row.commanderId.toNat) = [row] := by
  have hmem : row ∈ table.rows.filter fun other =>
      other.commanderId.toNat = row.commanderId.toNat := by
    simp [h]
  have hle := table.count_le_one row.commanderId.toNat
  rw [Commanders.count, List.countP_eq_length_filter] at hle
  obtain ⟨other, hother⟩ := List.length_eq_one_iff.mp
    (le_antisymm hle (List.length_pos_of_mem hmem))
  rw [hother] at hmem ⊢
  rw [List.mem_singleton.mp hmem]

/-- The rows with another id stay as they are. -/
theorem Commanders.filter_update (table : Commanders) (commanderId : ℕ)
    (set : (Field → Text) → Field → Text) :
    (table.update commanderId set).rows.filter (fun row => row.commanderId.toNat = commanderId) =
        (table.rows.filter fun row => row.commanderId.toNat = commanderId).map
          (updateRow commanderId set) ∧
      (table.update commanderId set).rows.filter (fun row => row.commanderId.toNat ≠ commanderId) =
        table.rows.filter fun row => row.commanderId.toNat ≠ commanderId := by
  constructor
  · simp only [update, List.filter_map, Function.comp_def, commanderId_updateRow]
  · simp only [update, List.filter_map, Function.comp_def, commanderId_updateRow]
    refine (List.map_congr_left fun row hrow => ?_).trans (List.map_id' _)
    have hne : row.commanderId.toNat ≠ commanderId := by simpa using (List.mem_filter.mp hrow).2
    exact if_neg fun hboth => hne hboth.1

/-- An update that finds no row has saved nothing. -/
theorem not_saved_update (table : Commanders)
    (h : ∀ row ∈ table.rows, row.commanderId.toNat ≠ c.commanderId.toNat)
    (set : (Field → Text) → Field → Text) :
    ¬ Saved table (table.update c.commanderId.toNat set) c := by
  intro hsaved
  obtain ⟨row, hrow, -⟩ := hsaved.row
  have hnone : table.rows.filter (fun row => row.commanderId.toNat = c.commanderId.toNat) = [] := by
    simpa [List.filter_eq_nil_iff] using h
  rw [(table.filter_update _ set).1, hnone] at hrow
  cases hrow

/-- What the rows that are not deleted keep under their ids. -/
def Commanders.loaded (table : Commanders) : KeyValue.Map ℕ CommanderData := fun commanderId =>
  (table.rows.find? fun row => row.commanderId.toNat = commanderId ∧ row.isDeleted = false).map
    Row.data

theorem Commanders.loaded_eq_some {table : Commanders} {commanderId : ℕ} {data : CommanderData} :
    table.loaded commanderId = some data ↔ ∃ row ∈ table.rows,
      row.commanderId.toNat = commanderId ∧ row.isDeleted = false ∧ row.data = data := by
  rw [loaded, Option.map_eq_some_iff]
  constructor
  · rintro ⟨row, hfind, hdata⟩
    have hrow := List.find?_some hfind
    rw [decide_eq_true_iff] at hrow
    exact ⟨row, List.mem_of_find?_eq_some hfind, hrow.1, hrow.2, hdata⟩
  · rintro ⟨row, hrow, hid, hdeleted, hdata⟩
    refine ⟨row, ?_, hdata⟩
    cases hfind : table.rows.find? fun row =>
        row.commanderId.toNat = commanderId ∧ row.isDeleted = false with
    | none => simpa [hid, hdeleted] using List.find?_eq_none.mp hfind row hrow
    | some other =>
      have hother := List.find?_some hfind
      rw [decide_eq_true_iff] at hother
      rw [List.inj_on_of_nodup_map table.nodup (List.mem_of_find?_eq_some hfind) hrow
        (UInt32.toNat_inj.mp (hother.1.trans hid.symm))]

theorem Commanders.loaded_eq_none {table : Commanders} {commanderId : ℕ} :
    table.loaded commanderId = none ↔
      ∀ row ∈ table.rows, row.commanderId.toNat = commanderId → row.isDeleted = true := by
  simp [loaded, List.find?_eq_none]

/-! ### One save -/

/-- The columns after a statement about the commander. -/
def savedColumns (fetched : ColumnType → Text → Text) (c : Commander Key)
    (eqSlots : Fin eqSlotCount → UInt32) (columns : Field → Text) : Field → Text :=
  assign fetched columns (savedFields.map fun field => (field, fieldText c eqSlots field))

theorem data_savedColumns_iff {server : Server} (hserver : server.Laws) (row : Row)
    (columns : Field → Text) :
    Row.data { row with columns := savedColumns server.fetched c eqSlots columns } =
      commanderData c ↔ Kept c := by
  apply data_eq_iff hserver
  intro field hfield
  exact (assign_map server.fetched _ savedFields columns field).trans
    (if_pos (mem_savedFields.mpr hfield))

/-- The flush does not fault, and has saved the commander when it returns true. -/
def FlushSaves (eqSlots : Fin eqSlotCount → UInt32) (server : Server) (table : Commanders)
    (c : Commander Key) : Prop :=
  ∃ status c' table', mySqlCommanderFlush server table c eqSlots = some (status, c', table') ∧
    (status = true → commanderData c' = commanderData c ∧ Saved table table' c')

theorem flushSaves_of_eq {server : Server} {table table' : Commanders} {status : Bool}
    {c' : Commander Key}
    (h : mySqlCommanderFlush server table c eqSlots = some (status, c', table')) :
    FlushSaves eqSlots server table c ↔
      (status = true → commanderData c' = commanderData c ∧ Saved table table' c') := by
  rw [FlushSaves, h]
  simp

section Flush
variable {server : Server} (hserver : server.Laws) (table : Commanders) (eqSlots)
include hserver

theorem mySqlCommanderInsert_eq (hname : verbatim (commanderName c)) :
    mySqlCommanderInsert server table c eqSlots = some
      (if h : table.autoIncrement < 2 ^ 32 then
        (true, { c with commanderId := UInt64.ofNat table.autoIncrement },
          table.insert (savedColumns server.fetched c eqSlots server.blank) h)
      else (false, c, table)) := by
  have hvalue : ∀ field, verbatim (fieldText c eqSlots field) := verbatim_fieldText hname
  have hnodup : ((savedFields.map fun field => (field, fieldText c eqSlots field)).map
      Prod.fst).Nodup := by
    rw [List.map_map]
    simpa [Function.comp_def] using nodup_savedFields
  rw [mySqlCommanderInsert, mySqlQuery, statement_insert, Option.map_some,
    execute_insert hserver table hvalue, Statement.run]
  by_cases h : table.autoIncrement < 2 ^ 32
  · rw [dif_pos ⟨hnodup, h⟩, dif_pos h]
    rfl
  · rw [dif_neg fun hboth => h hboth.2, dif_neg h]
    rfl

theorem mySqlCommanderUpdate_eq (hname : verbatim (commanderName c)) (commanderId : UInt64) :
    mySqlCommanderUpdate server table commanderId c eqSlots =
      some (true, c, table.update commanderId.toNat (savedColumns server.fetched c eqSlots)) := by
  have hvalue : ∀ field, verbatim (fieldText c eqSlots field) := verbatim_fieldText hname
  rw [mySqlCommanderUpdate, mySqlQuery, statement_update, Option.map_some,
    execute_update hserver table hvalue]
  rfl

/-- The question is answered by the rows that have the low half of the id. -/
theorem mySqlCommanderFlush_eq : mySqlCommanderFlush server table c eqSlots =
    if table.count (c.commanderId.toNat % 2 ^ 32) = 0 then
      mySqlCommanderInsert server table c eqSlots
    else mySqlCommanderUpdate server table c.commanderId c eqSlots := by
  have hle := table.count_le_one (c.commanderId.toNat % 2 ^ 32)
  have hanswer : (strtol32 10 (numeral 10 (table.count (c.commanderId.toNat % 2 ^ 32))) = 0) =
      (table.count (c.commanderId.toNat % 2 ^ 32) = 0) := by
    rw [← decimal_natCast, strtol32_decimal]
    exact propext (by omega)
  rw [mySqlCommanderFlush, mySqlQuery, statement_count, Option.map_some, execute_count hserver,
    Option.bind_some]
  change (if strtol32 10 (numeral 10 _) = 0 then _ else _) = _
  simp only [hanswer]

/-- A row that was inserted is the only one with its id. -/
theorem saved_insert_iff (h : table.autoIncrement < 2 ^ 32) (columns : Field → Text) :
    Saved table (table.insert (savedColumns server.fetched c eqSlots columns) h)
      { c with commanderId := UInt64.ofNat table.autoIncrement } ↔ Kept c := by
  have hid : (UInt64.ofNat table.autoIncrement).toNat = table.autoIncrement := by
    rw [UInt64.toNat_ofNat']
    omega
  have hnew : (UInt32.ofNat table.autoIncrement).toNat = table.autoIncrement := by
    rw [UInt32.toNat_ofNat']
    omega
  have hold : ∀ row ∈ table.rows, row.commanderId.toNat ≠ table.autoIncrement := fun row hrow =>
    (table.lt_autoIncrement row hrow).ne
  rw [saved_iff ⟨UInt32.ofNat table.autoIncrement, false,
    savedColumns server.fetched c eqSlots columns⟩]
  · exact data_savedColumns_iff hserver ⟨_, _, columns⟩ columns
  · have hnone :
        table.rows.filter (fun row => row.commanderId.toNat = table.autoIncrement) = [] := by
      simpa [List.filter_eq_nil_iff] using hold
    simp [Commanders.insert, hid, hnew, hnone]
  · simp [Commanders.insert, hid, hnew]

theorem saved_update_iff {row : Row} (hrow : row ∈ table.rows)
    (hid : row.commanderId.toNat = c.commanderId.toNat) :
    Saved table (table.update c.commanderId.toNat (savedColumns server.fetched c eqSlots)) c ↔
      if row.isDeleted then row.data = commanderData c else Kept c := by
  obtain ⟨hsame, hothers⟩ := table.filter_update c.commanderId.toNat
    (savedColumns server.fetched c eqSlots)
  rw [← hid, Commanders.filter_eq_singleton hrow, hid] at hsame
  rw [saved_iff _ hsame hothers, Commanders.updateRow, hid]
  have hkept : Row.data { row with columns := savedColumns server.fetched c eqSlots row.columns } =
      commanderData c ↔ Kept c := data_savedColumns_iff hserver row row.columns
  cases hdeleted : row.isDeleted with
  | true => simp
  | false =>
    rw [← hdeleted]
    simpa [hdeleted] using hkept

theorem flushSaves_of_insert (hname : verbatim (commanderName c))
    (hnone : ∀ row ∈ table.rows, row.commanderId.toNat ≠ c.commanderId.toNat % 2 ^ 32) :
    FlushSaves eqSlots server table c ↔ (table.autoIncrement < 2 ^ 32 → Kept c) := by
  have hflush := mySqlCommanderFlush_eq eqSlots hserver table (c := c)
  rw [if_pos (Commanders.count_eq_zero.mpr hnone),
    mySqlCommanderInsert_eq eqSlots hserver table hname] at hflush
  by_cases h : table.autoIncrement < 2 ^ 32
  · rw [dif_pos h] at hflush
    have hsaved := saved_insert_iff eqSlots hserver table (c := c) h server.blank
    rw [flushSaves_of_eq hflush, hsaved]
    exact ⟨fun hboth _ => (hboth rfl).2, fun hkept _ => ⟨rfl, hkept h⟩⟩
  · rw [dif_neg h] at hflush
    rw [flushSaves_of_eq hflush]
    exact ⟨fun _ hlt => absurd hlt h, fun _ hfalse => absurd hfalse (by decide)⟩

theorem flushSaves_of_update (hname : verbatim (commanderName c)) {row : Row}
    (hrow : row ∈ table.rows) (hid : row.commanderId.toNat = c.commanderId.toNat % 2 ^ 32) :
    FlushSaves eqSlots server table c ↔ row.commanderId.toNat = c.commanderId.toNat ∧
      if row.isDeleted then row.data = commanderData c else Kept c := by
  have hcount : table.count (c.commanderId.toNat % 2 ^ 32) ≠ 0 := fun hzero =>
    Commanders.count_eq_zero.mp hzero row hrow hid
  have hflush := mySqlCommanderFlush_eq eqSlots hserver table (c := c)
  rw [if_neg hcount, mySqlCommanderUpdate_eq eqSlots hserver table hname] at hflush
  rw [flushSaves_of_eq hflush]
  simp only [true_implies, true_and]
  by_cases hsame : row.commanderId.toNat = c.commanderId.toNat
  · rw [saved_update_iff eqSlots hserver table hrow hsame]
    simp [hsame]
  · have hnone : ∀ other ∈ table.rows, other.commanderId.toNat ≠ c.commanderId.toNat := by
      intro other hother hwhole
      have hlt := other.commanderId.toNat_lt
      exact hsame (by omega)
    simp [hsame, not_saved_update table hnone]

theorem loaded_insert (hkept : Kept c) (h : table.autoIncrement < 2 ^ 32) (columns : Field → Text) :
    (table.insert (savedColumns server.fetched c eqSlots columns) h).loaded =
      Function.update table.loaded table.autoIncrement (some (commanderData c)) := by
  have hid : (UInt32.ofNat table.autoIncrement).toNat = table.autoIncrement := by
    rw [UInt32.toNat_ofNat']
    omega
  funext commanderId
  by_cases hsame : commanderId = table.autoIncrement
  · rw [hsame, Function.update_self, Commanders.loaded_eq_some]
    exact ⟨_, List.mem_append_right _ (List.mem_singleton_self _), hid, rfl,
      (data_savedColumns_iff hserver ⟨_, _, columns⟩ columns).mpr hkept⟩
  · rw [Function.update_of_ne hsame]
    apply Option.ext
    intro data
    rw [Commanders.loaded_eq_some, Commanders.loaded_eq_some, Commanders.insert]
    simp [hid, Ne.symm hsame]

theorem loaded_update (hkept : Kept c) {row : Row} (hrow : row ∈ table.rows)
    (hid : row.commanderId.toNat = c.commanderId.toNat) (hdeleted : row.isDeleted = false) :
    (table.update c.commanderId.toNat (savedColumns server.fetched c eqSlots)).loaded =
      Function.update table.loaded c.commanderId.toNat (some (commanderData c)) := by
  obtain ⟨hsame, hothers⟩ := table.filter_update c.commanderId.toNat
    (savedColumns server.fetched c eqSlots)
  funext commanderId
  by_cases hne : commanderId = c.commanderId.toNat
  · rw [hne, Function.update_self, Commanders.loaded_eq_some]
    refine ⟨_, List.mem_map_of_mem hrow, ?_⟩
    rw [Commanders.updateRow, if_pos ⟨hid, hdeleted⟩]
    exact ⟨hid, hdeleted, (data_savedColumns_iff hserver row row.columns).mpr hkept⟩
  · rw [Function.update_of_ne hne]
    apply Option.ext
    intro data
    have hmem : ∀ row : Row, row.commanderId.toNat = commanderId →
        (row ∈ (table.update c.commanderId.toNat
          (savedColumns server.fetched c eqSlots)).rows ↔ row ∈ table.rows) := by
      intro row hrow
      have h := congrArg (row ∈ ·) hothers
      simpa [List.mem_filter, hrow, hne] using h
    rw [Commanders.loaded_eq_some, Commanders.loaded_eq_some]
    constructor
    · rintro ⟨row, hrow, hid, h⟩
      exact ⟨row, (hmem row hid).mp hrow, hid, h⟩
    · rintro ⟨row, hrow, hid, h⟩
      exact ⟨row, (hmem row hid).mpr hrow, hid, h⟩

/-- The commander can be saved: its name is read as it is, a row can keep it, and it has a row that
is not deleted or gets a new one. -/
structure Savable (table : Commanders) (c : Commander Key) : Prop where
  commanderName : verbatim (commanderName c)
  kept : Kept c
  row : (∃ row ∈ table.rows, row.commanderId.toNat = c.commanderId.toNat ∧
      row.isDeleted = false) ∨
    ∀ row ∈ table.rows, row.commanderId.toNat ≠ c.commanderId.toNat % 2 ^ 32

/-- Flushes one after the other, each with the id of its commander afterwards when it returns
true. -/
def flushAll (server : Server) : Commanders →
    List (Commander Key × (Fin eqSlotCount → UInt32)) → Option (List (Option ℕ) × Commanders)
  | table, [] => some ([], table)
  | table, (c, eqSlots) :: saves => do
    let (status, c', table) ← mySqlCommanderFlush server table c eqSlots
    let (answers, table) ← flushAll server table saves
    return ((if status then some c'.commanderId.toNat else none) :: answers, table)

/-- Each commander can be saved when its turn comes. -/
def AllSavable (server : Server) : Commanders →
    List (Commander Key × (Fin eqSlotCount → UInt32)) → Prop
  | _, [] => True
  | table, (c, eqSlots) :: saves => Savable table c ∧ ∀ status c' table',
    mySqlCommanderFlush server table c eqSlots = some (status, c', table') →
      AllSavable server table' saves

/-- A flush is one save. -/
theorem flush_refines (h : Savable table c) : ∃ status c' table',
    mySqlCommanderFlush server table c eqSlots = some (status, c', table') ∧
    KeyValue.Save table.loaded c.commanderId.toNat (commanderData c)
      (if status then some c'.commanderId.toNat else none) table'.loaded := by
  have hflush := mySqlCommanderFlush_eq eqSlots hserver table (c := c)
  rcases h.row with ⟨row, hrow, hid, hdeleted⟩ | hnone
  · have hlow : row.commanderId.toNat = c.commanderId.toNat % 2 ^ 32 := by
      have hlt := row.commanderId.toNat_lt
      omega
    have hknown : table.loaded c.commanderId.toNat ≠ none := fun hfree =>
      absurd (Commanders.loaded_eq_none.mp hfree row hrow hid) (by rw [hdeleted]; decide)
    rw [if_neg fun hzero => Commanders.count_eq_zero.mp hzero row hrow hlow,
      mySqlCommanderUpdate_eq eqSlots hserver table h.commanderName] at hflush
    refine ⟨_, _, _, hflush, ?_⟩
    rw [loaded_update eqSlots hserver table h.kept hrow hid hdeleted]
    exact .known hknown
  · have hfree : table.loaded c.commanderId.toNat = none := by
      refine Commanders.loaded_eq_none.mpr fun row hrow hid => absurd ?_ (hnone row hrow)
      have hlt := row.commanderId.toNat_lt
      omega
    rw [if_pos (Commanders.count_eq_zero.mpr hnone),
      mySqlCommanderInsert_eq eqSlots hserver table h.commanderName] at hflush
    by_cases hroom : table.autoIncrement < 2 ^ 32
    · rw [dif_pos hroom] at hflush
      have hnext : table.loaded table.autoIncrement = none :=
        Commanders.loaded_eq_none.mpr fun row hrow hid =>
          absurd hid (table.lt_autoIncrement row hrow).ne
      have hid : (UInt64.ofNat table.autoIncrement).toNat = table.autoIncrement := by
        rw [UInt64.toNat_ofNat']
        omega
      refine ⟨_, _, _, hflush, ?_⟩
      rw [loaded_insert eqSlots hserver table h.kept, if_pos rfl, hid]
      exact .fresh hfree hnext
    · rw [dif_neg hroom] at hflush
      exact ⟨_, _, _, hflush, .refused hfree⟩

theorem flushAll_saves {table : Commanders}
    {saves : List (Commander Key × (Fin eqSlotCount → UInt32))}
    (h : AllSavable server table saves) : ∃ answers table',
    flushAll server table saves = some (answers, table') ∧ KeyValue.Saves table.loaded
      (saves.map fun save => (save.1.commanderId.toNat, commanderData save.1)) answers
        table'.loaded := by
  induction saves generalizing table with
  | nil => exact ⟨[], table, rfl, .nil _⟩
  | cons save saves ih =>
    obtain ⟨status, c', next, hflush, hstep⟩ := flush_refines save.2 hserver table h.1
    obtain ⟨answers, table', hrest, hrun⟩ := ih (h.2 status c' next hflush)
    refine ⟨_, table', ?_, .cons hstep hrun⟩
    rw [flushAll, hflush]
    simp [hrest]

end Flush

/-! ### A commander that is saved twice -/

/-- The number that a text says. -/
def wholeNumber (s : Text) : ℤ :=
  if (readNumber 10 s).1 then -(readNumber 10 s).2 else (readNumber 10 s).2

theorem wholeNumber_decimal (z : ℤ) : wholeNumber (decimal z) = z := by
  rw [wholeNumber, readNumber_decimal]
  simp only [decide_eq_true_eq]
  split <;> omega

/-- The nearest values that fit. -/
def plainFetched : ColumnType → Text → Text
  | .int, s => decimal (max (-2 ^ 31) (min (wholeNumber s) (2 ^ 31 - 1)))
  | .unsigned, s => decimal (max 0 (min (wholeNumber s) (2 ^ 32 - 1)))
  | .varchar size, s => s.take size
  | .float, s => decimal (floatNumber (wholeNumber s))

/-- A server that knows the three statements and no others. -/
def plainServer : Server where
  execute statement table := ((tokens statement).bind parse).bind
    (Statement.run plainFetched (fun _ => []) table)
  fetched := plainFetched
  blank _ := []

theorem laws_plainServer : plainServer.Laws where
  execute statement parsed table h := by
    change ((tokens statement).bind parse).bind _ = _
    rw [h]
    rfl
  int z := by
    change decimal (max (-2 ^ 31) (min (wholeNumber (decimal z)) (2 ^ 31 - 1))) = _
    rw [wholeNumber_decimal]
  unsigned n := by
    change decimal (max 0 (min (wholeNumber (decimal n)) (2 ^ 32 - 1))) = _
    rw [wholeNumber_decimal]
    congr 1
    omega
  varchar _ _ := rfl
  float z _ := by
    change decimal (floatNumber (wholeNumber (decimal z))) = _
    rw [wholeNumber_decimal]

def noRows : Commanders where
  rows := []
  autoIncrement := 1
  lt_autoIncrement _ h := absurd h List.not_mem_nil
  nodup := List.nodup_nil

/-- A commander that has no row yet. -/
def laima : Commander Unit :=
  { (commanderInit : Commander Unit) with
    commanderName := strncpy 65 (text "Laima")
    accountId := 7 }

theorem savable_laima : Savable noRows laima where
  commanderName := by decide
  kept := ⟨by decide, by decide, by decide, by decide, by decide⟩
  row := .inr fun _ h => absurd h List.not_mem_nil

/-- At the next level it has the id of its row. -/
def laima2 : Commander Unit := { laima with level := 2, commanderId := 1 }

theorem allSavable_laima :
    AllSavable plainServer noRows [(laima, fun _ => 2), (laima2, fun _ => 2)] := by
  have hroom : noRows.autoIncrement < 2 ^ 32 := by decide
  have hfirst : ∃ c', mySqlCommanderFlush plainServer noRows laima (fun _ => 2) = some (true, c',
      noRows.insert (savedColumns plainFetched laima (fun _ => 2) fun _ => []) hroom) := by
    have hcount : noRows.count (laima.commanderId.toNat % 2 ^ 32) = 0 := rfl
    rw [mySqlCommanderFlush_eq _ laws_plainServer, if_pos hcount,
      mySqlCommanderInsert_eq _ laws_plainServer _ savable_laima.commanderName, dif_pos hroom]
    exact ⟨_, rfl⟩
  obtain ⟨c', hfirst⟩ := hfirst
  refine ⟨savable_laima, fun status c' table' hflush => ⟨?_, fun _ _ _ _ => trivial⟩⟩
  rw [hfirst, Option.some.injEq, Prod.mk.injEq, Prod.mk.injEq] at hflush
  obtain ⟨-, -, rfl⟩ := hflush
  exact ⟨savable_laima.commanderName, ⟨by decide, by decide, by decide, by decide,
    by decide⟩, .inl ⟨_, List.mem_singleton_self _, rfl, rfl⟩⟩

end R1Emu.MySql
