import R1Emu.Actor.ItemFactory
import R1Emu.Game.HashKeys
import R1Emu.Lib.CountedLoop
import Mathlib.Data.List.Find
import Mathlib.Data.List.Nodup

/-!
# Static data

The tables of the items are read when the item factory starts, and locked. The key of a number is
printed into an array that holds 32 bits of it, so that a negative number is printed behind the
array, and one key takes one row.

An id is read with a `long` of 64 bits, as on Linux, and its low 32 bits are kept. Where a `long` has
32 bits, an id that does not fit is read as the nearest that does.
-/
namespace R1Emu.Tables
open R1Emu.Actor R1Emu.Game R1Emu.Lib.CFormat R1Emu.Lib.CountedLoop

variable {α ρ : Type}

/-- What is on the stack where the key of an id is printed. -/
abbrev Stack := UInt64 → Chars staticDataKeySize

/-! ### Databases -/

structure StaticData (α : Type) where
  hashtable : ZHash α
  locked : Bool

def staticDataInit : StaticData α := ⟨fun _ => none, false⟩

def staticDataLock (self : StaticData α) : StaticData α := { self with locked := true }

def staticDataAdd (stack : Stack) (self : StaticData α) (id : UInt64) (object : α) :
    Option (Bool × StaticData α) :=
  if self.locked then some (false, self)
  else (staticDataGenKey id (stack id).toList).map fun key =>
    match zhashInsert self.hashtable key object with
    | some hashtable => (true, { self with hashtable })
    | none => (false, self)

/-- The object, if the database is locked and has one. -/
def staticDataGet (stack : Stack) (self : StaticData α) (id : UInt64) : Option (Option α) :=
  if self.locked then
    (staticDataGenKey id (stack id).toList).map fun key => zhashLookup self.hashtable key
  else some none

/-! ### Rows -/

/-- A row of `SELECT ClassID, ItemType FROM items_all`. -/
structure ItemsAllRow where
  ClassID : Text
  ItemType : String

/-- Of a row of `items_equip`, the columns from which the category is found. -/
structure ItemsEquipRow where
  ClassID : Text
  GroupName : String

structure ItemCommonData where
  ClassID : Int32
  ItemType : String

structure ItemEquipData where
  ClassID : Int32
  GroupName : String

def itemCommonDataInit (row : ItemsAllRow) : ItemCommonData where
  ClassID := Int32.ofInt (strtol 10 row.ClassID)
  ItemType := row.ItemType

def itemEquipDataInit (row : ItemsEquipRow) : ItemEquipData where
  ClassID := Int32.ofInt (strtol 10 row.ClassID)
  GroupName := row.GroupName

/-- The id under which an object is added. -/
def staticDataId (classId : Int32) : UInt64 := classId.toInt64.toUInt64

/-- Each row is added. There are no rows when the query has failed. -/
def buildDb (stack : Stack) (init : ρ → α) (classId : α → Int32) (rows : Option (List ρ)) :
    Option (Option (StaticData α)) :=
  match rows with
  | none => some none
  | some rows =>
    (forEach (fun row db => staticDataAdd stack db (staticDataId (classId (init row))) (init row))
      rows staticDataInit).map fun r => if r.1 then some r.2 else none

def mySqlBuildItemCommonDataDb (stack : Stack) (rows : Option (List ItemsAllRow)) :
    Option (Option (StaticData ItemCommonData)) :=
  buildDb stack itemCommonDataInit ItemCommonData.ClassID rows

def mySqlBuildItemEquipDataDb (stack : Stack) (rows : Option (List ItemsEquipRow)) :
    Option (Option (StaticData ItemEquipData)) :=
  buildDb stack itemEquipDataInit ItemEquipData.ClassID rows

/-! ### The item factory -/

/-- What the MySQL server answers. -/
structure ItemServer where
  connected : Bool
  itemsAll : Option (List ItemsAllRow)
  itemsEquip : Option (List ItemsEquipRow)

/-- `ItemFactory`. -/
structure ItemFactory where
  itemCommonDatabase : StaticData ItemCommonData
  itemEquipDatabase : StaticData ItemEquipData

def itemFactoryStart (stack : Stack) (server : ItemServer) : Option (Option ItemFactory) :=
  if server.connected then
    (mySqlBuildItemEquipDataDb stack server.itemsEquip).bind fun equip =>
      match equip with
      | none => some none
      | some equip =>
        (mySqlBuildItemCommonDataDb stack server.itemsAll).map fun common =>
          common.map fun common =>
            { itemCommonDatabase := staticDataLock common
              itemEquipDatabase := staticDataLock equip }
  else some none

def itemFactoryGetStaticData (stack : Stack) (self : ItemFactory) (id : UInt32) :
    Option (Option ItemCommonData × Option ItemEquipData) :=
  (staticDataGet stack self.itemCommonDatabase id.toUInt64).bind fun commonData =>
    (staticDataGet stack self.itemEquipDatabase id.toUInt64).map fun equipData =>
      (commonData, equipData)

/-- The static data of one item as what the category is found from. -/
def itemStaticData (commonData : Option ItemCommonData) (equipData : Option ItemEquipData) :
    ItemStaticData where
  itemType _ := commonData.map ItemCommonData.ItemType
  groupName _ := equipData.map ItemEquipData.GroupName

/-- The category with which `itemFactoryCreate` goes on. -/
def itemFactoryCategory (stack : Stack) (self : ItemFactory) (id : UInt32) :
    Option (Option ItemCategory) :=
  (itemFactoryGetStaticData stack self id).map fun data =>
    itemFactoryGetCategoryFromId (itemStaticData data.1 data.2) id

/-! ### Keys -/

theorem staticDataGenKey_of_lt {id : UInt64} (h : id.toNat < 2 ^ 32)
    (key : Chars staticDataKeySize) : ∃ printed, staticDataGenKey id key.toList = some printed ∧
      cString printed = numeral 16 id.toNat := by
  have hfits : ((numeral 16 id.toNat).take 16).length < staticDataKeySize := by
    rw [take_hex]
    exact Nat.lt_succ_of_le ((length_hex_le_iff (by decide)).mpr h)
  obtain ⟨printed, hprinted, -, hstring⟩ := snprintf_fits key hfits
    (zero_notMem_numeral (by decide) (by decide) id.toNat)
  rw [take_hex] at hstring
  exact ⟨printed, hprinted, hstring⟩

theorem staticDataGenKey_of_le {id : UInt64} (h : 2 ^ 32 ≤ id.toNat)
    (key : Chars staticDataKeySize) : staticDataGenKey id key.toList = none := by
  apply snprintf_overflows
  rw [take_hex]
  by_contra hshort
  exact absurd ((length_hex_le_iff (by decide)).mp (Nat.lt_succ_iff.mp (Nat.lt_of_not_le hshort)))
    (Nat.not_lt.mpr h)

/-- What a number becomes that is extended to 64 bits. -/
theorem toInt_staticDataId (classId : Int32) :
    classId.toInt = if 2 * (staticDataId classId).toNat < 2 ^ 64 then
      ((staticDataId classId).toNat : ℤ) else (staticDataId classId).toNat - 2 ^ 64 := by
  rw [← Int32.toInt_toInt64]
  exact BitVec.toInt_eq_toNat_cond _

theorem staticDataId_lt_iff (classId : Int32) :
    (staticDataId classId).toNat < 2 ^ 32 ↔ 0 ≤ classId.toInt := by
  have hid := toInt_staticDataId classId
  have hlt := classId.toInt_lt
  have hle := classId.le_toInt
  have hwide := (staticDataId classId).toNat_lt
  split at hid <;> omega

theorem toNat_staticDataId {classId : Int32} (h : 0 ≤ classId.toInt) :
    ((staticDataId classId).toNat : ℤ) = classId.toInt := by
  have hid := toInt_staticDataId classId
  have hlt := (staticDataId_lt_iff classId).mpr h
  rw [hid, if_pos (by omega)]

/-! ### Loaded tables -/

/-- A database with these objects. -/
def database (classId : α → Int32) (objects : List α) : StaticData α where
  hashtable key := objects.find? fun object =>
    numeral 16 (staticDataId (classId object)).toNat = key
  locked := false

theorem database_hashtable (classId : α → Int32) (objects : List α) (key : Text) :
    (database classId objects).hashtable key = objects.find? fun object =>
      numeral 16 (staticDataId (classId object)).toNat = key := rfl

theorem key_eq_iff {classId classId' : Int32} :
    numeral 16 (staticDataId classId).toNat = numeral 16 (staticDataId classId').toNat ↔
      classId = classId' := by
  rw [← not_iff_not, ← ne_eq, hex_ne_iff, not_iff_not]
  constructor
  · intro h
    rw [← Int32.toInt_inj, toInt_staticDataId, toInt_staticDataId, h]
  · exact congrArg staticDataId

theorem zhashInsert_database {classId : α → Int32} {objects : List α} {object : α} {key : Text}
    (hkey : cString key = numeral 16 (staticDataId (classId object)).toNat) :
    zhashInsert (database classId objects).hashtable key object =
      if ∀ other ∈ objects, classId other ≠ classId object then
        some (database classId (objects ++ [object])).hashtable else none := by
  have hfound : (zhashLookup (database classId objects).hashtable key).isSome ↔
      ¬ ∀ other ∈ objects, classId other ≠ classId object := by
    rw [zhashLookup, hkey, database_hashtable, List.find?_isSome]
    simp [key_eq_iff]
  rw [zhashInsert]
  by_cases hfresh : ∀ other ∈ objects, classId other ≠ classId object
  · rw [if_neg (fun h => hfound.mp h hfresh), if_pos hfresh, hkey]
    congr 1
    funext name
    rw [database_hashtable, List.find?_append]
    by_cases hname : numeral 16 (staticDataId (classId object)).toNat = name
    · subst hname
      rw [Function.update_self, List.find?_eq_none.mpr, Option.none_or]
      · simp
      · simpa [key_eq_iff] using hfresh
    · rw [Function.update_of_ne (Ne.symm hname), database_hashtable]
      simp [hname]
  · rw [if_pos (hfound.mpr hfresh), if_neg hfresh]

/-- An object is added when its number is not negative and not taken. -/
theorem staticDataAdd_eq_true {stack : Stack} {classId : α → Int32} {objects : List α}
    {object : α} {db : StaticData α} :
    staticDataAdd stack (database classId objects) (staticDataId (classId object)) object =
        some (true, db) ↔
      (0 ≤ (classId object).toInt ∧ ∀ other ∈ objects, classId other ≠ classId object) ∧
        db = database classId (objects ++ [object]) := by
  rw [← staticDataId_lt_iff]
  rcases Nat.lt_or_ge (staticDataId (classId object)).toNat (2 ^ 32) with hlt | hge
  · obtain ⟨key, hprinted, hkey⟩ := staticDataGenKey_of_lt hlt (stack _)
    have hadd : staticDataAdd stack (database classId objects) (staticDataId (classId object))
        object = some (if ∀ other ∈ objects, classId other ≠ classId object then
          (true, database classId (objects ++ [object])) else (false, database classId objects)) := by
      rw [staticDataAdd, if_neg (by simp [database]), hprinted, Option.map_some,
        zhashInsert_database hkey]
      by_cases hfresh : ∀ other ∈ objects, classId other ≠ classId object
      · rw [if_pos hfresh, if_pos hfresh]
        rfl
      · rw [if_neg hfresh, if_neg hfresh]
    rw [hadd, Option.some_inj]
    by_cases hfresh : ∀ other ∈ objects, classId other ≠ classId object
    · rw [if_pos hfresh, Prod.mk.injEq, and_iff_right rfl, and_iff_right ⟨hlt, hfresh⟩]
      exact eq_comm
    · rw [if_neg hfresh]
      exact ⟨fun h => (Bool.false_ne_true (Prod.mk.inj h).1).elim, fun h => (hfresh h.1.2).elim⟩
  · rw [staticDataAdd, if_neg (by simp [database]), staticDataGenKey_of_le hge]
    exact ⟨fun h => (Option.some_ne_none _ h.symm).elim, fun h => (Nat.not_lt.mpr hge h.1.1).elim⟩

/-- The numbers of the rows are not negative and distinct. -/
def Loadable (classId : α → Int32) (objects : List α) : Prop :=
  (∀ object ∈ objects, 0 ≤ (classId object).toInt) ∧ (objects.map classId).Nodup

theorem loadable_concat {classId : α → Int32} {objects : List α} {object : α} :
    Loadable classId (objects ++ [object]) ↔ Loadable classId objects ∧
      0 ≤ (classId object).toInt ∧ ∀ other ∈ objects, classId other ≠ classId object := by
  rw [Loadable, Loadable, List.map_append, List.map_singleton, List.nodup_append]
  simp only [List.mem_append, List.mem_singleton, List.mem_map, List.nodup_singleton]
  constructor
  · rintro ⟨hpositive, hnodup, -, hapart⟩
    exact ⟨⟨fun other hother => hpositive other (.inl hother), hnodup⟩, hpositive object (.inr rfl),
      fun other hother => hapart _ ⟨other, hother, rfl⟩ _ rfl⟩
  · rintro ⟨⟨hpositive, hnodup⟩, hobject, hapart⟩
    refine ⟨?_, hnodup, trivial, ?_⟩
    · rintro other (hother | rfl)
      · exact hpositive other hother
      · exact hobject
    · rintro _ ⟨other, hother, rfl⟩ _ rfl
      exact hapart other hother

theorem loadable_append {classId : α → Int32} {objects objects' : List α}
    (h : Loadable classId (objects ++ objects')) : Loadable classId objects := by
  refine ⟨fun object hobject => h.1 object (List.mem_append_left _ hobject), ?_⟩
  have hnodup := h.2
  rw [List.map_append] at hnodup
  exact (List.nodup_append.mp hnodup).1

/-- The loop over the rows, from a database of those in front. -/
theorem forEach_add_eq_true {stack : Stack} {init : ρ → α} {classId : α → Int32} {rows : List ρ}
    {objects : List α} {db : StaticData α} (hobjects : Loadable classId objects) :
    forEach (fun row db => staticDataAdd stack db (staticDataId (classId (init row))) (init row))
        rows (database classId objects) = some (true, db) ↔
      Loadable classId (objects ++ rows.map init) ∧
        db = database classId (objects ++ rows.map init) := by
  induction rows generalizing objects with
  | nil => simp [forEach, hobjects, eq_comm]
  | cons row rows ih =>
    have hsplit : objects ++ (row :: rows).map init = objects ++ [init row] ++ rows.map init := by
      simp
    rw [forEach_cons_eq_true, hsplit]
    constructor
    · rintro ⟨next, hadd, hrest⟩
      obtain ⟨hnew, rfl⟩ := staticDataAdd_eq_true.mp hadd
      exact (ih (loadable_concat.mpr ⟨hobjects, hnew⟩)).mp hrest
    · rintro ⟨hloadable, hdb⟩
      have hfront := loadable_append hloadable
      exact ⟨_, staticDataAdd_eq_true.mpr ⟨(loadable_concat.mp hfront).2, rfl⟩,
        (ih hfront).mpr ⟨hloadable, hdb⟩⟩

theorem buildDb_eq_some {stack : Stack} {init : ρ → α} {classId : α → Int32}
    {answer : Option (List ρ)} {db : StaticData α} :
    buildDb stack init classId answer = some (some db) ↔ ∃ rows, answer = some rows ∧
      Loadable classId (rows.map init) ∧ db = database classId (rows.map init) := by
  cases answer with
  | none => simp [buildDb]
  | some rows =>
    have hempty : Loadable classId ([] : List α) := ⟨by simp, List.nodup_nil⟩
    have hloop := @forEach_add_eq_true _ _ stack init classId rows [] db hempty
    rw [List.nil_append] at hloop
    change (forEach _ rows (database classId [])).map _ = _ ↔ _
    rw [Option.map_eq_some_iff]
    simp only [Option.some_inj, exists_eq_left', ← hloop]
    constructor
    · rintro ⟨⟨added, final⟩, hrun, hfinal⟩
      cases added with
      | false => cases hfinal
      | true =>
        cases hfinal
        exact hrun
    · exact fun hrun => ⟨_, hrun, rfl⟩

/-- In a loaded table that is locked, a number has the row that has it. -/
theorem staticDataGet_database (stack : Stack) {classId : α → Int32} {objects : List α}
    (h : Loadable classId objects) (id : UInt32) :
    staticDataGet stack (staticDataLock (database classId objects)) id.toUInt64 =
      some (objects.find? fun object => (classId object).toInt = id.toNat) := by
  have hid : id.toUInt64.toNat = id.toNat := UInt32.toNat_toUInt64 id
  have hlt : id.toUInt64.toNat < 2 ^ 32 := hid ▸ id.toNat_lt
  obtain ⟨key, hprinted, hkey⟩ := staticDataGenKey_of_lt hlt (stack _)
  rw [staticDataGet, staticDataLock, if_pos rfl, hprinted, Option.map_some, zhashLookup, hkey]
  congr 1
  rw [database_hashtable]
  apply List.find?_congr
  intro object hobject
  have hnumber := toNat_staticDataId (h.1 object hobject)
  have hkeys : numeral 16 (staticDataId (classId object)).toNat ≠
      numeral 16 id.toUInt64.toNat ↔ staticDataId (classId object) ≠ id.toUInt64 := hex_ne_iff
  rw [decide_eq_decide, ← not_iff_not, ← ne_eq, hkeys, not_iff_not, ← UInt64.toNat_inj, hid]
  omega

/-! ### The start of the factory -/

/-- The row of an item among those of `items_all`. -/
def ItemServer.commonData (server : ItemServer) (id : UInt32) : Option ItemCommonData :=
  ((server.itemsAll.getD []).map itemCommonDataInit).find? fun data =>
    data.ClassID.toInt = id.toNat

def ItemServer.equipData (server : ItemServer) (id : UInt32) : Option ItemEquipData :=
  ((server.itemsEquip.getD []).map itemEquipDataInit).find? fun data =>
    data.ClassID.toInt = id.toNat

/-- What the tables say of every item. -/
def ItemServer.staticData (server : ItemServer) : ItemStaticData where
  itemType id := (server.commonData id).map ItemCommonData.ItemType
  groupName id := (server.equipData id).map ItemEquipData.GroupName

/-- Both tables are answered, and their numbers can be keys. -/
def Startable (server : ItemServer) : Prop :=
  server.connected = true ∧
    (∃ rows, server.itemsEquip = some rows ∧
      Loadable ItemEquipData.ClassID (rows.map itemEquipDataInit)) ∧
    ∃ rows, server.itemsAll = some rows ∧
      Loadable ItemCommonData.ClassID (rows.map itemCommonDataInit)

/-- The factory with these rows. -/
def loadedFactory (server : ItemServer) : ItemFactory where
  itemCommonDatabase := staticDataLock
    (database ItemCommonData.ClassID ((server.itemsAll.getD []).map itemCommonDataInit))
  itemEquipDatabase := staticDataLock
    (database ItemEquipData.ClassID ((server.itemsEquip.getD []).map itemEquipDataInit))

theorem itemFactoryStart_eq_some {stack : Stack} {server : ItemServer} {factory : ItemFactory} :
    itemFactoryStart stack server = some (some factory) ↔
      Startable server ∧ factory = loadedFactory server := by
  rw [itemFactoryStart, Startable]
  cases server.connected with
  | false => simp
  | true =>
    simp only [if_true, true_and, Option.bind_eq_some_iff]
    constructor
    · rintro ⟨_ | equip, hequip, hcommon⟩
      · cases hcommon
      obtain ⟨_ | common, hbuilt, hfactory⟩ := Option.map_eq_some_iff.mp hcommon
      · cases hfactory
      cases hfactory
      obtain ⟨rows, hrows, hloadable, rfl⟩ := buildDb_eq_some.mp hequip
      obtain ⟨rows', hrows', hloadable', rfl⟩ := buildDb_eq_some.mp hbuilt
      refine ⟨⟨⟨rows, hrows, hloadable⟩, rows', hrows', hloadable'⟩, ?_⟩
      simp [loadedFactory, hrows, hrows']
    · rintro ⟨⟨⟨rows, hrows, hloadable⟩, rows', hrows', hloadable'⟩, rfl⟩
      refine ⟨_, buildDb_eq_some.mpr ⟨rows, hrows, hloadable, rfl⟩, ?_⟩
      rw [Option.map_eq_some_iff]
      refine ⟨_, buildDb_eq_some.mpr ⟨rows', hrows', hloadable', rfl⟩, ?_⟩
      simp [loadedFactory, hrows, hrows']

theorem itemFactoryGetStaticData_loaded (stack : Stack) {server : ItemServer}
    (h : Startable server) (id : UInt32) :
    itemFactoryGetStaticData stack (loadedFactory server) id =
      some (server.commonData id, server.equipData id) := by
  obtain ⟨-, ⟨rows, hrows, hloadable⟩, rows', hrows', hloadable'⟩ := h
  have hcommon := staticDataGet_database stack hloadable' id
  have hequip := staticDataGet_database stack hloadable id
  simp only [itemFactoryGetStaticData, loadedFactory, ItemServer.commonData, ItemServer.equipData,
    hrows, hrows', Option.getD_some, hcommon, hequip, Option.bind_some, Option.map_some]

/-- The factory starts exactly when both tables are answered with distinct numbers that are not
negative, and every item then has the category that its rows say, whatever is on the stack. -/
theorem itemFactoryStart_iff (stack : Stack) (server : ItemServer) :
    ((∃ factory, itemFactoryStart stack server = some (some factory)) ↔ Startable server) ∧
    ((∃ factory, itemFactoryStart stack server = some (some factory) ∧
      ∀ stack' id, itemFactoryCategory stack' factory id =
        some (itemFactoryGetCategoryFromId server.staticData id)) ↔ Startable server) := by
  have hstarts : (∃ factory, itemFactoryStart stack server = some (some factory)) ↔
      Startable server := by
    simp [itemFactoryStart_eq_some]
  refine ⟨hstarts, fun h => hstarts.mp (h.imp fun _ => And.left), fun h => ?_⟩
  refine ⟨_, itemFactoryStart_eq_some.mpr ⟨h, rfl⟩, fun stack' id => ?_⟩
  rw [itemFactoryCategory, itemFactoryGetStaticData_loaded stack' h]
  rfl

end R1Emu.Tables
