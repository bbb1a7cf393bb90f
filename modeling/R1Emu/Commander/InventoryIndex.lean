import R1Emu.Commander.Inventory
import Mathlib.Data.List.Count

/-!
# The indexes of the inventory

The hash and the bags agree, and equipped items are in neither of them, as long as no two
items change places: that exchanges the contents of two handles, but the hash goes on to
list each handle under the uid of the item it held before. Nothing that has been freed can be
reached, as long as no item is equipped.
-/
namespace R1Emu.Commander
open R1Emu.Actor R1Emu.Lib R1Emu.Lib.Transition

variable {Key : Type} (actorGenKey : UInt64 → Key)

namespace Store

def indexes (self : Store Key) : KeyedBags Key ItemCategory ItemHandle := ⟨self.items, self.bags⟩

/-- The key and the category of the item that a handle holds. -/
def entry (self : Store Key) (handle : ItemHandle) : Option (Key × ItemCategory) :=
  (self.cell handle).map fun item => (actorGenKey (self.item item).uid, (self.item item).category)

/-- The item held by the handle that is found for the uid. -/
def found (self : Store Key) (actorId : UInt64) : Option ItemPtr :=
  (self.items (actorGenKey actorId)).bind self.cell

end Store

section Entries
variable {actorGenKey} {self : Store Key} {item : ItemPtr} {handle : ItemHandle}

theorem setSlot_uid (self : Store Key) (item i : ItemPtr) (slot : UInt8) :
    ((setSlot self item slot).item i).uid = (self.item i).uid := by
  by_cases h : i = item
  · subst h
    simp [setSlot]
  · simp [setSlot, h]

theorem setSlot_category (self : Store Key) (item i : ItemPtr) (slot : UInt8) :
    ((setSlot self item slot).item i).category = (self.item i).category := by
  by_cases h : i = item
  · subst h
    simp [setSlot, Item.category]
  · simp [setSlot, h]

/-- Writing an item's slot changes no entry. -/
theorem setSlot_entry (self : Store Key) (item : ItemPtr) (slot : UInt8) :
    (setSlot self item slot).entry actorGenKey = self.entry actorGenKey := by
  funext handle
  simp only [Store.entry, setSlot_uid, setSlot_category]
  rfl

theorem entry_of_cell {i : ItemPtr} (h : self.cell handle = some i) :
    self.entry actorGenKey handle =
      some (actorGenKey (self.item i).uid, (self.item i).category) := by
  rw [Store.entry, h]
  rfl

/-- A handle in the hash holds an item, and is listed under the key of its uid. -/
theorem cell_of_listed (h : self.indexes.Agree (self.entry actorGenKey)) {key : Key}
    (hkey : self.items key = some handle) :
    ∃ i, self.cell handle = some i ∧ key = actorGenKey (self.item i).uid := by
  obtain ⟨c, hc⟩ := h.index_entry key handle hkey
  obtain ⟨i, hi, he⟩ := Option.map_eq_some_iff.mp hc
  exact ⟨i, hi, (Prod.mk.inj he).1.symm⟩

/-- A handle in the hash is the one found for the uid of the item it holds. -/
theorem found_handle (h : self.indexes.Agree (self.entry actorGenKey)) {key : Key}
    (hkey : self.items key = some handle) (hcell : self.cell handle = some item) :
    key = actorGenKey (self.item item).uid := by
  obtain ⟨i, hi, he⟩ := cell_of_listed h hkey
  rwa [Option.some.inj (hcell.symm.trans hi)]

theorem found_of_cell {actorId : UInt64} (hkey : self.items (actorGenKey actorId) = some handle)
    (hcell : self.cell handle = some item) : self.found actorGenKey actorId = some item := by
  rw [Store.found, hkey]
  exact hcell

theorem hashed_iff (h : self.indexes.Agree (self.entry actorGenKey)) :
    self.Hashed item ↔ ∃ handle, self.items (actorGenKey (self.item item).uid) = some handle ∧
      self.cell handle = some item := by
  constructor
  · rintro ⟨key, handle, hkey, hcell⟩
    exact ⟨handle, found_handle h hkey hcell ▸ hkey, hcell⟩
  · rintro ⟨handle, hkey, hcell⟩
    exact ⟨_, handle, hkey, hcell⟩

/-- The hash and the bags hold the same items. -/
theorem hashed_iff_bagged (h : self.indexes.Agree (self.entry actorGenKey)) (c : ItemCategory) :
    item ∈ self.bagged c ↔ self.Hashed item ∧ (self.item item).category = c := by
  rw [hashed_iff h, Store.bagged, List.mem_filterMap]
  constructor
  · rintro ⟨handle, hmem, hcell⟩
    obtain ⟨key, hentry, hkey⟩ := (h.mem_bag c handle).mp hmem
    rw [entry_of_cell hcell] at hentry
    cases hentry
    exact ⟨⟨handle, hkey, hcell⟩, rfl⟩
  · rintro ⟨⟨handle, hkey, hcell⟩, rfl⟩
    exact ⟨handle, h.mem_of_index hkey (entry_of_cell hcell), hcell⟩

/-- An item that is found is once in the bag of its category, and in no other bag. -/
theorem occurrences_of_hashed (h : self.indexes.Agree (self.entry actorGenKey))
    (hhashed : self.Hashed item) (c : ItemCategory) :
    self.occurrences item (.bag c) = if c = (self.item item).category then 1 else 0 := by
  obtain ⟨handle, hfound, hcell⟩ := (hashed_iff h).mp hhashed
  split
  next hc =>
    subst hc
    have hmem := h.mem_of_index hfound (entry_of_cell hcell)
    -- the handle found is the only one in the bag that holds the item
    have honly : ∀ x ∈ self.bags (self.item item).category,
        (self.cell x == some item) = true ↔ (x == handle) = true := by
      intro x hx
      rw [beq_iff_eq, beq_iff_eq]
      constructor
      · exact fun hxi => h.key_injective hx hmem (entry_of_cell hxi) (entry_of_cell hcell)
      · exact fun he => he ▸ hcell
    rw [Store.occurrences, Store.bagged, List.count_filterMap, List.countP_congr honly,
      ← List.count_eq_countP]
    exact List.count_eq_one_of_mem (h.nodup _) hmem
  next hc =>
    apply List.count_eq_zero.mpr
    exact fun hmem => hc ((hashed_iff_bagged h c).mp hmem).2.symm

/-- With nothing equipped, only what has not been freed can be reached. -/
theorem alive_of_free (h : self.indexes.Agree (self.entry actorGenKey))
    (hfree : ∀ slot, self.equippedItems slot = none)
    (halive : ∀ i, self.Hashed i → i ∉ self.destroyed) : self.Alive := by
  intro i hi
  have hout : ¬ self.Hashed i := fun hin => halive i hin hi
  refine ⟨hout, fun p => ?_⟩
  cases p with
  | bag c => exact List.count_eq_zero.mpr fun hc => hout ((hashed_iff_bagged h c).mp hc).1
  | slot eqSlot => simp [Store.occurrences, hfree]

end Entries

/-- What every operation keeps: the indexes agree, all items come from the user, those found
have not been freed, and an equipped item is in one slot and not found. -/
structure Sound (s : Store Key) (added : List ItemPtr) : Prop where
  agree : s.indexes.Agree (s.entry actorGenKey)
  fresh : ∀ handle, s.next ≤ handle → s.cell handle = none
  hashed_added : ∀ i, s.Hashed i → i ∈ added
  equipped_added : ∀ slot i, s.equippedItems slot = some i → i ∈ added
  equipped_out : ∀ slot i, s.equippedItems slot = some i → ¬ s.Hashed i
  equipped_once : ∀ slot slot' i, s.equippedItems slot = some i →
    s.equippedItems slot' = some i → slot = slot'
  added_uid : ∀ i ∈ added, ∀ j ∈ added, (s.item i).uid = (s.item j).uid → i = j
  alive : ∀ i, s.Hashed i → i ∉ s.destroyed
  freed_added : ∀ i ∈ s.destroyed, i ∈ added

section Sound
variable {actorGenKey} {self : Store Key} {added : List ItemPtr} {item : ItemPtr}

theorem sound_start (item : ItemPtr → Item) :
    Sound actorGenKey (Ledger.start item : Ledger Key).toStore [] where
  agree := KeyedBags.agree_empty
  fresh _ _ := rfl
  hashed_added := by
    rintro i ⟨key, handle, hkey, -⟩
    cases hkey
  equipped_added _ _ h := nomatch h
  equipped_out _ _ h := nomatch h
  equipped_once _ _ _ h := nomatch h
  added_uid := by simp
  alive _ _ := List.not_mem_nil
  freed_added _ hi := absurd hi List.not_mem_nil

theorem Sound.setSlot (h : Sound actorGenKey self added) (item : ItemPtr) (slot : UInt8) :
    Sound actorGenKey (setSlot self item slot) added where
  agree := by
    rw [setSlot_entry]
    exact h.agree
  fresh := h.fresh
  hashed_added := h.hashed_added
  equipped_added := h.equipped_added
  equipped_out := h.equipped_out
  equipped_once := h.equipped_once
  added_uid := by
    simp only [setSlot_uid]
    exact h.added_uid
  alive := h.alive
  freed_added := h.freed_added

/-- What is found for a uid is an item with that uid. -/
theorem Sound.held (h : Sound actorGenKey self added) (hgen : Function.Injective actorGenKey)
    {uid : UInt64} {handle : ItemHandle} (hfound : self.items (actorGenKey uid) = some handle) :
    ∃ i, self.cell handle = some i ∧ (self.item i).uid = uid := by
  obtain ⟨i, hi, he⟩ := cell_of_listed h.agree hfound
  exact ⟨i, hi, hgen he.symm⟩

/-- A handle in the hash holds an item. -/
theorem Sound.cell_ne_none (h : Sound actorGenKey self added) (key : Key) (handle : ItemHandle)
    (hkey : self.items key = some handle) : self.cell handle ≠ none := by
  obtain ⟨i, hi, -⟩ := cell_of_listed h.agree hkey
  rw [hi]
  exact Option.some_ne_none i

/-- A uid that no item in the hash has is not found. -/
theorem Sound.not_found (h : Sound actorGenKey self added)
    (hgen : Function.Injective actorGenKey) {uid : UInt64}
    (hnew : ∀ j, self.Hashed j → (self.item j).uid ≠ uid) :
    self.items (actorGenKey uid) = none := by
  by_contra hne
  obtain ⟨handle, hfound⟩ := Option.ne_none_iff_exists'.mp hne
  obtain ⟨j, hj, huid⟩ := h.held hgen hfound
  exact hnew j ⟨_, handle, hfound, hj⟩ huid

/-- An item that is found is held by the handle found for its uid. -/
theorem Sound.handle_of_hashed (h : Sound actorGenKey self added) (hhashed : self.Hashed item) :
    ∃ handle, self.items (actorGenKey (self.item item).uid) = some handle ∧
      self.cell handle = some item := (hashed_iff h.agree).mp hhashed

end Sound

variable [DecidableEq Key]

/-- The handle of a new item in the hash and in the bag of its category. -/
def shelve (self : Store Key) (item : ItemPtr) : Store Key :=
  { self with
    items := Function.update self.items (actorGenKey (self.item item).uid) (some self.next)
    bags := Function.update self.bags (self.item item).category
      (self.bags (self.item item).category ++ [self.next])
    cell := Function.update self.cell self.next (some item)
    next := self.next + 1 }

/-- The item leaves its slot for the inventory. -/
def unequipped (self : Store Key) (item : ItemPtr) (eqSlot : UInt8) : Store Key :=
  setEquipped (setSlot (shelve actorGenKey self item) item eqSlotNoSlot) eqSlot none

/-- The item's handle is taken out of both, and the item it holds is destroyed. -/
def unshelve (self : Store Key) (item : ItemPtr) (handle : ItemHandle) (held : ItemPtr) :
    Store Key :=
  { self with
    items := Function.update self.items (actorGenKey (self.item item).uid) none
    bags := Function.update self.bags (self.item item).category
      ((self.bags (self.item item).category).erase handle)
    cell := Function.update self.cell handle none
    destroyed := held :: self.destroyed }

/-- The properties of the indexes: what is found for a uid has that uid; what is found is in
one bag, once, and that is its category's; what is equipped is neither found nor in a bag. -/
structure Indexed (s : Store Key) : Prop where
  lookup : ∀ uid, ∃ r, inventoryGetItemByActorId actorGenKey s uid = some r ∧
    ∀ i, r = some i → (s.item i).uid = uid
  found_iff : ∀ uid, (s.items (actorGenKey uid)).isSome ↔ ∃ i, (s.item i).uid = uid ∧
    (∀ c, s.occurrences i (.bag c) = if c = (s.item i).category then 1 else 0) ∧
    ∀ j c, j ∈ s.bagged c → (s.item j).uid = uid → j = i
  equipped : ∀ slot i, s.equippedItems slot = some i →
    ¬ s.Hashed i ∧ ∀ c, i ∉ s.bagged c

/-- How the operations are used: a new item has a new uid, a removed item is in its bag, and
the uids of items to swap are found. -/
def Permitted (self : Ledger Key) : Operation → Prop
  | .addItem item => ∀ j ∈ self.added, (self.item j).uid ≠ (self.item item).uid
  | .removeItem item => item ∈ self.toStore.bagged (self.item item).category
  | .swapItems actorId1 actorId2 =>
    self.items (actorGenKey actorId1) ≠ none ∧ self.items (actorGenKey actorId2) ≠ none
  | _ => True

/-- Two different items of one category change places. -/
def Exchanges (self : Ledger Key) : Operation → Prop
  | .swapItems actorId1 actorId2 => actorId1 ≠ actorId2 ∧
    ∃ i j, self.toStore.found actorGenKey actorId1 = some i ∧
      self.toStore.found actorGenKey actorId2 = some j ∧
      (self.item i).category = (self.item j).category
  | _ => False

/-- An item is found and equipped. -/
def Equips (self : Ledger Key) : Operation → Prop
  | .equipItem actorId _ => ∃ i, self.toStore.found actorGenKey actorId = some i
  | _ => False

/-- No two items change places, and none is equipped. -/
def Gentle (self : Ledger Key) (op : Operation) : Prop :=
  ¬ Exchanges actorGenKey self op ∧ ¬ Equips actorGenKey self op

/-- The slot, if there is one, is not behind the last one. -/
def Operation.InRange : Operation → Prop
  | .equipItem _ eqSlot | .unequipItem eqSlot => eqSlot.toNat < eqSlotCount
  | _ => True

/-- The item leaves the inventory for the slot. -/
def equipped (self : Store Key) (item : ItemPtr) (handle : ItemHandle) (eqSlot : UInt8) :
    Store Key :=
  unshelve actorGenKey (setSlot (setEquipped self eqSlot (some item)) item eqSlot) item handle item

section Operations
variable {self : Store Key} {added : List ItemPtr} {item held : ItemPtr} {handle : ItemHandle}

omit [DecidableEq Key] in
theorem liveItem_eq (halive : item ∉ self.destroyed) : liveItem self item = some (self.item item) :=
  if_neg halive

omit [DecidableEq Key] in
theorem liveItem_eq_some {i : Item} (h : liveItem self item = some i) :
    item ∉ self.destroyed ∧ self.item item = i := by
  rw [liveItem] at h
  split at h
  next => cases h
  next hlive => exact ⟨hlive, Option.some.inj h⟩

theorem inventoryAddItem_new (halive : item ∉ self.destroyed)
    (h : self.items (actorGenKey (self.item item).uid) = none) :
    inventoryAddItem actorGenKey self item = some (true, shelve actorGenKey self item) := by
  simp [inventoryAddItem, liveItem_eq halive, itemHandleNew, h, shelve]

theorem inventoryAddItem_taken (halive : item ∉ self.destroyed)
    (h : (self.items (actorGenKey (self.item item).uid)).isSome) :
    inventoryAddItem actorGenKey self item = some (false, (itemHandleNew self item).2) := by
  simp [inventoryAddItem, liveItem_eq halive, itemHandleNew, h]

/-- Only an item that has not been freed is added. -/
theorem inventoryAddItem_live {r : Bool × Store Key}
    (hrun : inventoryAddItem actorGenKey self item = some r) : item ∉ self.destroyed := by
  obtain ⟨i, hlive, -⟩ := Option.bind_eq_some_iff.mp hrun
  exact (liveItem_eq_some hlive).1

theorem inventoryRemoveItem_found (halive : item ∉ self.destroyed)
    (h : self.items (actorGenKey (self.item item).uid) = some handle)
    (hcell : self.cell handle = some held) (hheld : held ∉ self.destroyed) :
    inventoryRemoveItem actorGenKey self item =
      some (true, unshelve actorGenKey self item handle held) := by
  simp [inventoryRemoveItem, itemHandleDestroy, zlistRemove, liveItem, halive, hheld, h, hcell,
    unshelve]

theorem inventoryRemoveItem_missing (halive : item ∉ self.destroyed)
    (h : self.items (actorGenKey (self.item item).uid) = none) :
    inventoryRemoveItem actorGenKey self item = some (true, self) := by
  have hitems : Function.update self.items (actorGenKey (self.item item).uid) none = self.items := by
    rw [← h, Function.update_eq_self]
  simp [inventoryRemoveItem, itemHandleDestroy, zlistRemove, liveItem_eq halive, h, hitems]

/-- Only an item that has not been freed is removed. -/
theorem inventoryRemoveItem_live {r : Bool × Store Key}
    (hrun : inventoryRemoveItem actorGenKey self item = some r) : item ∉ self.destroyed := by
  obtain ⟨i, hlive, -⟩ := Option.bind_eq_some_iff.mp hrun
  exact (liveItem_eq_some hlive).1

theorem inventoryUnequipItem_free {eqSlot : UInt8} (hslot : eqSlot.toNat < eqSlotCount)
    (h : self.equippedItems eqSlot = none) :
    inventoryUnequipItem actorGenKey self eqSlot = some (false, self) := by
  simp [inventoryUnequipItem, hslot, h]

theorem inventoryUnequipItem_occupied {eqSlot : UInt8} (hslot : eqSlot.toNat < eqSlotCount)
    (h : self.equippedItems eqSlot = some item) (halive : item ∉ self.destroyed)
    (hnew : self.items (actorGenKey (self.item item).uid) = none) :
    inventoryUnequipItem actorGenKey self eqSlot =
      some (true, unequipped actorGenKey self item eqSlot) := by
  simp [inventoryUnequipItem, hslot, h, inventoryAddItem_new actorGenKey halive hnew, unequipped]

/-- Only an item that has not been freed is unequipped. -/
theorem inventoryUnequipItem_live {eqSlot : UInt8} {r : Bool × Store Key}
    (h : self.equippedItems eqSlot = some item)
    (hrun : inventoryUnequipItem actorGenKey self eqSlot = some r) : item ∉ self.destroyed := by
  rw [inventoryUnequipItem] at hrun
  split at hrun
  · rw [h] at hrun
    obtain ⟨added, hadd, -⟩ := Option.bind_eq_some_iff.mp hrun
    exact inventoryAddItem_live actorGenKey hadd
  · cases hrun

theorem inventoryEquipItem_missing {actorId : UInt64} {eqSlot : UInt8}
    (h : self.items (actorGenKey actorId) = none) :
    inventoryEquipItem actorGenKey self actorId eqSlot = some (false, self) := by
  simp [inventoryEquipItem, inventoryGetItemByActorId, h]

theorem inventoryEquipItem_free {actorId : UInt64} {eqSlot : UInt8}
    (hslot : eqSlot.toNat < eqSlotCount) (hfree : self.equippedItems eqSlot = none)
    (hkey : actorGenKey actorId = actorGenKey (self.item item).uid)
    (hfound : self.items (actorGenKey (self.item item).uid) = some handle)
    (hcell : self.cell handle = some item) (halive : item ∉ self.destroyed) :
    inventoryEquipItem actorGenKey self actorId eqSlot =
      some (true, equipped actorGenKey self item handle eqSlot) := by
  have hremove : inventoryRemoveItem actorGenKey
      (setSlot (setEquipped self eqSlot (some item)) item eqSlot) item =
        some (true, equipped actorGenKey self item handle eqSlot) := by
    apply inventoryRemoveItem_found
    · exact halive
    · rw [setSlot_uid]
      exact hfound
    · exact hcell
    · exact halive
  simp [inventoryEquipItem, inventoryGetItemByActorId, hkey, hfound, hcell, hslot, hfree, hremove]

theorem inventoryEquipItem_occupied {eqSlot : UInt8} {old : ItemPtr}
    (hslot : eqSlot.toNat < eqSlotCount) (hold : self.equippedItems eqSlot = some old)
    (hworn : old ∉ self.destroyed) (hnew : self.items (actorGenKey (self.item old).uid) = none)
    (hfresh : self.cell self.next = none)
    (hfound : self.items (actorGenKey (self.item item).uid) = some handle)
    (hcell : self.cell handle = some item) (halive : item ∉ self.destroyed) :
    (unequipped actorGenKey self old eqSlot).items (actorGenKey
        ((unequipped actorGenKey self old eqSlot).item item).uid) = some handle ∧
      (unequipped actorGenKey self old eqSlot).cell handle = some item ∧
      inventoryEquipItem actorGenKey self (self.item item).uid eqSlot =
        some (true, equipped actorGenKey (unequipped actorGenKey self old eqSlot) item handle
          eqSlot) := by
  have hkey : actorGenKey (self.item item).uid ≠ actorGenKey (self.item old).uid := fun he => by
    rw [he, hnew] at hfound
    cases hfound
  have hhandle : handle ≠ self.next := fun he => by
    rw [he, hfresh] at hcell
    cases hcell
  have huid : ((unequipped actorGenKey self old eqSlot).item item).uid = (self.item item).uid :=
    setSlot_uid _ old item eqSlotNoSlot
  have hfound' : (unequipped actorGenKey self old eqSlot).items
      (actorGenKey (self.item item).uid) = some handle := by
    simp [unequipped, setEquipped, setSlot, shelve, hkey, hfound]
  have hcell' : (unequipped actorGenKey self old eqSlot).cell handle = some item := by
    simp [unequipped, setEquipped, setSlot, shelve, hhandle, hcell]
  have hremove : inventoryRemoveItem actorGenKey (setSlot (setEquipped
      (unequipped actorGenKey self old eqSlot) eqSlot (some item)) item eqSlot) item =
        some (true, equipped actorGenKey (unequipped actorGenKey self old eqSlot) item handle
          eqSlot) := by
    apply inventoryRemoveItem_found
    · exact halive
    · rw [setSlot_uid]
      exact huid ▸ hfound'
    · exact hcell'
    · exact halive
  refine ⟨huid ▸ hfound', hcell', ?_⟩
  simp [inventoryEquipItem, inventoryGetItemByActorId, hfound, hcell, hslot, hold,
    inventoryUnequipItem_occupied actorGenKey hslot hold hworn hnew, hremove]

/-- With a slot that is occupied, an item is equipped only if that can be unequipped. -/
theorem inventoryEquipItem_unequips {actorId : UInt64} {eqSlot : UInt8} {r : Bool × Store Key}
    (hfound : self.items (actorGenKey actorId) = some handle)
    (hcell : self.cell handle = some item) (hslot : eqSlot.toNat < eqSlotCount)
    (hold : (self.equippedItems eqSlot).isSome)
    (hrun : inventoryEquipItem actorGenKey self actorId eqSlot = some r) :
    ∃ r', inventoryUnequipItem actorGenKey self eqSlot = some r' := by
  simp only [inventoryEquipItem, inventoryGetItemByActorId, hfound, hcell, Option.map_some,
    Option.bind_eq_bind, Option.bind_some, hslot, if_true, hold] at hrun
  obtain ⟨r', hunequip, -⟩ := Option.bind_eq_some_iff.mp hrun
  exact ⟨r', hunequip⟩

/-! Only equipping and unequipping write the slots. -/

theorem inventoryAddItem_slots {r : Bool × Store Key}
    (hrun : inventoryAddItem actorGenKey self item = some r) :
    r.2.equippedItems = self.equippedItems := by
  obtain ⟨i, -, hrun⟩ := Option.bind_eq_some_iff.mp hrun
  dsimp only at hrun
  split at hrun <;> cases hrun <;> rfl

theorem inventoryRemoveItem_slots {r : Bool × Store Key}
    (hrun : inventoryRemoveItem actorGenKey self item = some r) :
    r.2.equippedItems = self.equippedItems := by
  obtain ⟨i, -, hrun⟩ := Option.bind_eq_some_iff.mp hrun
  obtain ⟨store, hdestroy, hrun⟩ := Option.bind_eq_some_iff.mp hrun
  cases hrun
  cases hkey : self.items (actorGenKey i.uid) with
  | none =>
    rw [hkey] at hdestroy
    cases hdestroy
    rfl
  | some handle =>
    rw [hkey] at hdestroy
    obtain ⟨held, -, hdestroy⟩ := Option.bind_eq_some_iff.mp hdestroy
    obtain ⟨_, -, hdestroy⟩ := Option.bind_eq_some_iff.mp hdestroy
    cases hdestroy
    rfl

omit [DecidableEq Key] in
theorem inventorySwapItems_slots {actorId1 actorId2 : UInt64} {r : Bool × Store Key}
    (hrun : inventorySwapItems actorGenKey self actorId1 actorId2 = some r) :
    r.2.equippedItems = self.equippedItems := by
  simp only [inventorySwapItems, Option.bind_eq_bind, Option.bind_eq_some_iff] at hrun
  obtain ⟨_, -, _, -, _, -, _, -, _, -, _, -, hrun⟩ := hrun
  split at hrun <;> cases hrun <;> rfl

end Operations

section Shelves
variable {actorGenKey} {self : Store Key} {item held : ItemPtr} {handle : ItemHandle}

theorem shelve_agree (h : self.indexes.Agree (self.entry actorGenKey))
    (hfresh : self.cell self.next = none)
    (hnew : self.items (actorGenKey (self.item item).uid) = none) :
    (shelve actorGenKey self item).indexes.Agree
      ((shelve actorGenKey self item).entry actorGenKey) := by
  apply h.insert (t := self.indexes) hnew
  · rw [Store.entry, hfresh]
    rfl
  · simp [Store.entry, shelve]
  · intro handle hne
    simp [Store.entry, shelve, hne]

theorem unshelve_agree (h : self.indexes.Agree (self.entry actorGenKey))
    (hfound : self.items (actorGenKey (self.item item).uid) = some handle)
    (hcell : self.cell handle = some item) :
    (unshelve actorGenKey self item handle item).indexes.Agree
      ((unshelve actorGenKey self item handle item).entry actorGenKey) := by
  apply h.erase (t := self.indexes) hfound (entry_of_cell hcell)
  intro handle' hne
  simp [Store.entry, unshelve, hne]

theorem shelve_hashed (hfresh : self.cell self.next = none)
    (hnew : self.items (actorGenKey (self.item item).uid) = none) (i : ItemPtr) :
    (shelve actorGenKey self item).Hashed i ↔ self.Hashed i ∨ i = item := by
  constructor
  · rintro ⟨key, handle, hkey, hcell⟩
    by_cases hk : key = actorGenKey (self.item item).uid
    · subst hk
      simp only [shelve, Function.update_self, Option.some.injEq] at hkey hcell
      rw [← hkey, Function.update_self] at hcell
      exact .inr (Option.some.inj hcell).symm
    · simp only [shelve, Function.update_of_ne hk] at hkey hcell
      by_cases hh : handle = self.next
      · rw [hh, Function.update_self] at hcell
        exact .inr (Option.some.inj hcell).symm
      · rw [Function.update_of_ne hh] at hcell
        exact .inl ⟨key, handle, hkey, hcell⟩
  · rintro (⟨key, handle, hkey, hcell⟩ | rfl)
    · have hk : key ≠ actorGenKey (self.item item).uid := fun he => by
        rw [he, hnew] at hkey
        cases hkey
      have hh : handle ≠ self.next := fun he => by
        rw [he, hfresh] at hcell
        cases hcell
      exact ⟨key, handle, by simp [shelve, hk, hkey], by simp [shelve, hh, hcell]⟩
    · exact ⟨actorGenKey (self.item i).uid, self.next, by simp [shelve]⟩

variable (held) in
theorem unshelve_hashed (h : self.indexes.Agree (self.entry actorGenKey))
    (hfound : self.items (actorGenKey (self.item item).uid) = some handle)
    (hcell : self.cell handle = some item) (i : ItemPtr) :
    (unshelve actorGenKey self item handle held).Hashed i ↔ self.Hashed i ∧ i ≠ item := by
  constructor
  · rintro ⟨key, handle', hkey, hcell'⟩
    have hk : key ≠ actorGenKey (self.item item).uid := fun he => by
      simp [unshelve, he] at hkey
    have hh : handle' ≠ handle := fun he => by
      simp [unshelve, he] at hcell'
    simp only [unshelve, Function.update_of_ne hk, Function.update_of_ne hh] at hkey hcell'
    refine ⟨⟨key, handle', hkey, hcell'⟩, fun he => hk ?_⟩
    rw [found_handle h hkey hcell', he]
  · rintro ⟨⟨key, handle', hkey, hcell'⟩, hne⟩
    have hh : handle' ≠ handle := fun he => by
      rw [he, hcell] at hcell'
      exact hne (Option.some.inj hcell').symm
    have hk : key ≠ actorGenKey (self.item item).uid := fun he => by
      rw [he, hfound] at hkey
      exact hh (Option.some.inj hkey).symm
    exact ⟨key, handle', by simp [unshelve, hk, hkey], by simp [unshelve, hh, hcell']⟩

variable (actorGenKey) in
/-- No handle behind the next one is allocated. -/
theorem shelve_fresh (h : ∀ handle, self.next ≤ handle → self.cell handle = none) :
    ∀ handle, (shelve actorGenKey self item).next ≤ handle →
      (shelve actorGenKey self item).cell handle = none := by
  intro handle hle
  have hne : handle ≠ self.next := by
    rintro rfl
    exact absurd hle (Nat.not_succ_le_self _)
  have hcell : (shelve actorGenKey self item).cell handle = self.cell handle := by
    simp [shelve, hne]
  rw [hcell]
  exact h handle ((Nat.le_succ _).trans hle)

theorem unshelve_fresh (h : ∀ handle, self.next ≤ handle → self.cell handle = none) :
    ∀ handle', (unshelve actorGenKey self item handle held).next ≤ handle' →
      (unshelve actorGenKey self item handle held).cell handle' = none := by
  intro handle' hle
  by_cases hh : handle' = handle
  · simp [unshelve, hh]
  · have hcell : (unshelve actorGenKey self item handle held).cell handle' =
        self.cell handle' := by simp [unshelve, hh]
    rw [hcell]
    exact h handle' hle

end Shelves

section Moves
variable {actorGenKey} {self : Store Key} {added : List ItemPtr} {item : ItemPtr}
  {handle : ItemHandle}

/-- An item with a new uid is added. -/
theorem Sound.add (h : Sound actorGenKey self added) (hgen : Function.Injective actorGenKey)
    (hnew : ∀ j ∈ added, (self.item j).uid ≠ (self.item item).uid) :
    self.items (actorGenKey (self.item item).uid) = none ∧
      Sound actorGenKey (shelve actorGenKey self item) (item :: added) := by
  have hitems : self.items (actorGenKey (self.item item).uid) = none :=
    h.not_found hgen fun j hj => hnew j (h.hashed_added j hj)
  have hhashed := shelve_hashed (h.fresh _ (le_refl _)) hitems
  refine ⟨hitems, shelve_agree h.agree (h.fresh _ (le_refl _)) hitems, shelve_fresh actorGenKey h.fresh,
    ?_, ?_, ?_, h.equipped_once, ?_, ?_, ?_⟩
  · intro i hi
    rcases (hhashed i).mp hi with hi | rfl
    · exact List.mem_cons_of_mem _ (h.hashed_added i hi)
    · exact List.mem_cons_self ..
  · exact fun slot i hi => List.mem_cons_of_mem _ (h.equipped_added slot i hi)
  · intro slot i hi hout
    rcases (hhashed i).mp hout with hout | rfl
    · exact h.equipped_out slot i hi hout
    · exact hnew i (h.equipped_added slot i hi) rfl
  · intro i hi j hj huid
    rcases List.mem_cons.mp hi with hi | hi <;> rcases List.mem_cons.mp hj with hj | hj
    · rw [hi, hj]
    · exact absurd (hi ▸ huid.symm) (hnew j hj)
    · exact absurd (hj ▸ huid) (hnew i hi)
    · exact h.added_uid i hi j hj huid
  · intro i hi hfreed
    rcases (hhashed i).mp hi with hi | rfl
    · exact h.alive i hi hfreed
    · exact hnew i (h.freed_added i hfreed) rfl
  · exact fun i hi => List.mem_cons_of_mem _ (h.freed_added i hi)

/-- An item that is found is removed. -/
theorem Sound.remove (h : Sound actorGenKey self added)
    (hfound : self.items (actorGenKey (self.item item).uid) = some handle)
    (hcell : self.cell handle = some item) :
    Sound actorGenKey (unshelve actorGenKey self item handle item) added := by
  have hhashed := unshelve_hashed item h.agree hfound hcell
  refine ⟨unshelve_agree h.agree hfound hcell, unshelve_fresh h.fresh, ?_, h.equipped_added, ?_,
    h.equipped_once, h.added_uid, ?_, ?_⟩
  · exact fun i hi => h.hashed_added i ((hhashed i).mp hi).1
  · exact fun slot i hi hout => h.equipped_out slot i hi ((hhashed i).mp hout).1
  · intro i hi hfreed
    obtain ⟨hi, hne⟩ := (hhashed i).mp hi
    rcases List.mem_cons.mp hfreed with he | hfreed
    · exact hne he
    · exact h.alive i hi hfreed
  · intro i hi
    rcases List.mem_cons.mp hi with rfl | hi
    · exact h.hashed_added i ⟨_, handle, hfound, hcell⟩
    · exact h.freed_added i hi

/-- An equipped item goes back to the inventory. -/
theorem Sound.unequip (h : Sound actorGenKey self added) (hgen : Function.Injective actorGenKey)
    {eqSlot : UInt8} (heq : self.equippedItems eqSlot = some item)
    (halive : item ∉ self.destroyed) :
    self.items (actorGenKey (self.item item).uid) = none ∧
      Sound actorGenKey (unequipped actorGenKey self item eqSlot) added := by
  have hmem := h.equipped_added eqSlot item heq
  have hitems : self.items (actorGenKey (self.item item).uid) = none := by
    apply h.not_found hgen
    intro j hj huid
    exact h.equipped_out eqSlot item heq
      (h.added_uid j (h.hashed_added j hj) item hmem huid ▸ hj)
  have hhashed := shelve_hashed (h.fresh _ (le_refl _)) hitems
  have hslot : ∀ slot i, (setEquipped (shelve actorGenKey self item) eqSlot none).equippedItems
      slot = some i → self.equippedItems slot = some i ∧ slot ≠ eqSlot := by
    intro slot i hi
    by_cases hs : slot = eqSlot
    · simp [setEquipped, hs] at hi
    · simp only [setEquipped, Function.update_of_ne hs] at hi
      exact ⟨hi, hs⟩
  refine ⟨hitems, ?_⟩
  -- the slot of the item is written last
  have hsound : Sound actorGenKey (setEquipped (shelve actorGenKey self item) eqSlot none) added := by
    refine ⟨shelve_agree h.agree (h.fresh _ (le_refl _)) hitems, shelve_fresh actorGenKey h.fresh,
      ?_, ?_, ?_, ?_, h.added_uid, ?_, h.freed_added⟩
    · intro i hi
      rcases (hhashed i).mp hi with hi | rfl
      · exact h.hashed_added i hi
      · exact hmem
    · exact fun slot i hi => h.equipped_added slot i (hslot slot i hi).1
    · intro slot i hi hout
      obtain ⟨hi, hne⟩ := hslot slot i hi
      rcases (hhashed i).mp hout with hout | he
      · exact h.equipped_out slot i hi hout
      · exact hne (h.equipped_once slot eqSlot i hi (he ▸ heq))
    · exact fun slot slot' i hi hi' =>
        h.equipped_once slot slot' i (hslot slot i hi).1 (hslot slot' i hi').1
    · intro i hi
      rcases (hhashed i).mp hi with hi | rfl
      · exact h.alive i hi
      · exact halive
  exact hsound.setSlot item eqSlotNoSlot

/-- An item that is found goes to a slot. -/
theorem Sound.equip (h : Sound actorGenKey self added) (eqSlot : UInt8)
    (hfound : self.items (actorGenKey (self.item item).uid) = some handle)
    (hcell : self.cell handle = some item) :
    Sound actorGenKey (equipped actorGenKey self item handle eqSlot) added := by
  have hhashed := unshelve_hashed item h.agree hfound hcell
  have hin : self.Hashed item := ⟨_, handle, hfound, hcell⟩
  have hslot : ∀ slot i, (setEquipped self eqSlot (some item)).equippedItems slot = some i →
      slot = eqSlot ∧ i = item ∨ slot ≠ eqSlot ∧ self.equippedItems slot = some i := by
    intro slot i hi
    by_cases hs : slot = eqSlot
    · simp only [setEquipped, hs, Function.update_self, Option.some.injEq] at hi
      exact .inl ⟨hs, hi.symm⟩
    · simp only [setEquipped, Function.update_of_ne hs] at hi
      exact .inr ⟨hs, hi⟩
  have hsound : Sound actorGenKey (setEquipped (unshelve actorGenKey self item handle item) eqSlot
      (some item)) added := by
    have hremove := h.remove hfound hcell
    refine ⟨hremove.agree, hremove.fresh, hremove.hashed_added, ?_, ?_, ?_, h.added_uid,
      hremove.alive, hremove.freed_added⟩
    · intro slot i hi
      rcases hslot slot i hi with ⟨-, rfl⟩ | ⟨-, hi⟩
      · exact h.hashed_added i hin
      · exact h.equipped_added slot i hi
    · intro slot i hi hout
      obtain ⟨hout, hne⟩ := (hhashed i).mp hout
      rcases hslot slot i hi with ⟨-, he⟩ | ⟨-, hi⟩
      · exact hne he
      · exact h.equipped_out slot i hi hout
    · intro slot slot' i hi hi'
      rcases hslot slot i hi with ⟨hs, he⟩ | ⟨-, hi⟩ <;>
        rcases hslot slot' i hi' with ⟨hs', he'⟩ | ⟨-, hi'⟩
      · exact hs.trans hs'.symm
      · exact absurd hin (he ▸ h.equipped_out slot' i hi')
      · exact absurd hin (he' ▸ h.equipped_out slot i hi)
      · exact h.equipped_once slot slot' i hi hi'
  have hcomm : equipped actorGenKey self item handle eqSlot = Commander.setSlot (setEquipped
      (unshelve actorGenKey self item handle item) eqSlot (some item)) item eqSlot := by
    simp only [equipped, unshelve, setSlot_uid, setSlot_category]
    rfl
  rw [hcomm]
  exact hsound.setSlot item eqSlot

omit [DecidableEq Key] in
/-- The invariant gives the properties of the indexes. -/
theorem Sound.indexed (h : Sound actorGenKey self added)
    (hgen : Function.Injective actorGenKey) : Indexed actorGenKey self := by
  constructor
  · intro uid
    cases hfound : self.items (actorGenKey uid) with
    | none => exact ⟨none, by rw [inventoryGetItemByActorId, hfound], fun _ hi => nomatch hi⟩
    | some handle =>
      obtain ⟨i, hi, huid⟩ := h.held hgen hfound
      refine ⟨some i, by simp [inventoryGetItemByActorId, hfound, hi], ?_⟩
      intro j hj
      obtain rfl := Option.some.inj hj
      exact huid
  · intro uid
    constructor
    · intro hsome
      obtain ⟨handle, hfound⟩ := Option.isSome_iff_exists.mp hsome
      obtain ⟨i, hi, huid⟩ := h.held hgen hfound
      refine ⟨i, huid, occurrences_of_hashed h.agree ⟨_, handle, hfound, hi⟩, ?_⟩
      intro j c hj huid'
      obtain ⟨handle', hfound', hj'⟩ :=
        (hashed_iff h.agree).mp ((hashed_iff_bagged h.agree c).mp hj).1
      rw [huid', hfound] at hfound'
      rw [← Option.some.inj hfound', hi] at hj'
      exact (Option.some.inj hj').symm
    · rintro ⟨i, rfl, hocc, -⟩
      have hmem : i ∈ self.bagged (self.item i).category := by
        apply List.count_pos_iff.mp
        have hone := hocc (self.item i).category
        rw [if_pos rfl] at hone
        exact Nat.lt_of_lt_of_eq Nat.zero_lt_one hone.symm
      obtain ⟨handle, hfound, -⟩ :=
        (hashed_iff h.agree).mp ((hashed_iff_bagged h.agree _).mp hmem).1
      rw [hfound]
      rfl
  · intro slot i hi
    have hout := h.equipped_out slot i hi
    exact ⟨hout, fun c hc => hout ((hashed_iff_bagged h.agree c).mp hc).1⟩

end Moves

section Runs
variable {actorGenKey}

omit [DecidableEq Key] in
/-- A swap that exchanges nothing leaves the store as it is. -/
theorem inventorySwapItems_kept {self s' : Store Key} {r : Bool}
    {actorId1 actorId2 : UInt64} (hkept : actorId1 = actorId2 ∨
      ∀ i j, self.found actorGenKey actorId1 = some i → self.found actorGenKey actorId2 = some j →
        (self.item i).category ≠ (self.item j).category)
    (hrun : inventorySwapItems actorGenKey self actorId1 actorId2 = some (r, s')) : s' = self := by
  simp only [inventorySwapItems, Option.bind_eq_bind, Option.bind_eq_some_iff] at hrun
  obtain ⟨h1, hh1, h2, hh2, i, hi, j, hj, _, hlive1, _, hlive2, hrun⟩ := hrun
  obtain ⟨-, rfl⟩ := liveItem_eq_some hlive1
  obtain ⟨-, rfl⟩ := liveItem_eq_some hlive2
  split at hrun
  · cases hrun
    rfl
  · rename_i hcat
    rcases hkept with rfl | hkept
    · obtain rfl := Option.some.inj (hh1.symm.trans hh2)
      obtain rfl := Option.some.inj (hi.symm.trans hj)
      cases hrun
      simp [← hi]
    · exact absurd (not_not.mp hcat) (hkept i j (found_of_cell hh1 hi) (found_of_cell hh2 hj))

theorem Sound.unequipItem {self s' : Store Key} {r : Bool} {added : List ItemPtr}
    (h : Sound actorGenKey self added) (hgen : Function.Injective actorGenKey) {eqSlot : UInt8}
    (hrun : inventoryUnequipItem actorGenKey self eqSlot = some (r, s')) :
    Sound actorGenKey s' added := by
  by_cases hslot : eqSlot.toNat < eqSlotCount
  · cases hold : self.equippedItems eqSlot with
    | none =>
      rw [inventoryUnequipItem_free actorGenKey hslot hold] at hrun
      cases hrun
      exact h
    | some old =>
      have halive := inventoryUnequipItem_live actorGenKey hold hrun
      obtain ⟨hnew, hsound⟩ := h.unequip hgen hold halive
      rw [inventoryUnequipItem_occupied actorGenKey hslot hold halive hnew] at hrun
      cases hrun
      exact hsound
  · rw [inventoryUnequipItem, if_neg hslot] at hrun
    cases hrun

theorem Sound.equipItem {self s' : Store Key} {r : Bool} {added : List ItemPtr}
    (h : Sound actorGenKey self added) (hgen : Function.Injective actorGenKey) {uid : UInt64}
    {eqSlot : UInt8} (hrun : inventoryEquipItem actorGenKey self uid eqSlot = some (r, s')) :
    Sound actorGenKey s' added := by
  cases hfound : self.items (actorGenKey uid) with
  | none =>
    rw [inventoryEquipItem_missing actorGenKey hfound] at hrun
    cases hrun
    exact h
  | some handle =>
    obtain ⟨i, hcell, rfl⟩ := h.held hgen hfound
    have halive : i ∉ self.destroyed := h.alive i ⟨_, handle, hfound, hcell⟩
    by_cases hslot : eqSlot.toNat < eqSlotCount
    · cases hold : self.equippedItems eqSlot with
      | none =>
        rw [inventoryEquipItem_free actorGenKey hslot hold rfl hfound hcell halive] at hrun
        cases hrun
        exact h.equip eqSlot hfound hcell
      | some old =>
        -- the item in the slot goes back first, which leaves the handle found alone
        obtain ⟨r', hunequip⟩ := inventoryEquipItem_unequips actorGenKey hfound hcell hslot
          (by rw [hold]; rfl) hrun
        have hworn := inventoryUnequipItem_live actorGenKey hold hunequip
        obtain ⟨hnew, hsound⟩ := h.unequip hgen hold hworn
        obtain ⟨hfound', hcell', hequip⟩ := inventoryEquipItem_occupied actorGenKey hslot hold
          hworn hnew (h.fresh _ (le_refl _)) hfound hcell halive
        rw [hequip] at hrun
        cases hrun
        exact hsound.equip eqSlot hfound' hcell'
    · simp [inventoryEquipItem, inventoryGetItemByActorId, hfound, hcell, hslot] at hrun

section Ledger
variable {self s' : Ledger Key} {item held : ItemPtr} {handle : ItemHandle} {actorId : UInt64}
  {eqSlot : UInt8}

theorem perform_addItem_new (halive : item ∉ self.destroyed)
    (h : self.items (actorGenKey (self.item item).uid) = none) :
    perform actorGenKey self (.addItem item) = some { self with
      toStore := shelve actorGenKey self.toStore item
      added := item :: self.added
      owned := item :: self.owned } := by
  rw [perform, inventoryAddItem_new actorGenKey halive h]
  rfl

theorem perform_removeItem_found (halive : item ∉ self.destroyed)
    (h : self.items (actorGenKey (self.item item).uid) = some handle)
    (hcell : self.cell handle = some held) (hheld : held ∉ self.destroyed) :
    perform actorGenKey self (.removeItem item) = some { self with
      toStore := unshelve actorGenKey self.toStore item handle held
      owned := self.owned.filter (· != item) } := by
  rw [perform, inventoryRemoveItem_found actorGenKey halive h hcell hheld]
  rfl

theorem perform_removeItem_missing (halive : item ∉ self.destroyed)
    (h : self.items (actorGenKey (self.item item).uid) = none) :
    perform actorGenKey self (.removeItem item) =
      some { self with owned := self.owned.filter (· != item) } := by
  rw [perform, inventoryRemoveItem_missing actorGenKey halive h]
  rfl

theorem perform_equipItem_missing (h : self.items (actorGenKey actorId) = none) :
    perform actorGenKey self (.equipItem actorId eqSlot) = some self := by
  rw [perform, inventoryEquipItem_missing actorGenKey h]
  rfl

theorem perform_unequipItem_free (hslot : eqSlot.toNat < eqSlotCount)
    (hfree : self.equippedItems eqSlot = none) :
    perform actorGenKey self (.unequipItem eqSlot) = some self := by
  rw [perform, inventoryUnequipItem_free actorGenKey hslot hfree]
  rfl

omit [DecidableEq Key] in
/-- No uid is found where none could be equipped. -/
theorem missing_of_not_equips
    (hheld : ∀ key handle, self.items key = some handle → self.cell handle ≠ none)
    (hkept : ¬ Equips actorGenKey self (.equipItem actorId eqSlot)) :
    self.items (actorGenKey actorId) = none := by
  by_contra hne
  obtain ⟨handle, hkey⟩ := Option.ne_none_iff_exists'.mp hne
  obtain ⟨i, hi⟩ := Option.ne_none_iff_exists'.mp (hheld _ handle hkey)
  exact hkept ⟨i, found_of_cell hkey hi⟩

/-- With nothing equipped, there is nothing to unequip. -/
theorem perform_unequipItem_eq (hfree : ∀ slot, self.equippedItems slot = none)
    (hrun : perform actorGenKey self (.unequipItem eqSlot) = some s') : s' = self := by
  by_cases hslot : eqSlot.toNat < eqSlotCount
  · rw [perform_unequipItem_free hslot (hfree eqSlot)] at hrun
    exact (Option.some.inj hrun).symm
  · simp [perform, inventoryUnequipItem, hslot] at hrun

end Ledger

/-- After an exchange, the uid of the first item finds the second one. -/
theorem Sound.exchange_breaks {self s' : Ledger Key} {op : Operation}
    (h : Sound actorGenKey self.toStore self.added) (hgen : Function.Injective actorGenKey)
    (hexchanges : Exchanges actorGenKey self op) (hrun : perform actorGenKey self op = some s') :
    ¬ Indexed actorGenKey s'.toStore := by
  cases op with
  | swapItems actorId1 actorId2 =>
    obtain ⟨hne, i, j, hi, hj, hcat⟩ := hexchanges
    obtain ⟨h1, hh1, hi⟩ := Option.bind_eq_some_iff.mp hi
    obtain ⟨h2, hh2, hj⟩ := Option.bind_eq_some_iff.mp hj
    obtain ⟨_, hi', huid1⟩ := h.held hgen hh1
    obtain rfl := Option.some.inj (hi.symm.trans hi')
    obtain ⟨_, hj', huid2⟩ := h.held hgen hh2
    obtain rfl := Option.some.inj (hj.symm.trans hj')
    have hhandle : h1 ≠ h2 := by
      rintro rfl
      obtain rfl := Option.some.inj (hi.symm.trans hj)
      exact hne (huid1.symm.trans huid2)
    have halive1 := h.alive i ⟨_, h1, hh1, hi⟩
    have halive2 := h.alive j ⟨_, h2, hh2, hj⟩
    simp [perform, inventorySwapItems, liveItem, hh1, hh2, hi, hj, halive1, halive2, hcat] at hrun
    subst hrun
    intro hindexed
    obtain ⟨r, hr, huid⟩ := hindexed.lookup actorId1
    simp [inventoryGetItemByActorId, hh1, hhandle] at hr
    exact hne ((huid j hr.symm).symm.trans huid2)
  | _ => exact absurd hexchanges id

/-- Every permitted operation that exchanges no two items keeps the invariant. -/
theorem Sound.perform {self s' : Ledger Key} {op : Operation}
    (h : Sound actorGenKey self.toStore self.added) (hgen : Function.Injective actorGenKey)
    (hpermitted : Permitted actorGenKey self op) (hkept : ¬ Exchanges actorGenKey self op)
    (hrun : perform actorGenKey self op = some s') :
    Sound actorGenKey s'.toStore s'.added := by
  cases op with
  | addItem item =>
    obtain ⟨hnew, hadd⟩ := h.add hgen hpermitted
    have halive : item ∉ self.destroyed := fun hi => hpermitted item (h.freed_added item hi) rfl
    rw [perform_addItem_new halive hnew] at hrun
    cases hrun
    exact hadd
  | removeItem item =>
    obtain ⟨handle, hfound, hcell⟩ :=
      (hashed_iff h.agree).mp ((hashed_iff_bagged h.agree _).mp hpermitted).1
    have halive : item ∉ self.destroyed := h.alive item ⟨_, handle, hfound, hcell⟩
    rw [perform_removeItem_found halive hfound hcell halive] at hrun
    cases hrun
    exact h.remove hfound hcell
  | swapItems actorId1 actorId2 =>
    obtain ⟨⟨r, store⟩, hswap, hrun⟩ := Option.bind_eq_some_iff.mp hrun
    cases hrun
    have hsame : store = self.toStore := by
      apply inventorySwapItems_kept _ hswap
      by_cases hne : actorId1 = actorId2
      · exact .inl hne
      · exact .inr fun i j hi hj hcat => hkept ⟨hne, i, j, hi, hj, hcat⟩
    rw [hsame]
    exact h
  | equipItem actorId eqSlot =>
    obtain ⟨⟨r, store⟩, hequip, hrun⟩ := Option.bind_eq_some_iff.mp hrun
    cases hrun
    exact h.equipItem hgen hequip
  | unequipItem eqSlot =>
    obtain ⟨⟨r, store⟩, hunequip, hrun⟩ := Option.bind_eq_some_iff.mp hrun
    cases hrun
    exact h.unequipItem hgen hunequip

theorem sound_of_reachable (hgen : Function.Injective actorGenKey) {self : Ledger Key}
    (h : ReachableUnder (inventorySystem actorGenKey)
      (fun s op => Permitted actorGenKey s op ∧ ¬ Exchanges actorGenKey s op) self) :
    Sound actorGenKey self.toStore self.added := by
  have hinv : Inductive (inventorySystem actorGenKey)
      (fun s op => Permitted actorGenKey s op ∧ ¬ Exchanges actorGenKey s op)
      (fun s => Sound actorGenKey s.toStore s.added) := by
    constructor
    · rintro s ⟨item, rfl⟩
      exact sound_start item
    · exact fun s op s' hs hok hrun => hs.perform hgen hok.1 hok.2 hrun
  exact hinv.reachable h

/-- As long as no item is equipped, the slots stay empty. -/
theorem perform_free {self s' : Ledger Key} {op : Operation}
    (hheld : ∀ key handle, self.items key = some handle → self.cell handle ≠ none)
    (hfree : ∀ slot, self.equippedItems slot = none) (hkept : ¬ Equips actorGenKey self op)
    (hrun : perform actorGenKey self op = some s') : ∀ slot, s'.equippedItems slot = none := by
  intro slot
  rw [← hfree slot]
  cases op with
  | addItem item =>
    obtain ⟨⟨r, store⟩, hadd, hrun⟩ := Option.bind_eq_some_iff.mp hrun
    have hslots := congrFun (inventoryAddItem_slots actorGenKey hadd) slot
    dsimp only at hrun
    split at hrun <;> cases hrun <;> exact hslots
  | removeItem item =>
    obtain ⟨⟨r, store⟩, hremove, hrun⟩ := Option.bind_eq_some_iff.mp hrun
    cases hrun
    exact congrFun (inventoryRemoveItem_slots actorGenKey hremove) slot
  | swapItems actorId1 actorId2 =>
    obtain ⟨⟨r, store⟩, hswap, hrun⟩ := Option.bind_eq_some_iff.mp hrun
    cases hrun
    exact congrFun (inventorySwapItems_slots actorGenKey hswap) slot
  | equipItem actorId eqSlot =>
    rw [perform_equipItem_missing (missing_of_not_equips hheld hkept)] at hrun
    rw [Option.some.inj hrun]
  | unequipItem eqSlot => rw [perform_unequipItem_eq hfree hrun]

/-- The item that is equipped is freed, and the slot goes on pointing to it. -/
theorem not_alive_equipped (self : Store Key) (item : ItemPtr) (handle : ItemHandle)
    (eqSlot : UInt8) : ¬ (equipped actorGenKey self item handle eqSlot).Alive := by
  intro h
  have hzero := (h item (List.mem_cons_self ..)).2 (.slot eqSlot)
  simp [Store.occurrences, equipped, unshelve, setSlot, setEquipped] at hzero

/-- An item that has not been freed is equipped in an empty slot. -/
theorem equip_frees {self s' : Ledger Key} {actorId : UInt64} {eqSlot : UInt8} {i : ItemPtr}
    {handle : ItemHandle} (hfree : ∀ slot, self.equippedItems slot = none)
    (hkey : self.items (actorGenKey actorId) = some handle) (hcell : self.cell handle = some i)
    (halive : i ∉ self.destroyed)
    (huid : actorGenKey actorId = actorGenKey (self.item i).uid)
    (hrun : perform actorGenKey self (.equipItem actorId eqSlot) = some s') : ¬ s'.Alive := by
  by_cases hslot : eqSlot.toNat < eqSlotCount
  · simp only [perform, inventoryEquipItem_free actorGenKey hslot (hfree eqSlot) huid
      (huid ▸ hkey) hcell halive, Option.bind_eq_bind, Option.bind_some, Option.pure_def,
      Option.some.injEq] at hrun
    rw [← hrun]
    exact not_alive_equipped self.toStore i handle eqSlot
  · simp [perform, inventoryEquipItem, inventoryGetItemByActorId, hkey, hcell, hslot] at hrun

/-- With nothing equipped, every other operation on a slot that exists ends. -/
theorem Sound.ends {self : Ledger Key} {op : Operation}
    (h : Sound actorGenKey self.toStore self.added) (hgen : Function.Injective actorGenKey)
    (hfree : ∀ slot, self.equippedItems slot = none) (hpermitted : Permitted actorGenKey self op)
    (hkept : ¬ Equips actorGenKey self op) (hrange : op.InRange) :
    ∃ s', Commander.perform actorGenKey self op = some s' := by
  cases op with
  | addItem item =>
    have halive : item ∉ self.destroyed := fun hi => hpermitted item (h.freed_added item hi) rfl
    exact ⟨_, perform_addItem_new halive (h.add hgen hpermitted).1⟩
  | removeItem item =>
    obtain ⟨handle, hfound, hcell⟩ :=
      (hashed_iff h.agree).mp ((hashed_iff_bagged h.agree _).mp hpermitted).1
    have halive : item ∉ self.destroyed := h.alive item ⟨_, handle, hfound, hcell⟩
    exact ⟨_, perform_removeItem_found halive hfound hcell halive⟩
  | swapItems actorId1 actorId2 =>
    obtain ⟨h1, hh1⟩ := Option.ne_none_iff_exists'.mp hpermitted.1
    obtain ⟨h2, hh2⟩ := Option.ne_none_iff_exists'.mp hpermitted.2
    obtain ⟨i, hi, -⟩ := h.held hgen hh1
    obtain ⟨j, hj, -⟩ := h.held hgen hh2
    have halive1 := h.alive i ⟨_, h1, hh1, hi⟩
    have halive2 := h.alive j ⟨_, h2, hh2, hj⟩
    by_cases hcat : (self.item i).category = (self.item j).category <;>
      simp [Commander.perform, inventorySwapItems, liveItem, hh1, hh2, hi, hj, halive1, halive2,
        hcat]
  | equipItem actorId eqSlot =>
    exact ⟨_, perform_equipItem_missing (missing_of_not_equips h.cell_ne_none hkept)⟩
  | unequipItem eqSlot => exact ⟨_, perform_unequipItem_free hrange (hfree eqSlot)⟩

/-- In every run in which no two items of a category change places and no item is equipped, the
indexes are in step, what they list has not been freed, and every operation on a slot that exists
ends. The first exchange breaks the lookup by uid, and the first item that is equipped is freed
in its slot. -/
theorem inventory_indexed (hgen : Function.Injective actorGenKey) {self : Ledger Key}
    (h : ReachableUnder (inventorySystem actorGenKey)
      (fun s op => Permitted actorGenKey s op ∧ Gentle actorGenKey s op) self) :
    (Indexed actorGenKey self.toStore ∧ self.Alive) ∧
      ∀ op, Permitted actorGenKey self op →
        (Gentle actorGenKey self op → op.InRange → ∃ s', perform actorGenKey self op = some s') ∧
        ∀ s', perform actorGenKey self op = some s' →
          (Gentle actorGenKey self op ↔ Indexed actorGenKey s'.toStore ∧ s'.Alive) := by
  have hinv : Inductive (inventorySystem actorGenKey)
      (fun s op => Permitted actorGenKey s op ∧ Gentle actorGenKey s op)
      (fun s => Sound actorGenKey s.toStore s.added ∧ ∀ slot, s.equippedItems slot = none) := by
    constructor
    · rintro s ⟨item, rfl⟩
      exact ⟨sound_start item, fun _ => rfl⟩
    · rintro s op s' ⟨hs, hfree⟩ ⟨hpermitted, hexchanges, hequips⟩ hrun
      exact ⟨hs.perform hgen hpermitted hexchanges hrun,
        perform_free hs.cell_ne_none hfree hequips hrun⟩
  obtain ⟨hsound, hfree⟩ := hinv.reachable h
  refine ⟨⟨hsound.indexed hgen, alive_of_free hsound.agree hfree hsound.alive⟩, fun op hpermitted =>
    ⟨fun hgentle => hsound.ends hgen hfree hpermitted hgentle.2, fun s' hrun => ⟨?_, ?_⟩⟩⟩
  · rintro ⟨hexchanges, hequips⟩
    have hsound' := hsound.perform hgen hpermitted hexchanges hrun
    have hfree' := perform_free hsound.cell_ne_none hfree hequips hrun
    exact ⟨hsound'.indexed hgen, alive_of_free hsound'.agree hfree' hsound'.alive⟩
  · rintro ⟨hindexed, halive⟩
    refine ⟨fun hexchanges => hsound.exchange_breaks hgen hexchanges hrun hindexed, ?_⟩
    intro hequips
    cases op with
    | equipItem actorId eqSlot =>
      obtain ⟨i, hi⟩ := hequips
      obtain ⟨handle, hkey, hcell⟩ := Option.bind_eq_some_iff.mp hi
      obtain ⟨j, hj, huid⟩ := hsound.held hgen hkey
      obtain rfl := Option.some.inj (hcell.symm.trans hj)
      exact equip_frees hfree hkey hcell (hsound.alive i ⟨_, handle, hkey, hcell⟩)
        (congrArg actorGenKey huid.symm) hrun halive
    | _ => exact absurd hequips id

end Runs

section Example

/-- The key of an actor in hexadecimal digits. -/
def hexKey (uid : UInt64) : List Char := Nat.toDigits 16 uid.toNat

theorem digitChar_injective {m n : ℕ} (hm : m < 16) (hn : n < 16)
    (h : Nat.digitChar m = Nat.digitChar n) : m = n := by
  have hall : ∀ m < 16, ∀ n < 16, Nat.digitChar m = Nat.digitChar n → m = n := by decide
  exact hall m hm n hn h

theorem toDigits_injective : Function.Injective (Nat.toDigits 16) := by
  intro m
  induction m using Nat.strong_induction_on with
  | _ m ih =>
    intro n h
    rw [Nat.toDigits_eq_if (by decide), Nat.toDigits_eq_if (n := n) (by decide)] at h
    split at h <;> split at h
    next hm hn => exact digitChar_injective hm hn (List.cons.inj h).1
    next hm hn =>
      have hl := congrArg List.length h
      have hpos := Nat.length_toDigits_pos (b := 16) (n := n / 16)
      rw [List.length_append, List.length_singleton] at hl
      simp at hl
    next hm hn =>
      have hl := congrArg List.length h
      simp at hl
    next hm hn =>
      obtain ⟨hdiv, hmod⟩ := List.append_inj' h rfl
      have hdiv := ih (m / 16) (by omega) hdiv
      have hmod := digitChar_injective (Nat.mod_lt _ (by decide)) (Nat.mod_lt _ (by decide))
        (List.cons.inj hmod).1
      omega

theorem hexKey_injective : Function.Injective hexKey := fun _ _ h =>
  UInt64.toNat_inj.mp (toDigits_injective h)

/-- Consumables with the uids 1, 2, ... -/
def consumables (item : ItemPtr) : Item :=
  ⟨UInt64.ofNat (item + 1), 0, 1, eqSlotNoSlot, .consumable {}⟩

theorem inventory_indexed_two_items :
    ∃ s, (inventorySystem hexKey).run (Ledger.start consumables)
        [.addItem 0, .addItem 1, .removeItem 0] = some s ∧
      Indexed hexKey s.toStore ∧ s.Alive := by
  refine ⟨_, rfl, (inventory_indexed hexKey_injective (ReachableUnder.run
    (.init ⟨consumables, rfl⟩) [.addItem 0, .addItem 1, .removeItem 0] ?_ rfl)).1⟩
  refine ⟨⟨fun _ hj => absurd hj List.not_mem_nil, id, id⟩, fun s hs => ?_⟩
  cases hs
  refine ⟨⟨fun j hj => ?_, id, id⟩, fun s hs => ?_⟩
  · rw [List.mem_singleton.mp hj]
    decide
  cases hs
  refine ⟨⟨?_, id, id⟩, fun _ _ => trivial⟩
  show 0 ∈ List.filterMap _ _
  decide +kernel

/-- Two consumables change places: the uid of the first one finds the second one. -/
theorem inventory_indexed_swapped :
    ∃ s, ReachableUnder (inventorySystem hexKey) (Permitted hexKey) s ∧
      ¬ Indexed hexKey s.toStore := by
  refine ⟨_, ReachableUnder.run (.init ⟨consumables, rfl⟩)
    [.addItem 0, .addItem 1, .swapItems 1 2] ?_ rfl, ?_⟩
  · refine ⟨fun _ hj => absurd hj List.not_mem_nil, fun s hs => ?_⟩
    cases hs
    refine ⟨fun j hj => ?_, fun s hs => ?_⟩
    · rw [List.mem_singleton.mp hj]
      decide
    cases hs
    exact ⟨⟨by decide +kernel, by decide +kernel⟩, fun _ _ => trivial⟩
  · intro h
    obtain ⟨r, hr, huid⟩ := h.lookup 1
    have hr' := hr.symm.trans (show _ = some (some 1) by decide +kernel)
    have := huid 1 (Option.some.inj hr')
    exact absurd this (by decide +kernel)

end Example

end R1Emu.Commander
