import R1Emu.Actor.Item
import R1Emu.Lib.Transition
import R1Emu.Lib.KeyedBags

/-!
# The inventory

Items are found by uid in a hash and by category in bags, both of which hold handles:
allocated cells with a pointer to the item. Equipped items are held directly, one in each
slot. A pointer stands for one allocation: what is allocated where an item has been freed is
another item. A null pointer that is followed, a handle that is not allocated, an item that
has been freed and a slot behind the last one are faults.
-/
namespace R1Emu.Commander
open R1Emu.Actor R1Emu.Lib R1Emu.Lib.Transition

abbrev ItemPtr := ℕ
abbrev ItemHandle := ℕ

/-- `EQSLOT_COUNT`. -/
def eqSlotCount : ℕ := 20

structure Inventory (Key : Type) where
  items : Key → Option ItemHandle
  bags : ItemCategory → List ItemHandle
  equippedItems : UInt8 → Option ItemPtr

structure Memory where
  item : ItemPtr → Item
  cell : ItemHandle → Option ItemPtr
  next : ItemHandle
  destroyed : List ItemPtr

/-- An inventory and the memory it points to. -/
structure Store (Key : Type) extends Inventory Key, Memory

variable {Key : Type}

def inventoryInit : Inventory Key := ⟨fun _ => none, fun _ => [], fun _ => none⟩

/-- `zlist_remove`: the first occurrence goes, and nothing when there is none. -/
def zlistRemove (list : List ItemHandle) : Option ItemHandle → List ItemHandle
  | none => list
  | some handle => list.erase handle

/-- There is memory for the handle. -/
def itemHandleNew (self : Store Key) (item : ItemPtr) : ItemHandle × Store Key :=
  (self.next,
    { self with cell := Function.update self.cell self.next (some item), next := self.next + 1 })

/-- The fields of an item that has not been freed. -/
def liveItem (self : Store Key) (item : ItemPtr) : Option Item :=
  if item ∈ self.destroyed then none else some (self.item item)

/-- The handle and the item it holds are freed; a null handle is left alone. -/
def itemHandleDestroy (self : Store Key) : Option ItemHandle → Option (Store Key)
  | none => some self
  | some handle => do
    let item ← self.cell handle
    let _ ← liveItem self item
    return { self with
      cell := Function.update self.cell handle none
      destroyed := item :: self.destroyed }

def setSlot (self : Store Key) (item : ItemPtr) (slot : UInt8) : Store Key :=
  { self with item := Function.update self.item item { self.item item with slot := slot } }

def setEquipped (self : Store Key) (eqSlot : UInt8) (item : Option ItemPtr) : Store Key :=
  { self with equippedItems := Function.update self.equippedItems eqSlot item }

variable [DecidableEq Key] (actorGenKey : UInt64 → Key)

/-- A handle whose key is taken is not inserted (and not freed either). -/
def inventoryAddItem (self : Store Key) (itemToAdd : ItemPtr) : Option (Bool × Store Key) := do
  let item ← liveItem self itemToAdd
  let actorKey := actorGenKey item.uid
  let (itemHandle, self) := itemHandleNew self itemToAdd
  if (self.items actorKey).isSome then return (false, self)
  else
    return (true, { self with
      items := Function.update self.items actorKey (some itemHandle)
      bags := Function.update self.bags item.category (self.bags item.category ++ [itemHandle]) })

def inventoryRemoveItem (self : Store Key) (itemToRemove : ItemPtr) :
    Option (Bool × Store Key) := do
  let item ← liveItem self itemToRemove
  let actorKey := actorGenKey item.uid
  let itemHandle := self.items actorKey
  let self := { self with
    bags := Function.update self.bags item.category
      (zlistRemove (self.bags item.category) itemHandle)
    items := Function.update self.items actorKey none }
  let self ← itemHandleDestroy self itemHandle
  return (true, self)

/-- The item found, if any. -/
def inventoryGetItemByActorId (self : Store Key) (actorId : UInt64) : Option (Option ItemPtr) :=
  match self.items (actorGenKey actorId) with
  | none => some none
  | some item => (self.cell item).map some

def inventoryUnequipItem (self : Store Key) (eqSlot : UInt8) : Option (Bool × Store Key) :=
  if eqSlot.toNat < eqSlotCount then
    match self.equippedItems eqSlot with
    | none => some (false, self)
    | some itemToUnequip => do
      let (added, self) ← inventoryAddItem actorGenKey self itemToUnequip
      if added then
        return (true, setEquipped (setSlot self itemToUnequip eqSlotNoSlot) eqSlot none)
      else return (false, self)
  else none

/-- An occupied slot is freed first. The item is taken out of the inventory by the
operation that removes items. -/
def inventoryEquipItem (self : Store Key) (actorId : UInt64) (eqSlot : UInt8) :
    Option (Bool × Store Key) := do
  match ← inventoryGetItemByActorId actorGenKey self actorId with
  | none => return (false, self)
  | some itemToEquip =>
    if eqSlot.toNat < eqSlotCount then
      let (free, self) ←
        if (self.equippedItems eqSlot).isSome then inventoryUnequipItem actorGenKey self eqSlot
        else pure (true, self)
      if free then
        let self := setSlot (setEquipped self eqSlot (some itemToEquip)) itemToEquip eqSlot
        let (removed, self) ← inventoryRemoveItem actorGenKey self itemToEquip
        if removed then return (true, self) else return (false, setEquipped self eqSlot none)
      else return (false, self)
    else none

/-- The contents of the two handles change places, not the handles. -/
def inventorySwapItems (self : Store Key) (actorId1 actorId2 : UInt64) :
    Option (Bool × Store Key) := do
  let item1Handle ← self.items (actorGenKey actorId1)
  let item2Handle ← self.items (actorGenKey actorId2)
  let item1 ← self.cell item1Handle
  let item2 ← self.cell item2Handle
  if (← liveItem self item1).category ≠ (← liveItem self item2).category then return (false, self)
  else
    let tempItemHandle := item1
    let cell := Function.update self.cell item1Handle (some item2)
    return (true, { self with cell := Function.update cell item2Handle (some tempItemHandle) })

inductive Operation
  | addItem (item : ItemPtr)
  | removeItem (item : ItemPtr)
  | swapItems (actorId1 actorId2 : UInt64)
  | equipItem (actorId : UInt64) (eqSlot : UInt8)
  | unequipItem (eqSlot : UInt8)

/-- The store with what its user did: the items ever added, and those not removed since. -/
structure Ledger (Key : Type) extends Store Key where
  added : List ItemPtr
  owned : List ItemPtr

def Ledger.start (item : ItemPtr → Item) : Ledger Key where
  toInventory := inventoryInit
  item := item
  cell _ := none
  next := 0
  destroyed := []
  added := []
  owned := []

/-- One operation by the user of the inventory. -/
def perform (self : Ledger Key) : Operation → Option (Ledger Key)
  | .addItem item => do
    let (added, store) ← inventoryAddItem actorGenKey self.toStore item
    if added then
      return { self with
        toStore := store
        added := item :: self.added
        owned := item :: self.owned }
    else return { self with toStore := store }
  | .removeItem item => do
    let (_, store) ← inventoryRemoveItem actorGenKey self.toStore item
    return { self with toStore := store, owned := self.owned.filter (· != item) }
  | .swapItems actorId1 actorId2 => do
    let (_, store) ← inventorySwapItems actorGenKey self.toStore actorId1 actorId2
    return { self with toStore := store }
  | .equipItem actorId eqSlot => do
    let (_, store) ← inventoryEquipItem actorGenKey self.toStore actorId eqSlot
    return { self with toStore := store }
  | .unequipItem eqSlot => do
    let (_, store) ← inventoryUnequipItem actorGenKey self.toStore eqSlot
    return { self with toStore := store }

/-- Any sequence of operations, from an empty inventory and any items. -/
def inventorySystem : System (Ledger Key) Operation where
  init self := ∃ item, self = Ledger.start item
  step := perform actorGenKey

/-- A place where an item can be. -/
inductive Place
  | bag (category : ItemCategory)
  | slot (eqSlot : UInt8)
  deriving DecidableEq

namespace Store

/-- The items in a bag, in order. -/
def bagged (self : Store Key) (category : ItemCategory) : List ItemPtr :=
  (self.bags category).filterMap self.cell

/-- How often the item is at the place. -/
def occurrences (self : Store Key) (item : ItemPtr) : Place → ℕ
  | .bag category => (self.bagged category).count item
  | .slot eqSlot => if self.equippedItems eqSlot = some item then 1 else 0

/-- A handle in the hash holds the item. -/
def Hashed (self : Store Key) (item : ItemPtr) : Prop :=
  ∃ key handle, self.items key = some handle ∧ self.cell handle = some item

/-- No item that has been freed is found, in a bag or in a slot. -/
def Alive (self : Store Key) : Prop :=
  ∀ i ∈ self.destroyed, ¬ self.Hashed i ∧ ∀ p, self.occurrences i p = 0

end Store

end R1Emu.Commander
