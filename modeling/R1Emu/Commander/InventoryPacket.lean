import R1Emu.Commander.Inventory
import R1Emu.Actor.ItemRoundTrip
import R1Emu.Actor.ItemLayout

/-!
# The server packet of an inventory

An inventory is written as the number of its equipped items and those items, and the number
of the items in its hash followed by the items of its bags. The decoder frees what is
equipped, empties the hash and the bags, and puts the items it reads into slots and bags.
-/
namespace R1Emu.Commander
open R1Emu.Actor R1Emu.Lib R1Emu.Lib.Bytes R1Emu.Packet R1Emu.Packet.PacketStream

variable {Key : Type}

/-- The slots in the order of their numbers. -/
def eqSlots : List UInt8 := (List.range eqSlotCount).map UInt8.ofNat

/-- The bags in the order of their categories' codes. -/
def bagCategories : List ItemCategory :=
  [.weapon, .armor, .subweapon, .costume, .accessory, .consumable, .gem, .material, .card,
    .collection, .book, .quest, .currency]

/-- The equipped items, slot by slot. -/
def Store.equipment (self : Store Key) : List Item :=
  eqSlots.filterMap fun slot => (self.equippedItems slot).map self.item

/-- The items of the bags, one bag behind the other. A handle that is not allocated is
dereferenced all the same. -/
def Store.contents (self : Store Key) : Option (List Item) :=
  (bagCategories.flatMap self.bags).mapM fun handle => (self.cell handle).map self.item

/-- `zhash_size`: the number of keys in the hash. -/
def Store.HashSize (self : Store Key) (n : ℕ) : Prop :=
  ∃ keys : List Key, keys.Nodup ∧ (∀ key, key ∈ keys ↔ (self.items key).isSome) ∧ keys.length = n

def inventoryGetEquipmentCount (self : Store Key) : ℕ :=
  eqSlots.countP fun slot => (self.equippedItems slot).isSome

/-- The packet's counts have four bytes each. -/
def inventoryGetSPacketSize (self : Store Key) : Option ℕ := do
  let contents ← self.contents
  return 8 + (self.equipment.map itemGetSPacketSize).sum + (contents.map itemGetSPacketSize).sum

def itemsSerializeSPacket (items : List Item) (stream : PacketStream) : PacketStream :=
  items.foldl (fun stream item => itemSerializeSPacket item stream) stream

/-- The items count is the size of the hash. -/
def inventorySerializeSPacket (self : Store Key) (itemsCount : ℕ) (stream : PacketStream) :
    Option PacketStream := do
  let stream := stream.packetStreamAppend (leBytes 4 (inventoryGetEquipmentCount self))
  let stream := itemsSerializeSPacket self.equipment stream
  let stream := stream.packetStreamAppend (leBytes 4 itemsCount)
  let contents ← self.contents
  return itemsSerializeSPacket contents stream

/-- A store, and where the next item is allocated. -/
structure Arena (Key : Type) extends Store Key where
  nextItem : ItemPtr

def Arena.itemNew (self : Arena Key) (item : Item) : ItemPtr × Arena Key :=
  (self.nextItem,
    { self with
      item := Function.update self.item self.nextItem item
      nextItem := self.nextItem + 1 })

/-- The items in the slots are destroyed and the slots emptied. -/
def Arena.freeEquipment (self : Arena Key) : Arena Key :=
  { self with
    destroyed := eqSlots.filterMap self.equippedItems ++ self.destroyed
    equippedItems := fun slot =>
      if slot.toNat < eqSlotCount then none else self.equippedItems slot }

/-- `zhash_purge` and `zlist_purge`: the handles and the items stay allocated. -/
def Arena.purge (self : Arena Key) : Arena Key :=
  { self with items := fun _ => none, bags := fun _ => [] }

/-- A new handle for the item at the end of the bag of its category. The hash is left alone. -/
def Arena.appendItem (self : Arena Key) (item : Item) : Arena Key :=
  let (pointer, self) := self.itemNew item
  let (itemHandle, store) := itemHandleNew self.toStore pointer
  { self with
    toStore := { store with
      bags := Function.update store.bags item.category (store.bags item.category ++ [itemHandle]) } }

/-- A count of the packet, which is not initialised. -/
def inventoryCount : Unserialize ℕ := itemChildField 4

/-- The equipped items from the `i`-th on. Each is put into the slot it names, which is not
compared with the number of slots. -/
def equippedUnserializeSPacket (heapByte : ℕ → UInt8) :
    ℕ → ℕ → Arena Key → Unserialize (Arena Key)
  | 0, _, self => return self
  | n + 1, i, self => do
    let itemEq ← itemUnserializeSPacket
    let slot := equippedSlot (heapByte i) itemEq.slot itemEq.body
    if slot.toNat < eqSlotCount then
      let (pointer, self) := self.itemNew itemEq
      let self := { self with
        equippedItems := Function.update self.equippedItems slot (some pointer) }
      equippedUnserializeSPacket heapByte n (i + 1) self
    else fault .outOfBounds

def bagsUnserializeSPacket : ℕ → Arena Key → Unserialize (Arena Key)
  | 0, self => return self
  | n + 1, self => do
    let item ← itemUnserializeSPacket
    bagsUnserializeSPacket n (self.appendItem item)

/-- The decoder of an item always reports success, and so does this one. -/
def inventoryUnserializeSPacket (heapByte : ℕ → UInt8) (self : Arena Key) :
    Unserialize (Bool × Arena Key) := do
  let equipmentCount ← inventoryCount
  let self := self.freeEquipment
  let self ← equippedUnserializeSPacket heapByte equipmentCount 0 self
  let itemsCount ← inventoryCount
  let self := self.purge
  let self ← bagsUnserializeSPacket itemsCount self
  return (true, self)

/-- The bytes of an inventory with these equipped items, count and items. -/
def inventorySPacket (equipment : List Item) (itemsCount : ℕ) (contents : List Item) : List UInt8 :=
  leBytes 4 equipment.length ++ (equipment.flatMap itemSPacket ++
    (leBytes 4 itemsCount ++ contents.flatMap itemSPacket))

/-- An inventory serialised into a buffer of the size it announces. -/
def inventorySerialized (self : Store Key) (itemsCount : ℕ) : Option (List UInt8) := do
  let size ← inventoryGetSPacketSize self
  (inventorySerializeSPacket self itemsCount
    (packetStreamInit (List.replicate size 0) size)).map written

theorem itemsSerializeSPacket_writes (items : List Item) :
    Writes (itemsSerializeSPacket items) (items.flatMap itemSPacket) := by
  induction items with
  | nil => exact fun stream _ _ => (packetStreamAppend_nil stream).symm
  | cons item items ih => exact (itemSerializeSPacket_writes item).comp ih

theorem lt_of_mem_eqSlots {slot : UInt8} (h : slot ∈ eqSlots) : slot.toNat < eqSlotCount := by
  obtain ⟨n, hn, rfl⟩ := List.mem_map.mp h
  rw [UInt8.toNat_ofNat']
  exact (Nat.mod_le _ _).trans_lt (List.mem_range.mp hn)

theorem inventoryGetEquipmentCount_eq (self : Store Key) :
    inventoryGetEquipmentCount self = self.equipment.length := by
  rw [inventoryGetEquipmentCount, Store.equipment]
  induction eqSlots with
  | nil => rfl
  | cons slot slots ih =>
    cases hslot : self.equippedItems slot <;> simp [hslot, ih]

/-- With room for it, serialising an inventory appends its bytes. -/
theorem inventorySerializeSPacket_writes {self : Store Key} {contents : List Item}
    (hcontents : self.contents = some contents) (itemsCount : ℕ) :
    WritesSome (inventorySerializeSPacket self itemsCount)
      (inventorySPacket self.equipment itemsCount contents) := by
  have hwrites := ((((writes_append (leBytes 4 (inventoryGetEquipmentCount self))).comp
    (itemsSerializeSPacket_writes self.equipment)).comp (writes_append (leBytes 4 itemsCount))).comp
      (itemsSerializeSPacket_writes contents)).writesSome
  rw [inventoryGetEquipmentCount_eq] at hwrites
  simp only [List.append_assoc] at hwrites
  intro stream hbuffer hroom
  rw [inventorySerializeSPacket, hcontents, inventoryGetEquipmentCount_eq]
  exact hwrites stream hbuffer hroom

/-- The size an inventory announces is the size of its bytes. -/
theorem inventoryGetSPacketSize_eq {self : Store Key} {contents : List Item}
    (hcontents : self.contents = some contents) (itemsCount : ℕ) :
    inventoryGetSPacketSize self =
      some (inventorySPacket self.equipment itemsCount contents).length := by
  have hsum : ∀ items : List Item,
      (items.map itemGetSPacketSize).sum = (items.flatMap itemSPacket).length := by
    intro items
    rw [List.length_flatMap]
    exact congrArg List.sum (List.map_congr_left fun item _ => itemGetSPacketSize_eq item)
  rw [inventoryGetSPacketSize, hcontents, Option.bind_eq_bind, Option.bind_some, hsum, hsum]
  simp only [inventorySPacket, List.length_append, leBytes_length]
  exact congrArg some (by omega)

end R1Emu.Commander
