import R1Emu.Game.CommanderList
import Mathlib.Data.List.Forall2

/-!
# The equipment in a packet

Every slot has a record of its own in the packet. The record of an empty slot has the id of a
placeholder and no attributes, in both passes.
-/
namespace R1Emu.Zone
open R1Emu.Actor R1Emu.Commander R1Emu.Lib.Bytes R1Emu.Packet R1Emu.Packet.PacketStream
open R1Emu.Game (slotSize)

variable {Key : Type}

/-- The placeholders that an empty slot can have. -/
inductive EmptyItemEquipmentSlot
  | noHat
  | noOuter
  | noGloves
  | noBoots
  | noShirt
  | noRing
  | noNeck
  | noHelmet
  | noArmband
  | noWeapon
  deriving DecidableEq, Repr

def EmptyItemEquipmentSlot.code : EmptyItemEquipmentSlot → UInt32
  | .noHat => 2
  | .noOuter => 4
  | .noGloves => 6
  | .noBoots => 7
  | .noShirt => 8
  | .noRing => 9
  | .noNeck => 10
  | .noHelmet => 10000
  | .noArmband => 11000
  | .noWeapon => 9999996

/-- Behind the last slot the value is not initialised. -/
def inventoryGetEquipmentEmptySlot (slot : UInt8) : Option EmptyItemEquipmentSlot :=
  match slot.toNat with
  | 0 => some .noHat -- `EQSLOT_HAT`
  | 1 => some .noHat -- `EQSLOT_HAT_L`
  | 2 => some .noOuter -- `EQSLOT_UNKNOWN1`
  | 3 => some .noHat -- `EQSLOT_BODY_ARMOR`
  | 4 => some .noGloves -- `EQSLOT_GLOVES`
  | 5 => some .noBoots -- `EQSLOT_BOOTS`
  | 6 => some .noHelmet -- `EQSLOT_HELMET`
  | 7 => some .noArmband -- `EQSLOT_BRACELET`
  | 8 => some .noWeapon -- `EQSLOT_WEAPON`
  | 9 => some .noWeapon -- `EQSLOT_SHIELD`
  | 10 => some .noOuter -- `EQSLOT_COSTUME`
  | 11 => some .noRing -- `EQSLOT_UNKNOWN3`
  | 12 => some .noRing -- `EQSLOT_UNKNOWN4`
  | 13 => some .noOuter -- `EQSLOT_UNKNOWN5`
  | 14 => some .noShirt -- `EQSLOT_LEG_ARMOR`
  | 15 => some .noRing -- `EQSLOT_UNKNOWN6`
  | 16 => some .noRing -- `EQSLOT_UNKNOWN7`
  | 17 => some .noRing -- `EQSLOT_RING_LEFT`
  | 18 => some .noRing -- `EQSLOT_RING_RIGHT`
  | 19 => some .noNeck -- `EQSLOT_NECKLACE`
  | _ => none

/-- The fields of a slot in the packet. The unknown ones are zero. -/
structure EquippedItemCPacket where
  id : UInt32
  sizeOfAttributes : UInt16
  uid : UInt64
  eqSlot : UInt8
  properties : List UInt8

/-- `offsetof(EquippedItemCPacket, properties)`. -/
def equippedPropertiesOffset : ℕ := 24

def EquippedItemCPacket.header (self : EquippedItemCPacket) : List UInt8 :=
  leBytes 4 self.id.toNat ++ (leBytes 2 self.sizeOfAttributes.toNat ++ (leBytes 2 0 ++
    (leBytes 8 self.uid.toNat ++ (leBytes 1 self.eqSlot.toNat ++ (leBytes 1 0 ++
      (leBytes 2 0 ++ leBytes 4 0))))))

def EquippedItemCPacket.bytes (self : EquippedItemCPacket) : List UInt8 :=
  self.header ++ self.properties

/-- What is in a slot. -/
def equippedItem (self : Store Key) (eqSlot : UInt8) : Option Item :=
  (self.equippedItems eqSlot).map self.item

/-- `eqItem ? itemGetId(eqItem) : inventoryGetEquipmentEmptySlot(eqSlot)`. -/
def slotId (self : Store Key) (eqSlot : UInt8) : Option UInt32 :=
  match equippedItem self eqSlot with
  | some item => some item.id
  | none => (inventoryGetEquipmentEmptySlot eqSlot).map (·.code)

/-- `eqItem ? actorGetUId(eqItem) : 0`. -/
def slotUId (self : Store Key) (eqSlot : UInt8) : UInt64 :=
  match equippedItem self eqSlot with
  | some item => item.uid
  | none => 0

/-- `itemSerializeCPacket(&eqItem->item, &packetStream)`. -/
def serializeSlot (self : Store Key) (eqSlot : UInt8) (packetStream : PacketStream) :
    Option PacketStream :=
  (equippedItem self eqSlot).map fun item => itemSerializeCPacket item packetStream

/-- The sizes of the first pass. -/
def itemPropertiesSize (self : Store Key) (eqSlot : UInt8) : ℕ :=
  slotSize (equippedItem self eqSlot)

/-- A slot in the second pass. -/
def writeEquipped (self : Store Key) (packetStream : PacketStream) (eqSlot : UInt8) :
    Option PacketStream := do
  let attrSize := itemPropertiesSize self eqSlot
  let eqItemPkt : EquippedItemCPacket :=
    { id := ← slotId self eqSlot
      sizeOfAttributes := UInt16.ofNat attrSize
      uid := slotUId self eqSlot
      eqSlot := eqSlot
      properties := [] }
  let packetStream ← packetStream.store packetStream.position eqItemPkt.header
  let packetStream := packetStream.packetStreamAddOffset equippedPropertiesOffset
  if 0 < attrSize then serializeSlot self eqSlot packetStream else some packetStream

/-- `offsetof(struct EquipmentListPacket, items)`. -/
def equipmentItemsOffset : ℕ := 8

/-- `sizeof(EquippedItemCPacket)` of each slot. -/
def equippedSizes (self : Store Key) : List ℕ :=
  eqSlots.map fun eqSlot => equippedPropertiesOffset + itemPropertiesSize self eqSlot

/-- `sizeof(replyPacket)`. -/
def equipmentListSize (self : Store Key) : ℕ := equipmentItemsOffset + (equippedSizes self).sum

/-- The packet as it is sent, and the position that the second pass ends at. -/
def zoneBuilderItemEquipList (self : Store Key) : Option PacketStream := do
  let size := equipmentListSize self
  let packetStream := packetStreamInit (List.replicate size 0) size
  let packetStream ← packetStream.store 0 (variableSizeHeader 3202 size)
  eqSlots.foldlM (writeEquipped self) (packetStream.packetStreamAddOffset equipmentItemsOffset)

@[simp] theorem EquippedItemCPacket.header_length (self : EquippedItemCPacket) :
    self.header.length = equippedPropertiesOffset := by
  simp [EquippedItemCPacket.header, equippedPropertiesOffset]

/-- What the record of a slot says about it. -/
structure DescribesSlot (self : Store Key) (eqSlot : UInt8) (record : EquippedItemCPacket) :
    Prop where
  slot : record.eqSlot = eqSlot
  sizeOfAttributes : record.sizeOfAttributes.toNat = record.properties.length
  occupied : ∀ item, equippedItem self eqSlot = some item →
    record.id = item.id ∧ record.uid = item.uid ∧ record.properties = itemCPacket item
  empty : equippedItem self eqSlot = none → record.uid = 0 ∧ record.properties = [] ∧
    ∃ value, inventoryGetEquipmentEmptySlot eqSlot = some value ∧ record.id = value.code

/-- The packet has its own size in its header and is filled with one record for each slot, in
order, each of which starts where the sizes of the first pass put it. -/
structure EquipmentListed (self : Store Key) (packetStream : PacketStream)
    (records : List EquippedItemCPacket) : Prop where
  count : records.length = eqSlotCount
  slots : List.Forall₂ (DescribesSlot self) eqSlots records
  buffer : packetStream.buffer =
    variableSizeHeader 3202 packetStream.buffer.length ++ records.flatMap (·.bytes)
  announced : packetStream.buffer.length < 2 ^ 16
  position : packetStream.position = packetStream.buffer.length
  size : packetStream.size = packetStream.buffer.length
  starts : ∀ i record, records[i]? = some record →
    (packetStream.buffer.drop (equipmentItemsOffset + recordOffset (equippedSizes self) i)).take
      record.bytes.length = record.bytes

section Slots
variable {self : Store Key} {eqSlot : UInt8}

/-- The record that is written for a slot. -/
def equippedRecord (self : Store Key) (eqSlot : UInt8) : EquippedItemCPacket where
  id := (slotId self eqSlot).getD 0
  sizeOfAttributes := UInt16.ofNat (itemPropertiesSize self eqSlot)
  uid := slotUId self eqSlot
  eqSlot := eqSlot
  properties := ((equippedItem self eqSlot).map itemCPacket).getD []

theorem equippedRecord_properties_length (self : Store Key) (eqSlot : UInt8) :
    (equippedRecord self eqSlot).properties.length = itemPropertiesSize self eqSlot := by
  rw [equippedRecord, itemPropertiesSize]
  cases equippedItem self eqSlot with
  | none => rfl
  | some item => exact (itemGetCPacketSize_eq item).symm

@[simp] theorem equippedRecord_length (self : Store Key) (eqSlot : UInt8) :
    (equippedRecord self eqSlot).bytes.length =
      equippedPropertiesOffset + itemPropertiesSize self eqSlot := by
  rw [EquippedItemCPacket.bytes, List.length_append, EquippedItemCPacket.header_length,
    equippedRecord_properties_length]

/-- Every slot of the equipment has a placeholder. -/
theorem emptySlot_isSome (h : eqSlot ∈ eqSlots) :
    (inventoryGetEquipmentEmptySlot eqSlot).isSome = true := by
  have hall : ∀ slot ∈ eqSlots, (inventoryGetEquipmentEmptySlot slot).isSome = true := by
    decide +kernel
  exact hall eqSlot h

theorem slotId_isSome (self : Store Key) (h : eqSlot ∈ eqSlots) :
    slotId self eqSlot = some (equippedRecord self eqSlot).id := by
  rw [equippedRecord, slotId]
  cases equippedItem self eqSlot with
  | some item => rfl
  | none =>
    obtain ⟨value, hvalue⟩ := Option.isSome_iff_exists.mp (emptySlot_isSome h)
    simp [hvalue]

/-- The attributes of a slot are appended, also when it has none. -/
theorem serializeSlot_writes (self : Store Key) (eqSlot : UInt8) :
    WritesSome (fun packetStream => if 0 < itemPropertiesSize self eqSlot then
      serializeSlot self eqSlot packetStream else some packetStream)
      (equippedRecord self eqSlot).properties := by
  intro stream hbuffer hroom
  have hlength := equippedRecord_properties_length self eqSlot
  by_cases hattributes : 0 < itemPropertiesSize self eqSlot
  · simp only [if_pos hattributes]
    cases hitem : equippedItem self eqSlot with
    | none => simp [itemPropertiesSize, hitem, slotSize] at hattributes
    | some item =>
      rw [equippedRecord, hitem] at hroom
      rw [serializeSlot, equippedRecord, hitem]
      exact congrArg some (itemSerializeCPacket_writes item stream hbuffer hroom)
  · have hnil : (equippedRecord self eqSlot).properties = [] := by
      rw [← List.length_eq_zero_iff, hlength]
      omega
    simp only [if_neg hattributes, hnil, packetStreamAppend_nil]

/-- The record of a slot is appended. -/
theorem writeEquipped_writes (self : Store Key) (h : eqSlot ∈ eqSlots) :
    WritesSome (fun packetStream => writeEquipped self packetStream eqSlot)
      (equippedRecord self eqSlot).bytes := by
  intro stream hbuffer hroom
  set record := equippedRecord self eqSlot with hrecord
  have hheader : WritesSome (fun packetStream : PacketStream =>
      (packetStream.store packetStream.position record.header).map
        (·.packetStreamAddOffset equippedPropertiesOffset)) record.header := by
    intro stream hbuffer hroom
    have hstore := store_addOffset record.header hbuffer hroom
    rw [record.header_length] at hstore
    exact hstore
  have hboth := (hheader.bind (serializeSlot_writes self eqSlot)) stream hbuffer hroom
  change writeEquipped self stream eqSlot = _
  rw [writeEquipped]
  simp only [slotId_isSome self h, Option.bind_eq_bind, Option.bind_some]
  dsimp only at hboth
  rw [Option.bind_map] at hboth
  exact hboth

theorem writeSlots_writes (self : Store Key) {slots : List UInt8}
    (h : ∀ eqSlot ∈ slots, eqSlot ∈ eqSlots) :
    WritesSome (slots.foldlM (writeEquipped self))
      ((slots.map (equippedRecord self)).flatMap (·.bytes)) := by
  induction slots with
  | nil => exact fun stream _ _ => congrArg some (packetStreamAppend_nil stream).symm
  | cons eqSlot slots ih =>
    rw [List.map_cons, List.flatMap_cons]
    exact (writeEquipped_writes self (h eqSlot List.mem_cons_self)).bind
      (ih fun other hother => h other (List.mem_cons_of_mem _ hother))

/-- A record describes its slot when the size of the attributes fits. -/
theorem equippedRecord_describes (h : eqSlot ∈ eqSlots)
    (hsize : itemPropertiesSize self eqSlot < 2 ^ 16) :
    DescribesSlot self eqSlot (equippedRecord self eqSlot) where
  slot := rfl
  sizeOfAttributes := by
    rw [equippedRecord_properties_length, equippedRecord, UInt16.toNat_ofNat',
      Nat.mod_eq_of_lt hsize]
  occupied := by
    intro item hitem
    simp [equippedRecord, slotId, slotUId, hitem]
  empty := by
    intro hempty
    obtain ⟨value, hvalue⟩ := Option.isSome_iff_exists.mp (emptySlot_isSome h)
    refine ⟨by rw [equippedRecord, slotUId, hempty], by rw [equippedRecord, hempty]; rfl, value,
      hvalue, ?_⟩
    simp [equippedRecord, slotId, hempty, hvalue]

end Slots

section Packet
variable {self : Store Key}

theorem equippedRecords_sizes (self : Store Key) :
    ((eqSlots.map (equippedRecord self)).map (·.bytes)).map List.length = equippedSizes self := by
  simp [equippedSizes, Function.comp_def]

theorem equippedRecords_length (self : Store Key) :
    ((eqSlots.map (equippedRecord self)).flatMap (·.bytes)).length = (equippedSizes self).sum := by
  rw [List.length_flatMap, ← equippedRecords_sizes, List.map_map, List.map_map]
  rfl

/-- The attributes of a slot are a part of the packet. -/
theorem itemPropertiesSize_le {eqSlot : UInt8} (h : eqSlot ∈ eqSlots) :
    itemPropertiesSize self eqSlot ≤ equipmentListSize self := by
  have hmem : equippedPropertiesOffset + itemPropertiesSize self eqSlot ∈ equippedSizes self :=
    List.mem_map_of_mem h
  have hsum := List.le_sum_of_mem hmem
  rw [equipmentListSize]
  omega

/-- The header is stored at the front of a zeroed packet, and everything else is appended. -/
theorem store_then_append {header bytes : List UInt8} {w : PacketStream → Option PacketStream}
    (hw : WritesSome w bytes) {size : ℕ} (hsize : size = header.length + bytes.length) :
    ((packetStreamInit (List.replicate size 0) size).store 0 header).bind
      (fun packetStream => w (packetStream.packetStreamAddOffset header.length)) =
        some ⟨header ++ bytes, size, size⟩ := by
  have hzeros : (packetStreamInit (List.replicate size (0 : UInt8)) size).buffer =
      [] ++ (List.replicate header.length 0 ++ List.replicate bytes.length 0) := by
    rw [List.nil_append, ← List.replicate_add, ← hsize]
    rfl
  have hstore : (packetStreamInit (List.replicate size 0) size).store 0 header =
      some ⟨header ++ List.replicate bytes.length 0, size, 0⟩ :=
    store_replaces hzeros (List.length_replicate ..).symm
  let behind : PacketStream := ⟨header ++ List.replicate bytes.length 0, size, header.length⟩
  have hbuffer : behind.buffer.length = size := by
    simp [behind, hsize]
  have hsplit : behind.buffer = header ++ (List.replicate bytes.length 0 ++ []) := by
    rw [List.append_nil]
  have happend : behind.packetStreamAppend bytes = ⟨header ++ bytes, size, size⟩ := by
    rw [packetStreamAppend_replaces hsplit rfl (List.length_replicate ..).symm hsize.ge,
      List.append_nil]
    exact congrArg (PacketStream.mk _ size) hsize.symm
  have hoffset : PacketStream.packetStreamAddOffset
      ⟨header ++ List.replicate bytes.length 0, size, 0⟩ header.length = behind := by
    rw [packetStreamAddOffset, Nat.zero_add]
  rw [hstore, Option.bind_some, hoffset, hw behind hbuffer.ge hsize.ge, happend]

/-- Both passes agree for every equipment: the packet holds its header and the records, and
nothing else. -/
theorem zoneBuilderItemEquipList_eq (self : Store Key) :
    zoneBuilderItemEquipList self = some
      ⟨variableSizeHeader 3202 (equipmentListSize self) ++
        (eqSlots.map (equippedRecord self)).flatMap (·.bytes),
        equipmentListSize self, equipmentListSize self⟩ := by
  have hheader : (variableSizeHeader 3202 (equipmentListSize self)).length =
      equipmentItemsOffset := by
    simp [variableSizeHeader, equipmentItemsOffset]
  have hsize : equipmentListSize self =
      (variableSizeHeader 3202 (equipmentListSize self)).length +
        ((eqSlots.map (equippedRecord self)).flatMap (·.bytes)).length := by
    rw [hheader, equippedRecords_length, equipmentListSize]
  have hpacket := store_then_append (writeSlots_writes self fun _ h => h) hsize
  rw [hheader] at hpacket
  exact hpacket

/-- For every equipment whose packet has less than 2^16 bytes, the packet lists the slots in
order, each with what it holds. -/
theorem equipment_listed (self : Store Key) (hsize : equipmentListSize self < 2 ^ 16) :
    ∃ packetStream records, zoneBuilderItemEquipList self = some packetStream ∧
      EquipmentListed self packetStream records := by
  have hlength : (variableSizeHeader 3202 (equipmentListSize self) ++
      (eqSlots.map (equippedRecord self)).flatMap (·.bytes)).length = equipmentListSize self := by
    rw [List.length_append, equippedRecords_length, equipmentListSize]
    simp [variableSizeHeader, equipmentItemsOffset]
  refine ⟨_, eqSlots.map (equippedRecord self), zoneBuilderItemEquipList_eq self, ?_⟩
  constructor
  · rw [List.length_map, eqSlots, List.length_map, List.length_range]
  · rw [List.forall₂_map_right_iff, List.forall₂_same]
    exact fun eqSlot h => equippedRecord_describes h ((itemPropertiesSize_le h).trans_lt hsize)
  · rw [hlength]
  · exact hlength.trans_lt hsize
  · exact hlength.symm
  · exact hlength.symm
  · intro i record hrecord
    have hbytes : ((eqSlots.map (equippedRecord self)).map (·.bytes))[i]? = some record.bytes := by
      rw [List.getElem?_map, hrecord, Option.map_some]
    have hat := record_at (variableSizeHeader 3202 (equipmentListSize self)) [] hbytes
    rw [equippedRecords_sizes, List.append_nil, ← List.flatMap_def] at hat
    have hheader : (variableSizeHeader 3202 (equipmentListSize self)).length =
        equipmentItemsOffset := by
      simp [variableSizeHeader, equipmentItemsOffset]
    rw [hheader] at hat
    exact hat

end Packet

section Example

/-- Only the body is dressed, with a piece of armor that bears a memo. -/
def dressedStore : Store UInt64 where
  items _ := none
  bags _ := []
  equippedItems eqSlot := if eqSlot = 3 then some 0 else none
  item _ := ⟨7, 531101, 1, 3, .armor { memo := some ⟨[97, 98, 99], by decide⟩ }⟩
  cell _ := none
  next := 0
  destroyed := []

theorem equipment_listed_dressed : ∃ packetStream records,
    zoneBuilderItemEquipList dressedStore = some packetStream ∧
      EquipmentListed dressedStore packetStream records :=
  equipment_listed dressedStore (by decide)

end Example

end R1Emu.Zone
