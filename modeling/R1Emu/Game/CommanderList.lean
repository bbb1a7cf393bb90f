import R1Emu.Game.Session
import R1Emu.Commander.InventoryPacket
import R1Emu.Actor.ItemClientPacket
import R1Emu.Packet.Fields
import Mathlib.Algebra.Order.BigOperators.Group.List

/-!
# The list of commanders

The packet with an account's commanders is sized in a first pass over the commanders and their
equipment and filled in a second one. An empty slot takes two bytes in the first pass and is
skipped in the second one, so that everything behind it is written too early.
-/
namespace R1Emu.Game
open R1Emu.Actor R1Emu.Lib.Bytes R1Emu.Packet R1Emu.Packet.PacketStream
open R1Emu.Commander

variable {Key : Type}

/-- What is in a slot. -/
def Commander.equippedItem (self : Commander Key) (memory : Memory) (slot : UInt8) : Option Item :=
  (self.inventory.equippedItems slot).map memory.item

/-- `item ? itemGetCPacketSize(item) : 0`. -/
def slotSize : Option Item → ℕ
  | none => 0
  | some item => itemGetCPacketSize item

/-- `offsetof(PropertyCPacket, data)`. -/
def propertyDataOffset : ℕ := 2

/-- `offsetof(CommanderBarrackInfoCPacket, propertiesPacket)`. -/
def commanderPropertiesOffset : ℕ :=
  240 + 8 + 2 + 2 + 4 + 4 + 4 + 4 + 12 + 8 + 12 + 8 + 4

/-- `sizeof(CommanderBarrackInfoCPacket)` with so many bytes of properties. -/
def commanderBarrackInfoSize (propertiesSize : ℕ) : ℕ :=
  commanderPropertiesOffset + propertiesSize + (2 + 2)

/-- What the first pass keeps of a commander. -/
structure CommanderSizes where
  propertiesSize : ℕ
  propertySize : UInt8 → ℕ

/-- Every slot has the size of its attributes, also an empty one. -/
def sizeCommander (memory : Memory) (self : Commander Key) : CommanderSizes where
  propertiesSize :=
    (eqSlots.map fun slot => propertyDataOffset + slotSize (self.equippedItem memory slot)).sum
  propertySize slot := slotSize (self.equippedItem memory slot)

def positionXYZBytes (pos : PositionXYZ) : List UInt8 :=
  leBytes 4 pos.x.toNat ++ (leBytes 4 pos.y.toNat ++ leBytes 4 pos.z.toNat)

def positionXZBytes (dir : PositionXZ) : List UInt8 :=
  leBytes 4 dir.x.toNat ++ leBytes 4 dir.z.toNat

/-- `commanderEquipmentCPacketInit`. -/
def commanderEquipment : List ℕ :=
  [2, 2, 4, 0x81a9d, 6, 7, 0x2710, 0x2af8, 0x3118d, 0x98967c, 4, 9, 9, 4, 0x7f38d, 9, 9, 9, 9, 0xa]

/-- `commanderAppearanceCPacketInit`. -/
def commanderAppearance (self : Commander Key) : List UInt8 :=
  [self.commanderName.toList, self.familyName.toList, List.replicate 7 0,
    leBytes 8 self.accountId.toNat, leBytes 2 self.classId.toNat, leBytes 2 0x2022,
    leBytes 2 self.jobId.toNat, leBytes 1 self.gender.toNat, leBytes 1 0,
    leBytes 4 self.level.toNat, commanderEquipment.flatMap (leBytes 4),
    leBytes 1 self.hairId.toNat, leBytes 1 0, leBytes 2 self.pose.toNat].flatten

/-- A commander's fields in front of the properties. -/
def commanderHead (index : ℕ) (self : Commander Key) : List UInt8 :=
  [commanderAppearance self, leBytes 8 self.socialInfoId.toNat, leBytes 2 (index + 1),
    leBytes 2 self.mapId.toNat, leBytes 4 2, leBytes 4 0, leBytes 4 self.maxXP.toNat,
    leBytes 4 0x1c761cc0, positionXYZBytes self.barrackPos, positionXZBytes self.dir,
    positionXYZBytes self.barrackPos, positionXZBytes self.dir, leBytes 4 0].flatten

/-- A commander's fields behind the properties. -/
def commanderTrailer (self : Commander Key) : List UInt8 :=
  leBytes 2 1 ++ leBytes 2 self.jobId.toNat

/-- `offsetof(BarrackBuilderCommanderListCPacket, commandersBarrackInfoPacket)`. -/
def commandersOffset : ℕ := 8 + 8 + 1 + 1 + 64 + 2 + (2 + 4) + (2 + 4) + (2 + 4)

/-- The packet's fields in front of the commanders. -/
def commanderListHead (accountId : UInt64) (account : AccountSession) (commandersCount size : ℕ) :
    List UInt8 :=
  [variableSizeHeader 17 size, leBytes 8 accountId.toNat, leBytes 1 0, leBytes 1 commandersCount,
    (strncpy 64 account.familyName.toList).toList, leBytes 2 0x12, leBytes 2 0x189c,
    leBytes 4 account.credits.toNat, leBytes 2 0x189e, leBytes 4 0, leBytes 2 0x18a0,
    leBytes 4 0].flatten

/-- A slot in the second pass. -/
def writeSlot (memory : Memory) (self : Commander Key) (sizes : CommanderSizes)
    (packetStream : PacketStream) (slot : UInt8) : Option PacketStream :=
  match self.equippedItem memory slot with
  | none => some packetStream
  | some item => do
    let packetStream ←
      packetStream.store packetStream.position (leBytes 2 (sizes.propertySize slot))
    return itemSerializeCPacket item (packetStream.packetStreamAddOffset propertyDataOffset)

/-- A commander in the second pass. The fields behind the properties are addressed by their
offset in the structure, before the properties are written. -/
def writeCommander (memory : Memory) (index : ℕ) (self : Commander Key) (sizes : CommanderSizes)
    (packetStream : PacketStream) : Option PacketStream := do
  let start := packetStream.position
  let packetStream ← packetStream.store start (commanderHead index self)
  let packetStream ← packetStream.store (start + (commanderPropertiesOffset + sizes.propertiesSize))
    (commanderTrailer self)
  let packetStream := packetStream.packetStreamAddOffset commanderPropertiesOffset
  let packetStream ← eqSlots.foldlM (writeSlot memory self sizes) packetStream
  return (packetStream.packetStreamAddOffset 2).packetStreamAddOffset 2

def writeCommanders (memory : Memory) : ℕ → List (Commander Key × CommanderSizes) → PacketStream →
    Option PacketStream
  | _, [], packetStream => some packetStream
  | index, (commander, sizes) :: rest, packetStream => do
    writeCommanders memory (index + 1) rest (← writeCommander memory index commander sizes packetStream)

/-- The packet as it is sent, and the position that the second pass ends at. -/
def barrackBuilderCommanderList (accountId : UInt64) (account : AccountSession) (memory : Memory)
    (commanders : List (Commander Key)) : Option PacketStream := do
  let sizes := commanders.map (sizeCommander memory)
  let infoSize := (sizes.map fun s => commanderBarrackInfoSize s.propertiesSize).sum
  let size := commandersOffset + (infoSize + 2)
  let packetStream := packetStreamInit (List.replicate size 0) size
  let packetStream ← packetStream.store 0 (commanderListHead accountId account commanders.length size)
  let packetStream ← packetStream.store (commandersOffset + infoSize) (leBytes 2 0)
  let packetStream :=
    if 0 < infoSize then packetStream.packetStreamAddOffset commandersOffset else packetStream
  writeCommanders memory 0 (commanders.zip sizes) packetStream

@[simp] theorem commanderHead_length (index : ℕ) (self : Commander Key) :
    (commanderHead index self).length = commanderPropertiesOffset := by
  simp [commanderHead, commanderAppearance, commanderEquipment, positionXYZBytes, positionXZBytes,
    commanderPropertiesOffset]

@[simp] theorem commanderTrailer_length (self : Commander Key) :
    (commanderTrailer self).length = 2 + 2 := by
  simp [commanderTrailer]

@[simp] theorem commanderListHead_length (accountId : UInt64) (account : AccountSession)
    (commandersCount size : ℕ) :
    (commanderListHead accountId account commandersCount size).length = commandersOffset := by
  simp [commanderListHead, variableSizeHeader, commandersOffset]

/-- What the second pass writes of a slot. -/
def writtenBlock : Option Item → List UInt8
  | none => []
  | some item => leBytes 2 (itemGetCPacketSize item) ++ itemCPacket item

/-- The block of a slot: the size of its attributes, and the attributes. -/
def attributeBlock (item : Option Item) : List UInt8 :=
  leBytes 2 (slotSize item) ++ (item.map itemCPacket).getD []

def Commander.written (self : Commander Key) (memory : Memory) : List UInt8 :=
  eqSlots.flatMap fun slot => writtenBlock (self.equippedItem memory slot)

def Commander.attributes (self : Commander Key) (memory : Memory) : List UInt8 :=
  eqSlots.flatMap fun slot => attributeBlock (self.equippedItem memory slot)

/-- The record of a commander as the first pass has sized it. -/
def commanderRecord (memory : Memory) (index : ℕ) (self : Commander Key) : List UInt8 :=
  commanderHead index self ++ (self.attributes memory ++ commanderTrailer self)

section Slots
variable {memory : Memory} {self : Commander Key}

@[simp] theorem attributeBlock_length (item : Option Item) :
    (attributeBlock item).length = propertyDataOffset + slotSize item := by
  cases item with
  | none => rfl
  | some item => simp [attributeBlock, slotSize, propertyDataOffset, itemGetCPacketSize_eq]

theorem attributes_length (memory : Memory) (self : Commander Key) :
    (self.attributes memory).length = (sizeCommander memory self).propertiesSize := by
  simp [Commander.attributes, sizeCommander, List.length_flatMap]

@[simp] theorem commanderRecord_length (memory : Memory) (index : ℕ) (self : Commander Key) :
    (commanderRecord memory index self).length =
      commanderBarrackInfoSize (sizeCommander memory self).propertiesSize := by
  rw [commanderRecord, List.length_append, List.length_append, commanderHead_length,
    commanderTrailer_length, attributes_length, commanderBarrackInfoSize, Nat.add_assoc]

/-- An empty slot is two bytes short. -/
theorem writtenBlock_length (item : Option Item) : (writtenBlock item).length +
    (if item.isSome then 0 else propertyDataOffset) = (attributeBlock item).length := by
  cases item with
  | none => rfl
  | some item => rfl

/-- How many slots of a commander are empty. -/
def Commander.emptySlots (self : Commander Key) (memory : Memory) : ℕ :=
  eqSlots.countP fun slot => (self.equippedItem memory slot).isNone

theorem written_length (memory : Memory) (self : Commander Key) :
    (self.written memory).length + propertyDataOffset * self.emptySlots memory =
      (self.attributes memory).length := by
  rw [Commander.written, Commander.attributes, Commander.emptySlots]
  induction eqSlots with
  | nil => rfl
  | cons slot slots ih =>
    have hblock := writtenBlock_length (self.equippedItem memory slot)
    rw [List.flatMap_cons, List.flatMap_cons, List.length_append, List.length_append,
      List.countP_cons, ← ih, ← hblock]
    cases self.equippedItem memory slot <;> simp <;> ring

theorem written_of_occupied (h : self.emptySlots memory = 0) :
    self.written memory = self.attributes memory := by
  rw [Commander.emptySlots, List.countP_eq_zero] at h
  rw [Commander.written, Commander.attributes]
  refine List.flatMap_congr fun slot hslot => ?_
  cases hitem : self.equippedItem memory slot with
  | none => exact absurd (by rw [hitem]; rfl) (h slot hslot)
  | some item => simp [writtenBlock, attributeBlock, slotSize]

/-- A slot is skipped or appended. -/
theorem writeSlot_writes (memory : Memory) (self : Commander Key) (slot : UInt8) :
    WritesSome (fun packetStream => writeSlot memory self (sizeCommander memory self) packetStream slot)
      (writtenBlock (self.equippedItem memory slot)) := by
  intro stream hbuffer hroom
  simp only [writeSlot]
  cases hitem : self.equippedItem memory slot with
  | none => exact congrArg some (packetStreamAppend_nil stream).symm
  | some item =>
    rw [hitem, writtenBlock] at hroom
    have hfit := hroom
    rw [List.length_append, leBytes_length] at hfit
    have hsize : (sizeCommander memory self).propertySize slot = itemGetCPacketSize item := by
      simp only [sizeCommander, hitem, slotSize]
    obtain ⟨stored, hstored, hheader⟩ := Option.map_eq_some_iff.mp
      (store_addOffset (leBytes 2 (itemGetCPacketSize item)) hbuffer (by rw [leBytes_length]; omega))
    rw [leBytes_length] at hheader
    obtain ⟨hlength, hsame, hposition⟩ := packetStreamAppend_room
      (leBytes 2 (itemGetCPacketSize item)) hbuffer (by rw [leBytes_length]; omega)
    rw [leBytes_length] at hposition
    have happend := itemSerializeCPacket_writes item
      (stream.packetStreamAppend (leBytes 2 (itemGetCPacketSize item))) (by omega) (by omega)
    simp only [hsize, hstored, Option.bind_eq_bind, Option.bind_some, propertyDataOffset, hheader,
      happend, writtenBlock]
    exact congrArg some (packetStreamAppend_append stream hbuffer hroom)

theorem writeSlots_writes (memory : Memory) (self : Commander Key) :
    WritesSome (eqSlots.foldlM (writeSlot memory self (sizeCommander memory self)))
      (self.written memory) := by
  rw [Commander.written]
  induction eqSlots with
  | nil => exact fun stream _ _ => congrArg some (packetStreamAppend_nil stream).symm
  | cons slot slots ih => exact (writeSlot_writes memory self slot).bind ih

end Slots

section Commanders
variable {memory : Memory} {self : Commander Key} {index : ℕ}

/-- The second pass over a commander, in a buffer that has room for its record. The blocks of
the slots take the place of the first of the bytes `m` meant for them. -/
theorem writeCommander_ok (memory : Memory) (index : ℕ) (self : Commander Key) (a c : List UInt8)
    {h m t : List UInt8} (hh : h.length = commanderPropertiesOffset)
    (hm : m.length = (sizeCommander memory self).propertiesSize) (ht : t.length = 2 + 2) :
    writeCommander memory index self (sizeCommander memory self)
        ⟨a ++ (h ++ (m ++ (t ++ c))), (a ++ (h ++ (m ++ (t ++ c)))).length, a.length⟩ =
      some ⟨a ++ (commanderHead index self ++ (self.written memory ++
          (m.drop (self.written memory).length ++ (commanderTrailer self ++ c)))),
        (a ++ (h ++ (m ++ (t ++ c)))).length,
        a.length + (commanderPropertiesOffset + (self.written memory).length + (2 + 2))⟩ := by
  have hwritten := written_length memory self
  rw [attributes_length, ← hm] at hwritten
  set size := (a ++ (h ++ (m ++ (t ++ c)))).length with hsize
  have hlength : size = a.length + (commanderPropertiesOffset + (m.length + (2 + 2 + c.length))) := by
    rw [hsize, List.length_append, List.length_append, List.length_append, List.length_append, hh, ht]
  have hfirst : store ⟨a ++ (h ++ (m ++ (t ++ c))), size, a.length⟩ a.length (commanderHead index self) =
      some ⟨a ++ (commanderHead index self ++ (m ++ (t ++ c))), size, a.length⟩ :=
    store_replaces rfl ((commanderHead_length index self).trans hh.symm)
  have hsecond : store ⟨a ++ (commanderHead index self ++ (m ++ (t ++ c))), size, a.length⟩
      (a.length + (commanderPropertiesOffset + m.length)) (commanderTrailer self) =
        some ⟨a ++ (commanderHead index self ++ (m ++ (commanderTrailer self ++ c))), size,
          a.length⟩ := by
    have hfront : (a ++ (commanderHead index self ++ m)).length =
        a.length + (commanderPropertiesOffset + m.length) := by
      rw [List.length_append, List.length_append, commanderHead_length]
    rw [← hfront, store_replaces (a := a ++ (commanderHead index self ++ m)) (b := t) (c := c)
      (by simp only [List.append_assoc]) ((commanderTrailer_length self).trans ht.symm)]
    simp only [List.append_assoc]
  have hslots : eqSlots.foldlM (writeSlot memory self (sizeCommander memory self))
      ⟨a ++ (commanderHead index self ++ (m ++ (commanderTrailer self ++ c))), size,
        a.length + commanderPropertiesOffset⟩ =
      some ⟨a ++ (commanderHead index self ++ (self.written memory ++
          (m.drop (self.written memory).length ++ (commanderTrailer self ++ c)))), size,
        a.length + commanderPropertiesOffset + (self.written memory).length⟩ := by
    have hbuffer : (a ++ (commanderHead index self ++ (m ++ (commanderTrailer self ++ c)))).length =
        size := by
      simp only [List.length_append, commanderHead_length, commanderTrailer_length]
      omega
    have hroom : a.length + commanderPropertiesOffset + (self.written memory).length ≤ size := by
      omega
    have hsplit : a ++ (commanderHead index self ++ (m ++ (commanderTrailer self ++ c))) =
        (a ++ commanderHead index self) ++ (m.take (self.written memory).length ++
          (m.drop (self.written memory).length ++ (commanderTrailer self ++ c))) := by
      rw [← List.append_assoc (m.take _), List.take_append_drop, List.append_assoc]
    refine (writeSlots_writes memory self _ hbuffer.ge hroom).trans (congrArg some ?_)
    rw [packetStreamAppend_replaces hsplit (by rw [List.length_append, commanderHead_length])
      (by rw [List.length_take]; omega) hroom, List.append_assoc]
  rw [writeCommander, ← hm]
  simp only [hfirst, hsecond, Option.bind_eq_bind, Option.bind_some, packetStreamAddOffset, hslots]
  simp only [Nat.add_assoc]
  rfl

/-- Bytes that have room for a record, cut where its three parts meet. -/
theorem cut_record {bytes : List UInt8} {n : ℕ} (h : bytes.length = commanderBarrackInfoSize n) :
    ∃ h m t, bytes = h ++ (m ++ t) ∧ h.length = commanderPropertiesOffset ∧ m.length = n ∧
      t.length = 2 + 2 := by
  rw [commanderBarrackInfoSize] at h
  refine ⟨bytes.take commanderPropertiesOffset, (bytes.drop commanderPropertiesOffset).take n,
    (bytes.drop commanderPropertiesOffset).drop n, ?_, ?_, ?_, ?_⟩
  · rw [List.take_append_drop, List.take_append_drop]
  · rw [List.length_take]
    omega
  · rw [List.length_take, List.length_drop]
    omega
  · rw [List.length_drop, List.length_drop]
    omega

/-- A commander that fits is written inside the room for its record, and two bytes are missing
for each of its empty slots. -/
theorem writeCommander_fits (memory : Memory) (index : ℕ) (self : Commander Key)
    {stream : PacketStream} (hsize : stream.size = stream.buffer.length)
    (hroom : stream.position + commanderBarrackInfoSize (sizeCommander memory self).propertiesSize ≤
      stream.size) :
    ∃ stream', writeCommander memory index self (sizeCommander memory self) stream = some stream' ∧
      stream'.size = stream'.buffer.length ∧ stream'.size = stream.size ∧
      stream'.position + propertyDataOffset * self.emptySlots memory =
        stream.position + commanderBarrackInfoSize (sizeCommander memory self).propertiesSize := by
  have hwritten := written_length memory self
  rw [attributes_length] at hwritten
  have hbytes : ((stream.buffer.drop stream.position).take
      (commanderBarrackInfoSize (sizeCommander memory self).propertiesSize)).length =
        commanderBarrackInfoSize (sizeCommander memory self).propertiesSize := by
    rw [List.length_take, List.length_drop]
    omega
  obtain ⟨h, m, t, hcut, hh, hm, ht⟩ := cut_record hbytes
  have hfront : (stream.buffer.take stream.position).length = stream.position := by
    rw [List.length_take]
    omega
  have hbuffer : stream.buffer = stream.buffer.take stream.position ++ (h ++ (m ++ (t ++
      (stream.buffer.drop stream.position).drop
        (commanderBarrackInfoSize (sizeCommander memory self).propertiesSize)))) := by
    rw [← List.append_assoc m, ← List.append_assoc h, ← hcut, List.take_append_drop,
      List.take_append_drop]
  have hrun := writeCommander_ok memory index self (stream.buffer.take stream.position)
    ((stream.buffer.drop stream.position).drop
      (commanderBarrackInfoSize (sizeCommander memory self).propertiesSize)) hh hm ht
  rw [← hbuffer, hfront, ← hsize] at hrun
  refine ⟨_, hrun, ?_, rfl, ?_⟩
  · have hlength := congrArg List.length hbuffer
    simp only [List.length_append, commanderHead_length, commanderTrailer_length, List.length_drop,
      hsize] at hlength ⊢
    omega
  · simp only [commanderBarrackInfoSize]
    omega

/-- With something in every slot, the record takes the place of as many bytes. -/
theorem writeCommander_record (index : ℕ) (a c : List UInt8) {bytes : List UInt8}
    (hoccupied : self.emptySlots memory = 0)
    (hbytes : bytes.length = commanderBarrackInfoSize (sizeCommander memory self).propertiesSize) :
    writeCommander memory index self (sizeCommander memory self)
        ⟨a ++ (bytes ++ c), (a ++ (bytes ++ c)).length, a.length⟩ =
      some ⟨(a ++ commanderRecord memory index self) ++ c,
        ((a ++ commanderRecord memory index self) ++ c).length,
        (a ++ commanderRecord memory index self).length⟩ := by
  obtain ⟨h, m, t, rfl, hh, hm, ht⟩ := cut_record hbytes
  have hattributes := attributes_length memory self
  have hwritten := written_of_occupied hoccupied
  have hrun := writeCommander_ok memory index self a c hh hm ht
  have hnothing : m.drop (self.written memory).length = [] :=
    List.drop_eq_nil_of_le (by rw [hwritten, hattributes, hm])
  rw [hnothing, List.nil_append, hwritten, hattributes] at hrun
  simp only [List.append_assoc] at hrun ⊢
  rw [hrun, commanderRecord]
  simp only [List.append_assoc, List.length_append, commanderHead_length, commanderTrailer_length,
    hh, hm, ht, hattributes, Nat.add_assoc]

/-- What the first pass adds up. -/
def recordSizes (memory : Memory) (commanders : List (Commander Key)) : List ℕ :=
  commanders.map fun c => commanderBarrackInfoSize (sizeCommander memory c).propertiesSize

theorem recordSizes_cons (memory : Memory) (self : Commander Key) (rest : List (Commander Key)) :
    (recordSizes memory (self :: rest)).sum =
      commanderBarrackInfoSize (sizeCommander memory self).propertiesSize +
        (recordSizes memory rest).sum := List.sum_cons

/-- The records as the first pass has sized them. -/
def commanderRecords (memory : Memory) : ℕ → List (Commander Key) → List (List UInt8)
  | _, [] => []
  | index, c :: rest => commanderRecord memory index c :: commanderRecords memory (index + 1) rest

theorem commanderRecords_sizes (memory : Memory) (index : ℕ) (commanders : List (Commander Key)) :
    (commanderRecords memory index commanders).map List.length = recordSizes memory commanders := by
  induction commanders generalizing index with
  | nil => rfl
  | cons c rest ih =>
    rw [commanderRecords, List.map_cons, ih, commanderRecord_length]
    rfl

theorem commanderRecords_getElem? (memory : Memory) (index i : ℕ)
    (commanders : List (Commander Key)) : (commanderRecords memory index commanders)[i]? =
      commanders[i]?.map (commanderRecord memory (index + i)) := by
  induction commanders generalizing index i with
  | nil => rfl
  | cons c rest ih =>
    cases i with
    | zero => rfl
    | succ i =>
      rw [commanderRecords, List.getElem?_cons_succ, List.getElem?_cons_succ, ih, Nat.add_right_comm,
        Nat.add_assoc]

/-- The second pass stays inside the room for the records. -/
theorem writeCommanders_fits {commanders : List (Commander Key)} {stream : PacketStream}
    (hsize : stream.size = stream.buffer.length)
    (hroom : stream.position + (recordSizes memory commanders).sum ≤ stream.size) :
    ∃ stream', writeCommanders memory index (commanders.map fun c => (c, sizeCommander memory c))
        stream = some stream' ∧
      stream'.size = stream'.buffer.length ∧ stream'.size = stream.size ∧
      stream'.position +
          propertyDataOffset * (commanders.map fun c => c.emptySlots memory).sum =
        stream.position + (recordSizes memory commanders).sum := by
  induction commanders generalizing index stream with
  | nil => exact ⟨stream, rfl, hsize, rfl, rfl⟩
  | cons c rest ih =>
    rw [recordSizes_cons] at hroom ⊢
    obtain ⟨s₁, hrun₁, hsize₁, hsame₁, hposition₁⟩ :=
      writeCommander_fits memory index c hsize (by omega)
    obtain ⟨s₂, hrun₂, hsize₂, hsame₂, hposition₂⟩ := @ih (index + 1) s₁ hsize₁ (by omega)
    refine ⟨s₂, ?_, hsize₂, hsame₂.trans hsame₁, ?_⟩
    · rw [List.map_cons, writeCommanders, hrun₁]
      exact hrun₂
    · rw [List.map_cons, List.sum_cons, Nat.mul_add]
      omega

/-- With no slot empty, the records take the place of as many bytes. -/
theorem writeCommanders_records {commanders : List (Commander Key)} {a bytes c : List UInt8}
    (hoccupied : ∀ commander ∈ commanders, commander.emptySlots memory = 0)
    (hbytes : bytes.length = (recordSizes memory commanders).sum) :
    writeCommanders memory index (commanders.map fun c => (c, sizeCommander memory c))
        ⟨a ++ (bytes ++ c), (a ++ (bytes ++ c)).length, a.length⟩ =
      some ⟨(a ++ (commanderRecords memory index commanders).flatten) ++ c,
        ((a ++ (commanderRecords memory index commanders).flatten) ++ c).length,
        (a ++ (commanderRecords memory index commanders).flatten).length⟩ := by
  induction commanders generalizing index a bytes with
  | nil =>
    obtain rfl : bytes = [] := List.length_eq_zero_iff.mp hbytes
    simp [writeCommanders, commanderRecords]
  | cons commander rest ih =>
    rw [recordSizes_cons] at hbytes
    set n := commanderBarrackInfoSize (sizeCommander memory commander).propertiesSize
    have hfirst : (bytes.take n).length = n := by
      rw [List.length_take]
      omega
    have hrest : (bytes.drop n).length = (recordSizes memory rest).sum := by
      rw [List.length_drop]
      omega
    have hrun := writeCommander_record index a (bytes.drop n ++ c)
      (hoccupied commander List.mem_cons_self) hfirst
    rw [← List.append_assoc (bytes.take n), List.take_append_drop] at hrun
    rw [List.map_cons, writeCommanders, hrun, commanderRecords, List.flatten_cons,
      ← List.append_assoc a]
    exact ih (fun d hd => hoccupied d (List.mem_cons_of_mem _ hd)) hrest

end Commanders

section Layout
variable {memory : Memory} {commanders : List (Commander Key)}

/-- All the attributes of the equipment. -/
def attributesTotal (memory : Memory) (commanders : List (Commander Key)) : ℕ :=
  (commanders.flatMap fun c => eqSlots.map fun slot => slotSize (c.equippedItem memory slot)).sum

/-- Where the second pass starts. -/
def recordsStart (memory : Memory) (commanders : List (Commander Key)) : ℕ :=
  if 0 < (recordSizes memory commanders).sum then commandersOffset else 0

/-- Where the first pass has a commander's record. -/
def recordAt (memory : Memory) (commanders : List (Commander Key)) (i : ℕ) : ℕ :=
  commandersOffset + recordOffset (recordSizes memory commanders) i

/-- What the first pass adds up for a commander's slots. -/
def blockSizes (memory : Memory) (self : Commander Key) : List ℕ :=
  eqSlots.map fun slot => propertyDataOffset + slotSize (self.equippedItem memory slot)

/-- A block has its size in front. -/
def CarriesSize (size : ℕ) (block : List UInt8) : Prop :=
  leValue (block.take propertyDataOffset) = size ∧ (block.drop propertyDataOffset).length = size

/-- The packet is filled as the first pass has sized it: the stream has come to the records'
end, each record is at its place with its last fields behind the last slot, and each slot's
block is at its place in the record. -/
structure LaidOut (memory : Memory) (commanders : List (Commander Key)) (stream : PacketStream) :
    Prop where
  advanced : stream.position =
    recordsStart memory commanders + (recordSizes memory commanders).sum
  record : ∀ i c, commanders[i]? = some c → (stream.buffer.drop (recordAt memory commanders i)).take
    (commanderBarrackInfoSize (sizeCommander memory c).propertiesSize) = commanderRecord memory i c
  block : ∀ i c j slot, commanders[i]? = some c → eqSlots[j]? = some slot →
    CarriesSize (slotSize (c.equippedItem memory slot))
      ((stream.buffer.drop (recordAt memory commanders i +
        (commanderPropertiesOffset + recordOffset (blockSizes memory c) j))).take
          (propertyDataOffset + slotSize (c.equippedItem memory slot)))

/-- No slot of a listed commander is empty. -/
def Occupied (commanders : List (Commander Key)) : Prop :=
  ∀ c ∈ commanders, ∀ slot ∈ eqSlots, (c.inventory.equippedItems slot).isSome

theorem emptySlots_eq_zero_iff (memory : Memory) (self : Commander Key) :
    self.emptySlots memory = 0 ↔
      ∀ slot ∈ eqSlots, (self.inventory.equippedItems slot).isSome := by
  simp only [Commander.emptySlots, List.countP_eq_zero, Commander.equippedItem, Option.isNone_map,
    Bool.not_eq_true, Option.isNone_eq_false_iff]

theorem occupied_iff (memory : Memory) (commanders : List (Commander Key)) :
    Occupied commanders ↔ (commanders.map fun c => c.emptySlots memory).sum = 0 := by
  simp only [Occupied, List.sum_eq_zero_iff, List.forall_mem_map, emptySlots_eq_zero_iff]

/-- A part of what is read at an offset. -/
theorem part_read {bytes part : List UInt8} {start n k m : ℕ}
    (hread : (bytes.drop start).take n = part) (hfit : k + m ≤ part.length) :
    (bytes.drop (start + k)).take m = (part.drop k).take m := by
  have hn : k + m ≤ n := hfit.trans (hread ▸ List.length_take_le n _)
  rw [← hread, List.drop_take, List.take_take, List.drop_drop,
    Nat.min_eq_left (Nat.le_sub_of_add_le' hn)]

theorem slotSize_lt (hsmall : attributesTotal memory commanders < 65536) {c : Commander Key}
    (hc : c ∈ commanders) {slot : UInt8} (hslot : slot ∈ eqSlots) :
    slotSize (c.equippedItem memory slot) < 65536 := by
  have hmem : slotSize (c.equippedItem memory slot) ∈ commanders.flatMap fun c =>
      eqSlots.map fun slot => slotSize (c.equippedItem memory slot) :=
    List.mem_flatMap.mpr ⟨c, hc, List.mem_map_of_mem hslot⟩
  exact (List.le_sum_of_mem hmem).trans_lt hsmall

theorem attributeBlock_carriesSize {item : Option Item} (h : slotSize item < 65536) :
    CarriesSize (slotSize item) (attributeBlock item) := by
  refine ⟨?_, ?_⟩
  · rw [attributeBlock, propertyDataOffset, List.take_left' (leBytes_length 2 _),
      leValue_leBytes_of_lt (by omega)]
  · rw [List.length_drop, attributeBlock_length, Nat.add_sub_cancel_left]

/-- The block of a slot stands in the record of its commander. -/
theorem commanderRecord_block (memory : Memory) (index : ℕ) (self : Commander Key) {j : ℕ}
    {slot : UInt8} (hslot : eqSlots[j]? = some slot) :
    commanderPropertiesOffset + recordOffset (blockSizes memory self) j +
        (attributeBlock (self.equippedItem memory slot)).length ≤
      (commanderRecord memory index self).length ∧
    ((commanderRecord memory index self).drop
      (commanderPropertiesOffset + recordOffset (blockSizes memory self) j)).take
        (attributeBlock (self.equippedItem memory slot)).length =
      attributeBlock (self.equippedItem memory slot) := by
  set blocks := eqSlots.map fun slot => attributeBlock (self.equippedItem memory slot) with hblocks
  have hsizes : blocks.map List.length = blockSizes memory self := by
    rw [hblocks, List.map_map, blockSizes]
    exact List.map_congr_left fun slot _ => attributeBlock_length _
  have hblock : blocks[j]? = some (attributeBlock (self.equippedItem memory slot)) := by
    rw [hblocks, List.getElem?_map, hslot]
    rfl
  have hat := record_at (commanderHead index self) (commanderTrailer self) hblock
  rw [commanderHead_length, hsizes] at hat
  refine ⟨?_, hat⟩
  have hlength := congrArg List.length hat
  rw [List.length_take, List.length_drop] at hlength
  have hsome : 0 < (attributeBlock (self.equippedItem memory slot)).length := by
    rw [attributeBlock_length, propertyDataOffset]
    omega
  have hrecord : commanderRecord memory index self =
    commanderHead index self ++ (blocks.flatten ++ commanderTrailer self) := rfl
  rw [hrecord]
  omega

/-- The fields in front of the records and behind them are filled. -/
theorem store_ends (head tail : List UInt8) (n size : ℕ) {stream : PacketStream}
    (hstream : stream = ⟨List.replicate (head.length + (n + tail.length)) 0, size, 0⟩) :
    ((stream.store 0 head).bind fun s => s.store (head.length + n) tail) =
      some ⟨head ++ (List.replicate n 0 ++ tail), size, 0⟩ := by
  have hzeros : stream.buffer = [] ++ (List.replicate head.length 0 ++
      (List.replicate n 0 ++ List.replicate tail.length 0)) := by
    rw [hstream, List.replicate_append_replicate, List.replicate_append_replicate, List.nil_append]
  have hfirst := store_replaces hzeros List.length_replicate.symm
  rw [List.nil_append, List.length_nil] at hfirst
  rw [hfirst, Option.bind_some]
  have hfront : (head ++ List.replicate n (0 : UInt8)).length = head.length + n := by
    rw [List.length_append, List.length_replicate]
  have hrest : head ++ (List.replicate n (0 : UInt8) ++ List.replicate tail.length 0) =
      (head ++ List.replicate n 0) ++ (List.replicate tail.length 0 ++ []) := by
    rw [List.append_nil, List.append_assoc]
  rw [← hfront, hrest, store_replaces rfl List.length_replicate.symm, hstream, List.append_nil,
    List.append_assoc]

/-- The second pass starts behind the packet's first fields, or at the packet's start when there
is no commander. -/
theorem barrackBuilderCommanderList_eq (accountId : UInt64) (account : AccountSession)
    (memory : Memory) (commanders : List (Commander Key)) :
    ∃ front back, front.length = commandersOffset ∧ back.length = 2 ∧
      barrackBuilderCommanderList accountId account memory commanders =
        writeCommanders memory 0 (commanders.map fun c => (c, sizeCommander memory c))
          ⟨front ++ (List.replicate (recordSizes memory commanders).sum 0 ++ back),
            (front ++ (List.replicate (recordSizes memory commanders).sum 0 ++ back)).length,
            recordsStart memory commanders⟩ := by
  have hsum : ((commanders.map (sizeCommander memory)).map fun s =>
      commanderBarrackInfoSize s.propertiesSize).sum = (recordSizes memory commanders).sum := by
    rw [List.map_map]
    rfl
  set infoSize := (recordSizes memory commanders).sum with hinfo
  set size := commandersOffset + (infoSize + 2) with hsize
  set head := commanderListHead accountId account commanders.length size with hhead
  have hlength : head.length = commandersOffset := commanderListHead_length _ _ _ _
  have hends := store_ends head (leBytes 2 0) infoSize size rfl
  rw [hlength, leBytes_length, ← hsize] at hends
  have htotal : (head ++ (List.replicate infoSize 0 ++ leBytes 2 0)).length = size := by
    rw [List.length_append, List.length_append, hlength, List.length_replicate, leBytes_length]
  refine ⟨head, leBytes 2 0, hlength, leBytes_length 2 0, ?_⟩
  obtain ⟨stored, hfirst, hsecond⟩ := Option.bind_eq_some_iff.mp hends
  rw [barrackBuilderCommanderList, hsum, List.map_prod_left_eq_zip, htotal]
  simp only [packetStreamInit, ← hsize, ← hhead, hfirst, hsecond, Option.bind_eq_bind,
    Option.bind_some, recordsStart, ← hinfo]
  split
  · rw [packetStreamAddOffset, Nat.zero_add]
  · rfl

/-- The packet is always filled without leaving it, and two bytes are missing for each empty
slot. -/
theorem barrackBuilderCommanderList_fits (accountId : UInt64) (account : AccountSession)
    (memory : Memory) (commanders : List (Commander Key)) :
    ∃ stream, barrackBuilderCommanderList accountId account memory commanders = some stream ∧
      stream.position + propertyDataOffset * (commanders.map fun c => c.emptySlots memory).sum =
        recordsStart memory commanders + (recordSizes memory commanders).sum := by
  obtain ⟨front, back, hfront, hback, hrun⟩ :=
    barrackBuilderCommanderList_eq accountId account memory commanders
  have hstart : recordsStart memory commanders ≤ commandersOffset := by
    rw [recordsStart]
    split
    · exact le_rfl
    · exact Nat.zero_le _
  have hroom : recordsStart memory commanders + (recordSizes memory commanders).sum ≤
      (front ++ (List.replicate (recordSizes memory commanders).sum 0 ++ back)).length := by
    rw [List.length_append, List.length_append, hfront, hback, List.length_replicate]
    omega
  rw [hrun]
  obtain ⟨stream, hstream, -, -, hposition⟩ := @writeCommanders_fits Key memory 0 commanders
    ⟨_, _, recordsStart memory commanders⟩ rfl hroom
  exact ⟨stream, hstream, hposition⟩

/-- With no empty slot, the records are in the packet. -/
theorem barrackBuilderCommanderList_records (accountId : UInt64) (account : AccountSession)
    (hoccupied : Occupied commanders) {stream : PacketStream}
    (hstream : barrackBuilderCommanderList accountId account memory commanders = some stream) :
    ∃ front back, front.length = commandersOffset ∧
      stream.buffer = front ++ ((commanderRecords memory 0 commanders).flatten ++ back) := by
  obtain ⟨front, back, hfront, -, hrun⟩ :=
    barrackBuilderCommanderList_eq accountId account memory commanders
  refine ⟨front, back, hfront, ?_⟩
  rw [hrun] at hstream
  have hoccupied' : ∀ c ∈ commanders, c.emptySlots memory = 0 := fun c hc =>
    (emptySlots_eq_zero_iff memory c).mpr (hoccupied c hc)
  by_cases hsome : 0 < (recordSizes memory commanders).sum
  · rw [recordsStart, if_pos hsome, ← hfront,
      writeCommanders_records hoccupied' List.length_replicate] at hstream
    rw [← Option.some.inj hstream, List.append_assoc]
  · cases commanders with
    | nil =>
      rw [← Option.some.inj hstream]
      rfl
    | cons c rest =>
      rw [recordSizes_cons, commanderBarrackInfoSize] at hsome
      omega

/-- The records of occupied commanders are where the first pass has them. -/
theorem record_laidOut (accountId : UInt64) (account : AccountSession)
    (hoccupied : Occupied commanders) {stream : PacketStream}
    (hstream : barrackBuilderCommanderList accountId account memory commanders = some stream)
    {i : ℕ} {c : Commander Key} (hc : commanders[i]? = some c) :
    (stream.buffer.drop (recordAt memory commanders i)).take
      (commanderBarrackInfoSize (sizeCommander memory c).propertiesSize) =
        commanderRecord memory i c := by
  obtain ⟨front, back, hfront, hbuffer⟩ :=
    barrackBuilderCommanderList_records accountId account hoccupied hstream
  have hrecord : (commanderRecords memory 0 commanders)[i]? = some (commanderRecord memory i c) := by
    rw [commanderRecords_getElem?, hc, Nat.zero_add]
    rfl
  have hat := record_at front back hrecord
  rw [commanderRecord_length, commanderRecords_sizes, hfront, ← hbuffer] at hat
  exact hat

/-- The packet is always filled, and it is filled as it has been sized exactly when no slot is
empty. -/
theorem commanderList_laidOut_iff (accountId : UInt64) (account : AccountSession)
    (memory : Memory) (commanders : List (Commander Key))
    (hsmall : attributesTotal memory commanders < 65536) :
    ∃ stream, barrackBuilderCommanderList accountId account memory commanders = some stream ∧
      (LaidOut memory commanders stream ↔ Occupied commanders) := by
  obtain ⟨stream, hstream, hposition⟩ :=
    barrackBuilderCommanderList_fits accountId account memory commanders
  refine ⟨stream, hstream, fun h => ?_, fun hoccupied => ?_⟩
  · rw [h.advanced, propertyDataOffset] at hposition
    exact (occupied_iff memory commanders).mpr (by omega)
  · have hrecord := fun i c hc => @record_laidOut Key memory commanders accountId account hoccupied
      stream hstream i c hc
    refine ⟨?_, hrecord, fun i c j slot hc hslot => ?_⟩
    · rw [(occupied_iff memory commanders).mp hoccupied] at hposition
      exact hposition
    · obtain ⟨hfit, hblock⟩ := commanderRecord_block memory i c hslot
      rw [← attributeBlock_length, part_read (hrecord i c hc) hfit, hblock]
      exact attributeBlock_carriesSize (slotSize_lt hsmall (List.mem_of_getElem? hc)
        (List.mem_of_getElem? hslot))

end Layout

section Example

/-- A piece of armor for each slot. -/
def wardrobe : Memory where
  item ptr := ⟨UInt64.ofNat ptr, 531101, 1, UInt8.ofNat ptr, .armor {}⟩
  cell _ := none
  next := 0
  destroyed := []

/-- A commander that wears something in each slot. -/
def dressedCommander : Commander UInt64 :=
  { (commanderInit : Commander UInt64) with
    inventory := { inventoryInit with equippedItems slot := some slot.toNat } }

def listedAccount : AccountSession :=
  accountSessionInit (Vector.replicate 33 0) (Vector.replicate 11 0) 0

theorem commanderList_laidOut_dressed :
    ∃ stream, barrackBuilderCommanderList 1 listedAccount wardrobe
        [dressedCommander, dressedCommander] = some stream ∧
      LaidOut wardrobe [dressedCommander, dressedCommander] stream := by
  obtain ⟨stream, hstream, hiff⟩ := commanderList_laidOut_iff 1 listedAccount wardrobe
    [dressedCommander, dressedCommander] (by decide +kernel)
  refine ⟨stream, hstream, hiff.mpr fun c hc slot _ => ?_⟩
  obtain rfl : c = dressedCommander := by simpa using hc
  rfl

/-- The position does not come to the end of a new commander's record. -/
theorem commanderList_not_laidOut_bare :
    attributesTotal wardrobe [(commanderInit : Commander UInt64)] < 65536 ∧
      ∃ stream, barrackBuilderCommanderList 1 listedAccount wardrobe
          [(commanderInit : Commander UInt64)] = some stream ∧
        ¬ LaidOut wardrobe [(commanderInit : Commander UInt64)] stream := by
  obtain ⟨stream, hstream, hposition⟩ := barrackBuilderCommanderList_fits 1 listedAccount wardrobe
    [(commanderInit : Commander UInt64)]
  refine ⟨by decide +kernel, stream, hstream, fun h => ?_⟩
  have hmissing : ([(commanderInit : Commander UInt64)].map fun c => c.emptySlots wardrobe).sum = 20 :=
    by decide +kernel
  rw [hmissing, h.advanced, propertyDataOffset] at hposition
  omega

end Example

end R1Emu.Game
