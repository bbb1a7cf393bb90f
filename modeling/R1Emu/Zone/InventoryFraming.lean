import R1Emu.Zone.ItemInventoryList
import R1Emu.Packet.Fields

/-!
# The frame of the inventory list

The items' part of the packet is compressed into a buffer of fixed size and sent with a header
in front. The sizes in the two headers have sixteen bits, and what the compression reports is
not looked at.
-/
namespace R1Emu.Zone
open R1Emu.Actor R1Emu.Commander R1Emu.Lib.Bytes R1Emu.Packet R1Emu.Packet.PacketStream

variable {Key : Type}

/-- The size of the buffer for compressed bytes. -/
def zlibBufferSize : ℕ := 0x40000

/-- What the compression library does: whether a stream can be set up, which bytes `deflate`
puts into the room there is and whether these are all of them, and whether the stream can be
released. -/
structure Deflate where
  deflateInit2 : Bool
  deflate : (nextIn : List UInt8) → (availOut : ℕ) → List UInt8 × Bool
  deflateEnd : Bool
  fits : ∀ nextIn availOut, (deflate nextIn availOut).1.length ≤ availOut

structure Zlib where
  magic : UInt16
  size : UInt16
  buffer : List UInt8
  buffer_length : buffer.length = zlibBufferSize

/-- The compressed bytes in front of what the buffer held. -/
def Zlib.fill (self : Zlib) (out : List UInt8) (h : out.length ≤ zlibBufferSize) : Zlib where
  magic := self.magic
  size := self.size
  buffer := out ++ self.buffer.drop out.length
  buffer_length := by
    rw [List.length_append, List.length_drop, self.buffer_length]
    omega

/-- `avail_in` has 32 bits. -/
def availIn (dataSize : ℕ) : ℕ := dataSize % 2 ^ 32

/-- The header is left as it was when the compression fails. -/
def zlibCompress (z : Deflate) (self : Zlib) (data : List UInt8) : Bool × Zlib :=
  if z.deflateInit2 then
    let nextIn := data.take (availIn data.length)
    let result := z.deflate nextIn zlibBufferSize
    let self := self.fill result.1 (z.fits nextIn zlibBufferSize)
    if result.2 && z.deflateEnd then
      (true, { self with magic := 0xFA8D, size := UInt16.ofNat result.1.length })
    else (false, self)
  else (false, self)

/-- `ZLIB_GET_COMPRESSED_PACKET_SIZE`: in front of the compressed bytes there are the header of
the packet, the number of items and the header of the compression. -/
def compressedPacketSize (zlibData : Zlib) : ℕ := zlibData.size.toNat + 4 + (8 + 4)

/-- The frame that is added to the reply. -/
def inventoryListFrame (zlibData : Zlib) (inventoryCount : ℕ) : List UInt8 :=
  let outPacketSize := compressedPacketSize zlibData
  (variableSizeHeader 3200 outPacketSize ++ (leBytes 4 inventoryCount ++
    (leBytes 2 zlibData.magic.toNat ++ (leBytes 2 zlibData.size.toNat ++ zlibData.buffer)))).take
      outPacketSize

/-- The frames that are sent. Neither the bytes of the items nor those of the reply are
initialised, and the compression's result is not used. -/
def zoneBuilderItemInventoryList (z : Deflate) (self : Store Key) (inventoryCount fuel : ℕ)
    (bags : Cursors) (stack : ℕ → UInt8) (replyPacket : Zlib) : Option (List (List UInt8)) := do
  let (_, packetStream) ← itemsPacket self inventoryCount fuel bags stack
  let (_, zlibData) := zlibCompress z replyPacket packetStream.buffer
  return [inventoryListFrame zlibData inventoryCount]

def packetSizeField (frame : List UInt8) : ℕ := leValue ((frame.drop 6).take 2)

def zlibSizeField (frame : List UInt8) : ℕ := leValue ((frame.drop 14).take 2)

def compressedBytes (frame : List UInt8) : List UInt8 := frame.drop 16

/-- Nothing is sent when the compression fails. Otherwise it has read all the items, and there
is one frame with its own size and with all that was compressed behind the size of that. -/
structure SelfConsistent (z : Deflate) (replyPacket : Zlib) (items : List UInt8)
    (sent : List (List UInt8)) : Prop where
  failed : (zlibCompress z replyPacket items).1 = false → sent = []
  framed : (zlibCompress z replyPacket items).1 = true → availIn items.length = items.length ∧
    ∃ frame, sent = [frame] ∧ packetSizeField frame = frame.length ∧
      zlibSizeField frame = (compressedBytes frame).length ∧
      compressedBytes frame = (z.deflate items zlibBufferSize).1

/-- The compression comes to its end, and what it makes of the items fits the frame. -/
structure Compresses (z : Deflate) (items : List UInt8) : Prop where
  read : items.length < 2 ^ 32
  begun : z.deflateInit2 = true
  ended : (z.deflate items zlibBufferSize).2 = true
  released : z.deflateEnd = true
  short : (z.deflate items zlibBufferSize).1.length + 16 < 2 ^ 16

section Frame
variable {z : Deflate} {items : List UInt8}

/-- What stands in front of the compressed bytes, up to the compression's size. -/
def frameHead (zlibData : Zlib) (inventoryCount : ℕ) : List UInt8 :=
  variableSizeHeader 3200 (compressedPacketSize zlibData) ++
    (leBytes 4 inventoryCount ++ leBytes 2 zlibData.magic.toNat)

/-- The frame from its first to its last byte. -/
theorem inventoryListFrame_eq (zlibData : Zlib) (inventoryCount : ℕ) :
    inventoryListFrame zlibData inventoryCount = frameHead zlibData inventoryCount ++
      (leBytes 2 zlibData.size.toNat ++ zlibData.buffer.take zlibData.size.toNat) := by
  have hlength : (frameHead zlibData inventoryCount ++ leBytes 2 zlibData.size.toNat).length = 16 := by
    simp [frameHead, variableSizeHeader]
  have hsize : compressedPacketSize zlibData =
      (frameHead zlibData inventoryCount ++ leBytes 2 zlibData.size.toNat).length +
        zlibData.size.toNat := by
    rw [hlength, compressedPacketSize]
    omega
  have htake : ((frameHead zlibData inventoryCount ++ leBytes 2 zlibData.size.toNat) ++
      zlibData.buffer).take (compressedPacketSize zlibData) =
        (frameHead zlibData inventoryCount ++ leBytes 2 zlibData.size.toNat) ++
          zlibData.buffer.take zlibData.size.toNat := by
    rw [hsize]
    exact List.take_length_add_append _
  rw [← List.append_assoc, ← htake, inventoryListFrame]
  simp only [frameHead, List.append_assoc]

/-- A number between two parts of a frame is read behind the first one. -/
theorem field_read (front rest : List UInt8) (n : ℕ) :
    leValue (((front ++ (leBytes 2 n ++ rest)).drop front.length).take 2) = n % 2 ^ 16 := by
  rw [List.drop_left, List.take_left' (leBytes_length 2 n), leValue_leBytes]
  norm_num

theorem inventoryListFrame_packetSize (zlibData : Zlib) (inventoryCount : ℕ) :
    packetSizeField (inventoryListFrame zlibData inventoryCount) =
      (zlibData.size.toNat + 16) % 2 ^ 16 := by
  have hread := field_read (leBytes 2 3200 ++ leBytes 4 (2 ^ 32 - 1))
    (leBytes 4 inventoryCount ++ (leBytes 2 zlibData.magic.toNat ++
      (leBytes 2 zlibData.size.toNat ++ zlibData.buffer.take zlibData.size.toNat)))
    (compressedPacketSize zlibData)
  rw [inventoryListFrame_eq, frameHead, variableSizeHeader, packetSizeField]
  simp only [List.append_assoc] at hread ⊢
  exact hread

theorem inventoryListFrame_zlibSize (zlibData : Zlib) (inventoryCount : ℕ) :
    zlibSizeField (inventoryListFrame zlibData inventoryCount) = zlibData.size.toNat := by
  have hread := field_read (frameHead zlibData inventoryCount)
    (zlibData.buffer.take zlibData.size.toNat) zlibData.size.toNat
  rw [Nat.mod_eq_of_lt (UInt16.toNat_lt _)] at hread
  have hlength : (frameHead zlibData inventoryCount).length = 14 := by
    simp [frameHead, variableSizeHeader]
  rw [hlength] at hread
  rw [inventoryListFrame_eq, zlibSizeField, hread]

theorem inventoryListFrame_compressed (zlibData : Zlib) (inventoryCount : ℕ) :
    compressedBytes (inventoryListFrame zlibData inventoryCount) =
      zlibData.buffer.take zlibData.size.toNat := by
  have hlength : (frameHead zlibData inventoryCount ++ leBytes 2 zlibData.size.toNat).length = 16 := by
    simp [frameHead, variableSizeHeader]
  rw [inventoryListFrame_eq, compressedBytes, ← List.append_assoc, List.drop_left' hlength]

/-- The buffer is always large enough for the bytes that the size promises. -/
theorem inventoryListFrame_length (zlibData : Zlib) (inventoryCount : ℕ) :
    (inventoryListFrame zlibData inventoryCount).length = zlibData.size.toNat + 16 := by
  have hfit : zlibData.size.toNat ≤ zlibData.buffer.length := by
    rw [zlibData.buffer_length]
    exact (UInt16.toNat_lt zlibData.size).le.trans (by decide)
  rw [inventoryListFrame_eq]
  simp only [frameHead, variableSizeHeader, List.length_append, leBytes_length, List.length_take]
  omega

/-- When all the items are read, the compression succeeds if the library does. -/
theorem zlibCompress_status {replyPacket : Zlib} (hread : availIn items.length = items.length) :
    (zlibCompress z replyPacket items).1 =
      (z.deflateInit2 && ((z.deflate items zlibBufferSize).2 && z.deflateEnd)) := by
  rw [zlibCompress, hread, List.take_length]
  cases z.deflateInit2 with
  | false => rfl
  | true =>
    rw [if_pos rfl]
    dsimp only
    split
    next h => simp only [h, Bool.and_true]
    next h => simp only [Bool.eq_false_iff.mpr h, Bool.and_false]

theorem zlibCompress_ok {replyPacket : Zlib} (hread : availIn items.length = items.length)
    (hok : (zlibCompress z replyPacket items).1 = true) :
    (zlibCompress z replyPacket items).2.size =
        UInt16.ofNat (z.deflate items zlibBufferSize).1.length ∧
      ∃ old, (zlibCompress z replyPacket items).2.buffer =
        (z.deflate items zlibBufferSize).1 ++ old := by
  rw [zlibCompress_status hread, Bool.and_eq_true] at hok
  rw [zlibCompress, if_pos hok.1]
  simp only [hread, List.take_length]
  rw [if_pos hok.2]
  exact ⟨rfl, _, rfl⟩

/-- The frame that is sent is consistent exactly when the compression fits it. -/
theorem selfConsistent_iff (z : Deflate) (replyPacket : Zlib) (items : List UInt8)
    (inventoryCount : ℕ) :
    SelfConsistent z replyPacket items
        [inventoryListFrame (zlibCompress z replyPacket items).2 inventoryCount] ↔
      Compresses z items := by
  constructor
  · intro h
    have hok : (zlibCompress z replyPacket items).1 = true := by
      by_contra hfail
      exact List.cons_ne_nil _ _ (h.failed (Bool.eq_false_iff.mpr hfail))
    obtain ⟨hread, frame, hframe, hpacket, hzlib, hcompressed⟩ := h.framed hok
    obtain rfl := (List.cons.inj hframe).1
    have hstatus := hok
    rw [zlibCompress_status hread, Bool.and_eq_true, Bool.and_eq_true] at hstatus
    rw [inventoryListFrame_packetSize, inventoryListFrame_length] at hpacket
    rw [hcompressed, inventoryListFrame_zlibSize] at hzlib
    refine ⟨?_, hstatus.1, hstatus.2.1, hstatus.2.2, ?_⟩
    · rw [← hread, availIn]
      exact Nat.mod_lt _ (by decide)
    · rw [← hzlib]
      omega
  · intro h
    have hread : availIn items.length = items.length := Nat.mod_eq_of_lt h.read
    have hok : (zlibCompress z replyPacket items).1 = true := by
      rw [zlibCompress_status hread, h.begun, h.ended, h.released]
      rfl
    obtain ⟨hsize, old, hbuffer⟩ := zlibCompress_ok hread hok
    have hshort := h.short
    have htotal : (zlibCompress z replyPacket items).2.size.toNat =
        (z.deflate items zlibBufferSize).1.length := by
      rw [hsize, UInt16.toNat_ofNat', Nat.mod_eq_of_lt (by omega)]
    have hcompressed : compressedBytes (inventoryListFrame (zlibCompress z replyPacket items).2
        inventoryCount) = (z.deflate items zlibBufferSize).1 := by
      rw [inventoryListFrame_compressed, htotal, hbuffer, List.take_left]
    refine ⟨fun hfail => absurd (hok.symm.trans hfail) (by decide),
      fun _ => ⟨hread, _, rfl, ?_, ?_, hcompressed⟩⟩
    · rw [inventoryListFrame_packetSize, inventoryListFrame_length, htotal,
        Nat.mod_eq_of_lt hshort]
    · rw [inventoryListFrame_zlibSize, htotal, hcompressed]

/-- One frame is sent, whatever becomes of the compression. -/
theorem zoneBuilderItemInventoryList_sends (z : Deflate) {self : Store Key} {inventoryCount : ℕ}
    (h : Listed self inventoryCount) {bags : Cursors} (hbags : Lists self bags)
    (stack : ℕ → UInt8) (replyPacket : Zlib) {fuel : ℕ} (hfuel : inventoryCount < fuel) :
    zoneBuilderItemInventoryList z self inventoryCount fuel bags stack replyPacket =
      some [inventoryListFrame (zlibCompress z replyPacket
        ((inventoryCPackets self).flatMap (·.bytes))).2 inventoryCount] := by
  obtain ⟨bags', packetStream, hrun, -, hbuffer, -, -⟩ := itemsPacket_ok h hfuel hbags stack
  rw [zoneBuilderItemInventoryList, hrun, ← hbuffer]
  rfl

/-- The list of an inventory is sent in one frame, which is consistent exactly when all of its
items are read by the compression and what becomes of them fits the frame. -/
theorem inventory_list_consistent_iff (z : Deflate) {self : Store Key} {inventoryCount : ℕ}
    (h : Listed self inventoryCount) {bags : Cursors} (hbags : Lists self bags)
    (stack : ℕ → UInt8) (replyPacket : Zlib) {fuel : ℕ} (hfuel : inventoryCount < fuel) :
    (∃ sent, zoneBuilderItemInventoryList z self inventoryCount fuel bags stack replyPacket =
        some sent ∧
      SelfConsistent z replyPacket ((inventoryCPackets self).flatMap (·.bytes)) sent) ↔
      Compresses z ((inventoryCPackets self).flatMap (·.bytes)) := by
  rw [zoneBuilderItemInventoryList_sends z h hbags stack replyPacket hfuel,
    ← selfConsistent_iff z replyPacket _ inventoryCount]
  constructor
  · rintro ⟨sent, hsent, hconsistent⟩
    exact Option.some.inj hsent ▸ hconsistent
  · exact fun hconsistent => ⟨_, rfl, hconsistent⟩

end Frame

section Example

/-- A compression that finds nothing to compress. -/
def storingDeflate : Deflate where
  deflateInit2 := true
  deflate nextIn availOut := (nextIn.take availOut, decide (nextIn.length ≤ availOut))
  deflateEnd := true
  fits _ _ := List.length_take_le _ _

def zeroedZlib : Zlib := ⟨0, 0, List.replicate zlibBufferSize 0, List.length_replicate⟩

theorem armorStore_bytes (letters : ℕ) :
    ((inventoryCPackets (armorStore letters)).flatMap (·.bytes)).length = 37 + letters := by
  rw [inventoryCPackets_eq, armorStore_items, List.map_singleton, List.flatMap_singleton,
    inventoryItem_length, armorStore_size, propertiesOffset]
  omega

theorem twoArmors_bytes :
    ((inventoryCPackets twoArmors).flatMap (·.bytes)).length = 72 := by
  rw [inventoryCPackets_eq, twoArmors_items]
  decide

theorem inventory_list_consistent_twoArmors :
    ∃ sent, zoneBuilderItemInventoryList storingDeflate twoArmors 2 3
        (restingCursors twoArmors) (fun _ => 0) zeroedZlib = some sent ∧
      SelfConsistent storingDeflate zeroedZlib
        ((inventoryCPackets twoArmors).flatMap (·.bytes)) sent := by
  refine (inventory_list_consistent_iff storingDeflate twoArmors_listed (fun _ => rfl)
    (fun _ => 0) zeroedZlib (by decide)).mpr ?_
  have hlength := twoArmors_bytes
  refine ⟨by rw [hlength]; decide, rfl, ?_, rfl, ?_⟩
  · simp only [storingDeflate, hlength]
    decide
  · simp only [storingDeflate, List.length_take, hlength]
    decide

/-- What a long memo is compressed to fits the buffer, but not the sizes; a longer one does not
fit the buffer, and a frame is sent all the same. -/
theorem inventory_list_inconsistent_long_memo :
    (Listed (armorStore 65534) 1 ∧ ¬ ∃ sent, zoneBuilderItemInventoryList storingDeflate
        (armorStore 65534) 1 2 (restingCursors (armorStore 65534)) (fun _ => 0) zeroedZlib =
          some sent ∧ SelfConsistent storingDeflate zeroedZlib
        ((inventoryCPackets (armorStore 65534)).flatMap (·.bytes)) sent) ∧
      Listed (armorStore 300000) 1 ∧ ¬ ∃ sent, zoneBuilderItemInventoryList storingDeflate
        (armorStore 300000) 1 2 (restingCursors (armorStore 300000)) (fun _ => 0) zeroedZlib =
          some sent ∧ SelfConsistent storingDeflate zeroedZlib
        ((inventoryCPackets (armorStore 300000)).flatMap (·.bytes)) sent := by
  have hcompresses : ∀ letters, (∃ sent, zoneBuilderItemInventoryList storingDeflate
      (armorStore letters) 1 2 (restingCursors (armorStore letters)) (fun _ => 0) zeroedZlib =
        some sent ∧ SelfConsistent storingDeflate zeroedZlib
      ((inventoryCPackets (armorStore letters)).flatMap (·.bytes)) sent) →
        Compresses storingDeflate ((inventoryCPackets (armorStore letters)).flatMap (·.bytes)) := by
    rintro letters ⟨sent, hsent, hconsistent⟩
    rw [zoneBuilderItemInventoryList_sends storingDeflate (armorStore_listed letters)
      (fun _ => rfl) _ _ (by decide)] at hsent
    exact (selfConsistent_iff storingDeflate zeroedZlib _ 1).mp (Option.some.inj hsent ▸ hconsistent)
  refine ⟨⟨armorStore_listed 65534, fun h => ?_⟩, armorStore_listed 300000, fun h => ?_⟩
  · have hshort := (hcompresses 65534 h).short
    simp only [storingDeflate, List.length_take, armorStore_bytes] at hshort
    exact absurd hshort (by decide)
  · have hended := (hcompresses 300000 h).ended
    simp only [storingDeflate, armorStore_bytes] at hended
    exact absurd hended (by decide)

end Example

end R1Emu.Zone
