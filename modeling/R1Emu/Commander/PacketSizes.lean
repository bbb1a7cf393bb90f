import R1Emu.Commander.InventoryPacket
import R1Emu.Actor.ItemClientPacket

/-!
# Sizes of the packets

The size functions walk items and inventories on their own, before anything is written. They
announce exactly the bytes that the serialisers append, so that a buffer allocated with the
announced size is filled to its end.
-/
namespace R1Emu.Commander
open R1Emu.Actor R1Emu.Packet R1Emu.Packet.PacketStream

variable {Key : Type}

theorem itemGetSPacketSize_announces (item : Item) :
    Announces (itemGetSPacketSize item) fun stream => some (itemSerializeSPacket item stream) := by
  rw [itemGetSPacketSize_eq]
  exact (itemSerializeSPacket_writes item).writesSome.announces

theorem itemGetCPacketSize_announces (item : Item) :
    Announces (itemGetCPacketSize item) fun stream => some (itemSerializeCPacket item stream) := by
  rw [itemGetCPacketSize_eq]
  exact (itemSerializeCPacket_writes item).writesSome.announces

/-- A handle that is not allocated is followed by the size function and by the serialiser. -/
theorem inventory_dangling {self : Store Key} (hcontents : self.contents = none) (itemsCount : ℕ)
    (stream : PacketStream) :
    inventoryGetSPacketSize self = none ∧ inventorySerializeSPacket self itemsCount stream = none := by
  simp [inventoryGetSPacketSize, inventorySerializeSPacket, hcontents]

theorem inventoryGetSPacketSize_announces {self : Store Key} {contents : List Item}
    (hcontents : self.contents = some contents) (itemsCount : ℕ) :
    ∃ size, inventoryGetSPacketSize self = some size ∧
      Announces size (inventorySerializeSPacket self itemsCount) :=
  ⟨_, inventoryGetSPacketSize_eq hcontents itemsCount,
    (inventorySerializeSPacket_writes hcontents itemsCount).announces⟩

/-- Both packets of every item and the server packet of every inventory have the size that is
announced. Where an inventory's bags hold a handle that is not allocated, neither of its two
functions comes to an end. -/
theorem sizes_announce_what_is_written (item : Item) (self : Store Key) (itemsCount : ℕ) :
    (Announces (itemGetSPacketSize item) fun stream => some (itemSerializeSPacket item stream)) ∧
      (Announces (itemGetCPacketSize item) fun stream => some (itemSerializeCPacket item stream)) ∧
      ((∃ size, inventoryGetSPacketSize self = some size ∧
        Announces size (inventorySerializeSPacket self itemsCount)) ∨
      (self.contents = none ∧ ∀ stream, inventoryGetSPacketSize self = none ∧
        inventorySerializeSPacket self itemsCount stream = none)) := by
  refine ⟨itemGetSPacketSize_announces item, itemGetCPacketSize_announces item, ?_⟩
  cases hcontents : self.contents with
  | none => exact .inr ⟨rfl, inventory_dangling hcontents itemsCount⟩
  | some contents => exact .inl (inventoryGetSPacketSize_announces hcontents itemsCount)

end R1Emu.Commander
