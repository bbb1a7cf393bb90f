import R1Emu.Commander.InventoryLayout

/-!
# The equipment comes back

Equipped items that are framed by what follows them are decoded into the slots they name. Nothing
else is put into a slot, and no item that was there before is changed.
-/
namespace R1Emu.Commander
open R1Emu.Actor R1Emu.Lib R1Emu.Lib.Bytes R1Emu.Packet R1Emu.Packet.PacketStream

variable {Key : Type}

/-- An item that can be put into the slot it names. -/
structure Wearable (item : Item) : Prop where
  equipable : item.category.equipable = true
  slot_lt : item.slot.toNat < eqSlotCount

/-- The items are in the slots that they name, the other slots and the items of the arena are as
they were. -/
structure Worn (arena : Arena Key) (items : List Item) (arena' : Arena Key) : Prop where
  worn : ∀ item ∈ items, ∃ pointer, arena'.equippedItems item.slot = some pointer ∧
    item.Agrees (arena'.item pointer)
  slots : ∀ slot ∉ items.map Item.slot, arena'.equippedItems slot = arena.equippedItems slot
  item : ∀ pointer < arena.nextItem, arena'.item pointer = arena.item pointer

/-- A new item in a slot. -/
def Arena.wear (self : Arena Key) (slot : UInt8) (item : Item) : Arena Key :=
  { (self.itemNew item).2 with
    equippedItems := Function.update self.equippedItems slot (some self.nextItem) }

section Decoder
variable {stream : PacketStream} (heapByte : ℕ → UInt8)

/-- Behind an item the decoder goes on with the item in its slot. -/
theorem equippedUnserializeSPacket_item {item y : Item} {t : PacketStream} (h : Wearable item)
    (hitem : itemUnserializeSPacket stream = .ok (y, t)) (hagrees : item.Agrees y)
    (n i : ℕ) (self : Arena Key) :
    equippedUnserializeSPacket heapByte (n + 1) i self stream =
      equippedUnserializeSPacket heapByte n (i + 1) (self.wear item.slot y) t := by
  have hcategory : y.body.category = item.category := congrArg ItemBody.category hagrees.body
  have hslot : equippedSlot (heapByte i) y.slot y.body = item.slot := by
    rw [equippedSlot, hcategory, if_pos h.equipable, hagrees.slot h.equipable]
  rw [equippedUnserializeSPacket, bind_ok hitem]
  simp only [hslot, if_pos h.slot_lt]
  rfl

theorem Worn.cons {arena arena' : Arena Key} {item y : Item} {items : List Item}
    (hagrees : item.Agrees y) (hnew : item.slot ∉ items.map Item.slot)
    (h : Worn (arena.wear item.slot y) items arena') : Worn arena (item :: items) arena' where
  worn := by
    have hpointer : arena'.item arena.nextItem = y :=
      (h.item _ (Nat.lt_succ_self _)).trans (Function.update_self _ _ _)
    have hslot : arena'.equippedItems item.slot = some arena.nextItem :=
      (h.slots _ hnew).trans (Function.update_self _ _ _)
    rw [List.forall_mem_cons]
    exact ⟨⟨arena.nextItem, hslot, hpointer ▸ hagrees⟩, h.worn⟩
  slots slot hslot := by
    rw [List.map_cons, List.mem_cons, not_or] at hslot
    exact (h.slots slot hslot.2).trans (Function.update_of_ne hslot.1 _ _)
  item pointer hpointer :=
    (h.item pointer (Nat.lt_succ_of_lt hpointer)).trans
      (Function.update_of_ne (Nat.ne_of_lt hpointer) _ _)

theorem equippedUnserializeSPacket_framed {items : List Item} {f : List UInt8}
    (hitems : ∀ item ∈ items, Wearable item) (hslots : (items.map Item.slot).Nodup)
    (hframed : FramedItems items f) (hrest : stream.rest = items.flatMap itemSerialized ++ f)
    (hsize : stream.position + (items.flatMap itemSerialized).length ≤ stream.size)
    (i : ℕ) (self : Arena Key) :
    ∃ self', equippedUnserializeSPacket heapByte items.length i self stream =
        .ok (self', stream.packetStreamAddOffset (items.flatMap itemSerialized).length) ∧
      Worn self items self' := by
  induction items generalizing stream i self with
  | nil => exact ⟨self, rfl, by simp, fun _ _ => rfl, fun _ _ => rfl⟩
  | cons item items ih =>
    obtain ⟨⟨hfirst, hpr⟩, hframed⟩ := hframed
    rw [List.forall_mem_cons] at hitems
    rw [List.map_cons, List.nodup_cons] at hslots
    rw [List.flatMap_cons, List.append_assoc] at hrest
    rw [List.flatMap_cons, List.length_append] at hsize ⊢
    obtain ⟨y, hitem, hagrees⟩ := (itemUnserializeSPacket_agrees item hrest (by omega)).complete
      ⟨hfirst, hpr⟩
    have hrest' : (stream.packetStreamAddOffset (itemSerialized item).length).rest =
        items.flatMap itemSerialized ++ f := by
      rw [packetStreamAddOffset_rest, hrest, List.drop_left]
    obtain ⟨self', hrun, hworn⟩ := ih hitems.2 hslots.2 hframed hrest'
      (by rw [packetStreamAddOffset_position, packetStreamAddOffset_size]; omega) (i + 1)
      (self.wear item.slot y)
    refine ⟨self', ?_, hworn.cons hagrees hslots.1⟩
    rw [List.length_cons, equippedUnserializeSPacket_item heapByte hitems.1 hitem hagrees, hrun,
      packetStreamAddOffset_add]

end Decoder

/-- The inventory wears its items in the slots that they name. -/
def WornItems (store : Store Key) : Prop :=
  ∀ slot ∈ eqSlots, ∀ pointer, store.equippedItems slot = some pointer →
    (store.item pointer).slot = slot ∧ (store.item pointer).category.equipable = true

section Equipment
variable {store : Store Key}

theorem equipment_slots (h : WornItems store) :
    store.equipment.map Item.slot = eqSlots.filter fun slot => (store.equippedItems slot).isSome := by
  rw [Store.equipment]
  revert h
  rw [WornItems]
  induction eqSlots with
  | nil => exact fun _ => rfl
  | cons slot slots ih =>
    intro h
    rw [List.forall_mem_cons] at h
    cases hslot : store.equippedItems slot with
    | none => simp [hslot, ih h.2]
    | some pointer => simp [hslot, ih h.2, (h.1 pointer hslot).1]

theorem equipment_nodup (h : WornItems store) : (store.equipment.map Item.slot).Nodup := by
  have hslots : eqSlots.Nodup := by decide
  rw [equipment_slots h]
  exact hslots.filter _

theorem wearable_equipment (h : WornItems store) : ∀ item ∈ store.equipment, Wearable item := by
  intro item hitem
  obtain ⟨slot, hslot, hworn⟩ := List.mem_filterMap.mp hitem
  obtain ⟨pointer, hpointer, rfl⟩ := Option.map_eq_some_iff.mp hworn
  obtain ⟨hname, hequipable⟩ := h slot hslot pointer hpointer
  exact ⟨hequipable, hname ▸ lt_of_mem_eqSlots hslot⟩

/-- What was worn is in its slot again, and nothing is in the others. -/
theorem Worn.equipment {arena arena' : Arena Key} (h : WornItems store)
    (hworn : Worn arena.freeEquipment store.equipment arena') :
    ∀ slot ∈ eqSlots, Option.Rel Item.Agrees ((store.equippedItems slot).map store.item)
      ((arena'.equippedItems slot).map arena'.item) := by
  intro slot hslot
  cases hpointer : store.equippedItems slot with
  | none =>
    have hnot : slot ∉ store.equipment.map Item.slot := by
      simp [equipment_slots h, hpointer]
    have hfree : arena.freeEquipment.equippedItems slot = none :=
      if_pos (lt_of_mem_eqSlots hslot)
    rw [hworn.slots slot hnot, hfree]
    exact .none
  | some pointer =>
    have hmem : store.item pointer ∈ store.equipment :=
      List.mem_filterMap.mpr ⟨slot, hslot, by rw [hpointer]; rfl⟩
    obtain ⟨pointer', hslot', hagrees⟩ := hworn.worn _ hmem
    rw [(h slot hslot pointer hpointer).1] at hslot'
    rw [hslot']
    exact .some hagrees

/-- An inventory with nothing in its bags is decoded to its end, and its items are in their slots
again. -/
theorem inventoryUnserializeSPacket_equipment (heapByte : ℕ → UInt8) (h : WornItems store)
    (hframed : FramedItems store.equipment (leBytes 4 0)) {stream : PacketStream}
    (hw : stream.Whole) (hrest : stream.rest = inventorySPacket store.equipment 0 [])
    (arena : Arena Key) :
    ∃ arena', inventoryUnserializeSPacket heapByte arena stream =
        .ok ((true, arena'.purge), stream.packetStreamAddOffset stream.rest.length) ∧
      Worn arena.freeEquipment store.equipment arena' := by
  have hcount : store.equipment.length < 2 ^ 32 :=
    (List.length_filterMap_le _ _).trans_lt (by decide)
  rw [inventorySPacket, ← funext itemSerialized_eq, List.flatMap_nil, List.append_nil] at hrest
  have hlength := congrArg List.length hrest
  simp only [List.length_append, leBytes_length] at hlength
  have hfirst := inventoryCount_ok hw (by omega)
  rw [hrest, List.take_left' (leBytes_length 4 _), leValue_leBytes_of_lt hcount] at hfirst
  have hfront : (stream.packetStreamAddOffset 4).rest =
      store.equipment.flatMap itemSerialized ++ leBytes 4 0 := by
    rw [packetStreamAddOffset_rest, hrest, List.drop_left' (leBytes_length 4 _)]
  have hroom : (stream.packetStreamAddOffset 4).position +
      (store.equipment.flatMap itemSerialized).length ≤ (stream.packetStreamAddOffset 4).size := by
    rw [rest_length] at hlength
    rw [packetStreamAddOffset_position, packetStreamAddOffset_size, hw]
    omega
  obtain ⟨arena', hrun, hworn⟩ := equippedUnserializeSPacket_framed heapByte
    (wearable_equipment h) (equipment_nodup h) hframed hfront hroom 0 arena.freeEquipment
  refine ⟨arena', ?_, hworn⟩
  rw [packetStreamAddOffset_add] at hrun
  have hback : (stream.packetStreamAddOffset
      (4 + (store.equipment.flatMap itemSerialized).length)).rest = leBytes 4 0 := by
    rw [← packetStreamAddOffset_add, packetStreamAddOffset_rest, hfront, List.drop_left]
  have hsecond := inventoryCount_ok (hw.offset _) (by rw [hback, leBytes_length])
  rw [hback, List.take_of_length_le (leBytes_length 4 0).le, packetStreamAddOffset_add,
    Nat.add_assoc] at hsecond
  rw [inventoryUnserializeSPacket, bind_ok hfirst, bind_ok hrun, bind_ok hsecond, hlength]
  rfl

end Equipment

end R1Emu.Commander
