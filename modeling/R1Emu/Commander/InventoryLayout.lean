import R1Emu.Commander.InventoryPacket
import R1Emu.Commander.InventoryIndex

/-!
# Decoding any bytes into an inventory

The decoder of an inventory ends in a fault unless the bytes have the layout of counts and
items with slots that exist, and it never reports a failure. Where it has a result, the hash
is empty, whatever the bags hold.
-/
namespace R1Emu.Commander
open R1Emu.Actor R1Emu.Lib R1Emu.Lib.Bytes R1Emu.Packet R1Emu.Packet.PacketStream

/-- A count of four bytes. -/
def countField (bs : List UInt8) : Option ℕ :=
  if bs.length < 4 then none else some (leValue (bs.take 4))

/-- The bytes of the equipped items from the `i`-th on, whose slots must exist. -/
def equippedSize (heapByte : ℕ → UInt8) : ℕ → ℕ → List UInt8 → Option ℕ
  | 0, _, _ => some 0
  | n + 1, i, bs => do
    let size ← itemSize bs
    if (itemSlot (heapByte i) bs).toNat < eqSlotCount then
      (equippedSize heapByte n (i + 1) (bs.drop size)).map (size + ·)
    else none

def itemsSize : ℕ → List UInt8 → Option ℕ
  | 0, _ => some 0
  | n + 1, bs => do
    let size ← itemSize bs
    (itemsSize n (bs.drop size)).map (size + ·)

/-- The bytes of the equipment: a count, and so many items. -/
def equipmentLayout (heapByte : ℕ → UInt8) (bs : List UInt8) : Option ℕ := do
  let equipmentCount ← countField bs
  (equippedSize heapByte equipmentCount 0 (bs.drop 4)).map (4 + ·)

/-- The count of the items in the bags, which stands behind the equipment. -/
def itemsCountField (heapByte : ℕ → UInt8) (bs : List UInt8) : Option ℕ := do
  let size ← equipmentLayout heapByte bs
  countField (bs.drop size)

/-- The bytes of the bags: a count, and so many items. -/
def bagsLayout (bs : List UInt8) : Option ℕ := do
  let itemsCount ← countField bs
  (itemsSize itemsCount (bs.drop 4)).map (4 + ·)

/-- The bytes of an inventory, if it has the layout of one. -/
def inventoryLayout (heapByte : ℕ → UInt8) (bs : List UInt8) : Option ℕ := do
  let size ← equipmentLayout heapByte bs
  (bagsLayout (bs.drop size)).map (size + ·)

variable {Key : Type}

section Decoder
variable {stream : PacketStream} (heapByte : ℕ → UInt8)

theorem inventoryCount_ok (hw : stream.Whole) (h : 4 ≤ stream.rest.length) :
    inventoryCount stream =
      .ok (leValue (stream.rest.take 4), stream.packetStreamAddOffset 4) := by
  rw [inventoryCount, itemChildField, bind_ok (reads_get hw (by decide) h)]
  rfl

/-- What follows a count is found behind its four bytes. -/
theorem inventoryCount_bind {β : Type} (hw : stream.Whole) {k : ℕ → Unserialize β}
    {good : β → Prop} {size : ℕ → Option ℕ}
    (hk : ∀ n, countField stream.rest = some n →
      Reads (k n) (stream.packetStreamAddOffset 4) good (size n)) :
    Reads (inventoryCount >>= k) stream good
      ((countField stream.rest).bind fun n => (size n).map (4 + ·)) := by
  rw [countField] at hk ⊢
  by_cases h : stream.rest.length < 4
  · rw [if_pos h]
    have hcount : inventoryCount stream = .error .uninitialised := by
      rw [inventoryCount, itemChildField, bind_ok (get_none hw h)]
      rfl
    exact ⟨.uninitialised, bind_error hcount k⟩
  · rw [if_neg h] at hk ⊢
    have hcount : Reads inventoryCount stream (fun n => n = leValue (stream.rest.take 4))
        (some 4) := ⟨_, inventoryCount_ok hw (not_lt.mp h), rfl⟩
    have hbind : Reads (inventoryCount >>= k) stream good
        ((some 4).bind fun m => (size (leValue (stream.rest.take 4))).map (m + ·)) := by
      refine hcount.bind fun n m hm hn => ?_
      obtain rfl := Option.some.inj hm
      rw [hn]
      exact hk _ rfl
    exact hbind

/-- One item's slot is checked before the next item is read. -/
theorem equippedUnserializeSPacket_reads (hw : stream.Whole) (n i : ℕ) (self : Arena Key) :
    Reads (equippedUnserializeSPacket heapByte n i self) stream (fun _ => True)
      (equippedSize heapByte n i stream.rest) := by
  induction n generalizing i self stream with
  | zero => exact reads_pure stream trivial
  | succ n ih =>
    have hitem := itemUnserializeSPacket_reads hw
    rw [equippedSize]
    cases hsize : itemSize stream.rest with
    | none =>
      rw [hsize] at hitem
      obtain ⟨e, hitem⟩ := hitem
      exact ⟨e, by rw [equippedUnserializeSPacket, bind_error hitem]⟩
    | some size =>
      rw [hsize] at hitem
      obtain ⟨item, hitem, hslot⟩ := hitem
      rw [Option.bind_eq_bind, Option.bind_some, equippedUnserializeSPacket]
      by_cases hlt : (itemSlot (heapByte i) stream.rest).toNat < eqSlotCount
      · rw [if_pos hlt]
        have htail := fun self : Arena Key => ih (hw.offset size) (i + 1) self
        simp only [packetStreamAddOffset_rest] at htail
        rw [← hslot] at hlt
        cases hrest : equippedSize heapByte n (i + 1) (stream.rest.drop size) with
        | none =>
          simp only [hrest] at htail
          obtain ⟨e, htail⟩ := htail _
          exact ⟨e, by rw [bind_ok hitem]; simp only [if_pos hlt]; exact htail⟩
        | some m =>
          simp only [hrest] at htail
          obtain ⟨self', htail, -⟩ := htail _
          rw [packetStreamAddOffset_add] at htail
          exact ⟨self', by rw [bind_ok hitem]; simp only [if_pos hlt]; exact htail, trivial⟩
      · rw [if_neg hlt]
        rw [← hslot] at hlt
        exact ⟨.outOfBounds, by rw [bind_ok hitem]; simp only [if_neg hlt]; rfl⟩

theorem appendItem_items (self : Arena Key) (item : Item) :
    (self.appendItem item).items = self.items := rfl

theorem appendItem_bags (self : Arena Key) (item : Item) :
    (self.appendItem item).bags item.category ≠ [] := by
  simp [Arena.appendItem, Arena.itemNew, itemHandleNew]

/-- What the bags hold after the loop: something, if an item was read or was there before. -/
def Filled (self : Arena Key) (n : ℕ) (self' : Arena Key) : Prop :=
  self'.items = self.items ∧ (n = 0 → self' = self) ∧
    ((0 < n ∨ ∃ c, self.bags c ≠ []) → ∃ c, self'.bags c ≠ [])

theorem Filled.step {self self' : Arena Key} {item : Item} {n : ℕ}
    (h : Filled (self.appendItem item) n self') : Filled self (n + 1) self' := by
  obtain ⟨hitems, -, hbags⟩ := h
  refine ⟨hitems.trans (appendItem_items self item), by omega, fun _ => hbags (.inr ?_)⟩
  exact ⟨item.category, appendItem_bags self item⟩

theorem bagsUnserializeSPacket_reads (hw : stream.Whole) (n : ℕ) (self : Arena Key) :
    Reads (bagsUnserializeSPacket n self) stream (Filled self n) (itemsSize n stream.rest) := by
  induction n generalizing self stream with
  | zero =>
    refine reads_pure stream ⟨rfl, fun _ => rfl, ?_⟩
    rintro (h | h)
    · cases h
    · exact h
  | succ n ih =>
    have hitem := itemUnserializeSPacket_reads hw
    rw [itemsSize]
    cases hsize : itemSize stream.rest with
    | none =>
      rw [hsize] at hitem
      obtain ⟨e, hitem⟩ := hitem
      exact ⟨e, by rw [bagsUnserializeSPacket, bind_error hitem]⟩
    | some size =>
      rw [hsize] at hitem
      obtain ⟨item, hitem, -⟩ := hitem
      rw [Option.bind_eq_bind, Option.bind_some, bagsUnserializeSPacket]
      have htail := ih (hw.offset size) (self.appendItem item)
      rw [packetStreamAddOffset_rest] at htail
      cases hrest : itemsSize n (stream.rest.drop size) with
      | none =>
        rw [hrest] at htail
        obtain ⟨e, htail⟩ := htail
        exact ⟨e, by rw [bind_ok hitem, htail]⟩
      | some m =>
        rw [hrest] at htail
        obtain ⟨self', htail, hfilled⟩ := htail
        rw [packetStreamAddOffset_add] at htail
        exact ⟨self', by rw [bind_ok hitem, htail], hfilled.step⟩

/-- The equipment takes the bytes found for it. -/
theorem equipment_reads (hw : stream.Whole) (self : Arena Key) :
    Reads (do equippedUnserializeSPacket heapByte (← inventoryCount) 0 self) stream (fun _ => True)
      (equipmentLayout heapByte stream.rest) := by
  apply inventoryCount_bind hw
  intro n _
  have hread := equippedUnserializeSPacket_reads heapByte (hw.offset 4) n 0 self
  rwa [packetStreamAddOffset_rest] at hread

/-- What the decoder makes of the inventory: an empty hash, and bags that are empty when the
count of their items is zero. -/
def Emptied (itemsCount : Option ℕ) (r : Bool × Arena Key) : Prop :=
  r.1 = true ∧ (∀ key, r.2.items key = none) ∧ ((∀ c, r.2.bags c = []) ↔ itemsCount = some 0)

/-- The decoder behind the equipment. -/
def carriedUnserializeSPacket (self : Arena Key) : Unserialize (Bool × Arena Key) := do
  let itemsCount ← inventoryCount
  let self ← bagsUnserializeSPacket itemsCount self.purge
  return (true, self)

/-- The bags take the bytes found for them. -/
theorem carriedUnserializeSPacket_reads (hw : stream.Whole) (self : Arena Key) :
    Reads (carriedUnserializeSPacket self) stream (Emptied (countField stream.rest))
      (bagsLayout stream.rest) := by
  apply inventoryCount_bind hw
  intro n hn
  rw [hn]
  have hread := bagsUnserializeSPacket_reads (hw.offset 4) n self.purge
  rw [packetStreamAddOffset_rest] at hread
  refine hread.map (fun self => (true, self)) fun self' hself' => ?_
  obtain ⟨hitems, hzero, hfilled⟩ := hself'
  refine ⟨rfl, fun key => congrFun hitems key, fun hbags => ?_, fun h c => ?_⟩
  · by_contra hne
    obtain ⟨c, hc⟩ := hfilled (.inl (Nat.pos_of_ne_zero fun h => hne (congrArg some h)))
    exact hc (hbags c)
  · rw [hzero (Option.some.inj h)]
    rfl

/-- The equipment comes first, and what follows does not depend on its count. -/
theorem inventoryUnserializeSPacket_eq (self : Arena Key) :
    inventoryUnserializeSPacket heapByte self =
      (do equippedUnserializeSPacket heapByte (← inventoryCount) 0 self.freeEquipment) >>=
        carriedUnserializeSPacket := by
  rw [bind_assoc]
  rfl

/-- The decoder takes the bytes of an inventory, and succeeds whenever it has a result. -/
theorem inventoryUnserializeSPacket_reads (hw : stream.Whole) (self : Arena Key) :
    Reads (inventoryUnserializeSPacket heapByte self) stream
      (Emptied (itemsCountField heapByte stream.rest)) (inventoryLayout heapByte stream.rest) := by
  rw [inventoryUnserializeSPacket_eq]
  apply (equipment_reads heapByte hw self.freeEquipment).bind
  intro self' n hn _
  have hread := carriedUnserializeSPacket_reads (hw.offset n) self'
  have hfield : itemsCountField heapByte stream.rest = countField (stream.rest.drop n) := by
    rw [itemsCountField, hn]
    rfl
  rw [hfield]
  rwa [packetStreamAddOffset_rest] at hread

end Decoder

end R1Emu.Commander
