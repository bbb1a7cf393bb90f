import R1Emu.Actor.ItemFraming

/-!
# Round trips of items

When an item comes back from its packet, and when a packet of items is read item by item: no
item comes back that has a string; the decoder takes the two bytes behind an item for a
property when they are the id of an absent one, and it looks at two bytes even where the packet
has ended.
-/
namespace R1Emu.Actor
open R1Emu.Lib.Bytes R1Emu.Packet R1Emu.Packet.PacketStream R1Emu.Property

/-- Equality of items in uid, id, amount, category, properties and equipment slot. -/
structure Item.Agrees (x y : Item) : Prop where
  uid : y.uid = x.uid
  id : y.id = x.id
  amount : y.amount = x.amount
  body : y.body = x.body
  slot : x.category.equipable = true → y.slot = x.slot

/-- What follows shows where the properties end when it starts with none of their ids. -/
theorem framed_iff_of_clear {es : List (ℕ × Option PropertyValue)} {r : List UInt8}
    (hr : ∀ e ∈ es, r.take 2 ≠ leBytes 2 e.1) :
    Framed es r ↔ NoStrings es ∧ (trailingAbsent es = [] ∨ 2 ≤ r.length) := by
  constructor
  · intro h
    refine ⟨h.floats, ?_⟩
    cases hes : trailingAbsent es with
    | nil => exact .inl rfl
    | cons id ids =>
      have hid : id ∈ trailingAbsent es := by
        rw [hes]
        exact List.mem_cons_self ..
      exact .inr (h.clear id hid).1
  · rintro ⟨hfloats, h⟩
    refine ⟨hfloats, fun id hid => ?_⟩
    rcases h with h | h
    · rw [h] at hid
      cases hid
    · refine ⟨h, fun hv => hr _ (trailingAbsent_absent hid) ?_⟩
      have hlen : (r.take 2).length = 2 := by
        rw [List.length_take]
        omega
      have hbytes := leBytes_leValue (r.take 2)
      rw [hlen, hv] at hbytes
      exact hbytes.symm

section Item
variable {stream : PacketStream} {f : List UInt8} (self : Item)

private theorem body_room (hsize : stream.position + (itemSPacket self).length ≤ stream.size) :
    stream.position + (17 + self.slotBytes.length) ≤ stream.size ∧
      (stream.packetStreamAddOffset (17 + self.slotBytes.length)).position +
        (encoding self.body.entries).length ≤
          (stream.packetStreamAddOffset (17 + self.slotBytes.length)).size := by
  rw [itemSPacket, List.length_append, List.length_append, Item.header_length] at hsize
  rw [packetStreamAddOffset_position, packetStreamAddOffset_size]
  omega

private theorem body_rest (hrest : stream.rest = itemSPacket self ++ f) :
    (stream.packetStreamAddOffset (17 + self.slotBytes.length)).rest =
      encoding self.body.entries ++ f := by
  have hlen : (self.header ++ self.slotBytes).length = 17 + self.slotBytes.length := by
    rw [List.length_append, Item.header_length]
  rw [packetStreamAddOffset_rest, hrest, itemSPacket, ← List.append_assoc, List.append_assoc,
    List.drop_left' hlen]

private theorem packet_length : 17 + self.slotBytes.length + (encoding self.body.entries).length =
    (itemSerialized self).length := by
  rw [itemSerialized_eq, itemSPacket, List.length_append, List.length_append, Item.header_length,
    Nat.add_assoc]

/-- An item comes back from its bytes exactly when it is framed by what follows and has no
property that is stored in a wrong field. -/
theorem itemUnserializeSPacket_agrees (hrest : stream.rest = itemSerialized self ++ f)
    (hsize : stream.position + (itemSerialized self).length ≤ stream.size) :
    Recovers itemUnserializeSPacket stream (fun y _ => self.Agrees y)
      (itemSerialized self).length (Framed self.body.entries f ∧ self.body.prAbsent) := by
  rw [← packet_length]
  rw [itemSerialized_eq] at hrest hsize
  obtain ⟨hheader, hroom⟩ := body_room self hsize
  apply itemUnserializeSPacket_recovers self hrest hheader _
    (bodyUnserialize_recovers self.body (body_rest self hrest) hroom)
  intro slot body t hslot
  constructor
  · exact fun h => h.body
  · exact fun h => ⟨rfl, rfl, rfl, h, hslot⟩

/-- The bytes of an item are consumed exactly when it is framed by what follows. -/
theorem itemUnserializeSPacket_consumes (hrest : stream.rest = itemSerialized self ++ f)
    (hsize : stream.position + (itemSerialized self).length ≤ stream.size) :
    Recovers itemUnserializeSPacket stream
      (fun _ t => t = stream.packetStreamAddOffset (itemSerialized self).length)
      (itemSerialized self).length (Framed self.body.entries f) := by
  rw [← packet_length]
  rw [itemSerialized_eq] at hrest hsize
  obtain ⟨hheader, hroom⟩ := body_room self hsize
  apply itemUnserializeSPacket_recovers self hrest hheader _
    (bodyUnserialize_consumes self.body (body_rest self hrest) hroom)
  intro slot body t _
  rw [packetStreamAddOffset_add]

/-- The server packet of an item round-trips exactly when no string is present, its last property
is present or two bytes follow, and it is no accessory with its first property. -/
theorem item_round_trip (r : List UInt8)
    (hr : ∀ e ∈ self.body.entries, r.take 2 ≠ leBytes 2 e.1)
    (hrest : stream.rest = itemSerialized self ++ r)
    (hsize : stream.position + (itemSerialized self).length ≤ stream.size) :
    (∃ y t, itemUnserializeSPacket stream = .ok (y, t) ∧ self.Agrees y) ↔
      self.body.prAbsent ∧ NoStrings self.body.entries ∧
        (trailingAbsent self.body.entries = [] ∨ 2 ≤ r.length) := by
  rw [(itemUnserializeSPacket_agrees self hrest hsize).iff, framed_iff_of_clear hr, and_comm]

end Item

theorem item_round_trip_armor :
    let item : Item := ⟨7, 3, 1, eqSlotNoSlot,
      .armor { cooldown := some 0x3F800000, reinforce := some 0x40000000 }⟩
    ∃ y t, itemUnserializeSPacket (packetStreamInit (itemSerialized item ++ [0, 0]) 100) =
      .ok (y, t) ∧ item.Agrees y := by
  apply (item_round_trip _ [0, 0] _ _ _).mpr
  · refine ⟨trivial, ?_, .inr le_rfl⟩
    simp [NoStrings, ItemBody.entries, entries, itemArmorProperties, floatProperty, stringProperty,
      PropertyValue.format]
  · decide
  · rfl
  · decide +kernel

/-- The PR and the cooldown of an accessory. -/
def ItemBody.accessoryValues : ItemBody → Option UInt32 × Option UInt32
  | .accessory self => (self.pr, self.cooldown)
  | _ => (none, none)

/-- An accessory comes back with its first property in the place of its cooldown. -/
theorem item_round_trip_accessory_lost :
    let item : Item := ⟨7, 3, 1, eqSlotNoSlot, .accessory { pr := some 0x40A00000 }⟩
    NoStrings item.body.entries ∧
      (∀ e ∈ item.body.entries, [0, 0] ≠ leBytes 2 e.1) ∧
      ¬ ∃ y t, itemUnserializeSPacket (packetStreamInit (itemSerialized item ++ [0, 0]) 100) =
        .ok (y, t) ∧ item.Agrees y := by
  refine ⟨?_, by decide, ?_⟩
  · simp [NoStrings, ItemBody.entries, entries, itemAccessoryProperties, floatProperty,
      PropertyValue.format]
  · rintro ⟨y, t, hrun, hagrees⟩
    have hpr : (itemUnserializeSPacket (packetStreamInit (itemSerialized
        ⟨7, 3, 1, eqSlotNoSlot, .accessory { pr := some 0x40A00000 }⟩ ++ [0, 0]) 100)).map
          (fun r => r.1.body.accessoryValues) = .ok (none, some 0x40A00000) := by
      decide +kernel
    rw [hrun] at hpr
    simp only [Except.map, hagrees.body] at hpr
    cases hpr

/-- The items of a bag, read one behind the other. -/
def itemsUnserializeSPacket : ℕ → Unserialize (List Item)
  | 0 => return []
  | n + 1 => do
    let item ← itemUnserializeSPacket
    let items ← itemsUnserializeSPacket n
    return item :: items

/-- Every item is framed by the items behind it and what follows them. -/
def FramedItems : List Item → List UInt8 → Prop
  | [], _ => True
  | x :: xs, r =>
    (Framed x.body.entries (xs.flatMap itemSerialized ++ r) ∧ x.body.prAbsent) ∧ FramedItems xs r

theorem itemsUnserializeSPacket_agrees (xs : List Item) {stream : PacketStream} {r : List UInt8}
    (hrest : stream.rest = xs.flatMap itemSerialized ++ r)
    (hsize : stream.position + (xs.flatMap itemSerialized).length ≤ stream.size) :
    Recovers (itemsUnserializeSPacket xs.length) stream (fun ys _ => List.Forall₂ Item.Agrees xs ys)
      (xs.flatMap itemSerialized).length (FramedItems xs r) := by
  induction xs generalizing stream with
  | nil => exact ⟨fun _ _ _ _ => trivial, fun _ => ⟨[], rfl, .nil⟩⟩
  | cons x xs ih =>
    rw [List.flatMap_cons, List.append_assoc] at hrest
    rw [List.flatMap_cons, List.length_append] at hsize ⊢
    have hitem := itemUnserializeSPacket_agrees x hrest (by omega)
    have hrest' : (stream.packetStreamAddOffset (itemSerialized x).length).rest =
        xs.flatMap itemSerialized ++ r := by
      rw [packetStreamAddOffset_rest, hrest, List.drop_left]
    have hitems := ih hrest' (by rw [packetStreamAddOffset_position, packetStreamAddOffset_size]; omega)
    constructor
    · intro ys t hrun hys
      obtain ⟨y, t', hy, hrun⟩ := bind_eq_ok hrun
      obtain ⟨ys', t'', htail, hrun⟩ := bind_eq_ok hrun
      cases hrun
      obtain ⟨hagrees, hys⟩ := List.forall₂_cons.mp hys
      have hframed := hitem.sound y t' hy hagrees
      -- an item that comes back has consumed its bytes
      obtain ⟨y', hy', -⟩ := hitem.complete hframed
      rw [hy] at hy'
      cases hy'
      exact ⟨hframed, hitems.sound ys' _ htail hys⟩
    · rintro ⟨hframed, hrest⟩
      obtain ⟨y, hy, hagrees⟩ := hitem.complete hframed
      obtain ⟨ys, hys, hagree⟩ := hitems.complete hrest
      rw [packetStreamAddOffset_add] at hys
      refine ⟨y :: ys, ?_, .cons hagrees hagree⟩
      rw [List.length_cons, itemsUnserializeSPacket, bind_ok hy, bind_ok hys]
      rfl

/-- The decoder of an item consumes exactly its bytes, and a list of items comes back, exactly
when each item is framed by what follows it (and none is an accessory with its first
property). -/
theorem items_self_framing (x : Item) (xs : List Item) (r : List UInt8) (stream : PacketStream) :
    (stream.rest = itemSerialized x ++ r →
      stream.position + (itemSerialized x).length ≤ stream.size →
      ((∃ y, itemUnserializeSPacket stream =
          .ok (y, stream.packetStreamAddOffset (itemSerialized x).length)) ↔
        Framed x.body.entries r)) ∧
    (stream.rest = xs.flatMap itemSerialized ++ r →
      stream.position + (xs.flatMap itemSerialized).length ≤ stream.size →
      ((∃ ys, itemsUnserializeSPacket xs.length stream =
          .ok (ys, stream.packetStreamAddOffset (xs.flatMap itemSerialized).length) ∧
          List.Forall₂ Item.Agrees xs ys) ↔ FramedItems xs r)) := by
  constructor
  · intro hrest hsize
    have h := itemUnserializeSPacket_consumes x hrest hsize
    constructor
    · rintro ⟨y, hy⟩
      exact h.sound y _ hy rfl
    · intro hframed
      obtain ⟨y, hy, -⟩ := h.complete hframed
      exact ⟨y, hy⟩
  · intro hrest hsize
    have h := itemsUnserializeSPacket_agrees xs hrest hsize
    constructor
    · rintro ⟨ys, hys, hagrees⟩
      exact h.sound ys _ hys hagrees
    · exact h.complete

/-- A bag whose second item shows where the first one ends. -/
def framedBag : List Item :=
  [⟨7, 3, 1, 0, .consumable {}⟩, ⟨8, 4, 2, 0, .quest { cooldown := some 0 }⟩]

theorem items_self_framing_bag :
    ∃ ys, itemsUnserializeSPacket 2 (packetStreamInit (framedBag.flatMap itemSerialized) 40) =
        .ok (ys, (packetStreamInit (framedBag.flatMap itemSerialized) 40).packetStreamAddOffset
          (framedBag.flatMap itemSerialized).length) ∧
      List.Forall₂ Item.Agrees framedBag ys := by
  have h := (items_self_framing ⟨7, 3, 1, 0, .consumable {}⟩ framedBag []
    (packetStreamInit (framedBag.flatMap itemSerialized) 40)).2 (by simp [packetStreamInit, rest])
    (by decide +kernel)
  apply h.mpr
  have hfirst : NoStrings (ItemBody.consumable {}).entries := by
    simp [NoStrings, ItemBody.entries, entries, itemConsumableProperties, floatProperty]
  have hsecond : NoStrings (ItemBody.quest { cooldown := some 0 }).entries := by
    simp [NoStrings, ItemBody.entries, entries, itemQuestProperties, floatProperty,
      PropertyValue.format]
  exact ⟨⟨⟨hfirst, by decide +kernel⟩, trivial⟩, ⟨⟨hsecond, by decide +kernel⟩, trivial⟩, trivial⟩

/-- The low bytes of the next item's uid are the id of the cooldown that is absent. -/
theorem items_self_framing_uid_consumed :
    ¬ ∃ y, itemUnserializeSPacket (packetStreamInit (itemSerialized ⟨7, 3, 1, 0, .consumable {}⟩ ++
        (itemSerialized ⟨3750, 4, 2, 0, .quest {}⟩ ++ [0, 0])) 36) =
      .ok (y, (packetStreamInit (itemSerialized ⟨7, 3, 1, 0, .consumable {}⟩ ++
        (itemSerialized ⟨3750, 4, 2, 0, .quest {}⟩ ++ [0, 0])) 36).packetStreamAddOffset
          (itemSerialized ⟨7, 3, 1, 0, .consumable {}⟩).length) := by
  rintro ⟨y, hrun⟩
  have hposition : (itemUnserializeSPacket (packetStreamInit
      (itemSerialized ⟨7, 3, 1, 0, .consumable {}⟩ ++
        (itemSerialized ⟨3750, 4, 2, 0, .quest {}⟩ ++ [0, 0])) 36)).map (·.2.position) = .ok 23 := by
    decide +kernel
  have hlength : 0 + (itemSerialized ⟨7, 3, 1, 0, .consumable {}⟩).length ≠ 23 := by
    decide +kernel
  rw [hrun] at hposition
  exact hlength (Except.ok.inj hposition)

end R1Emu.Actor
