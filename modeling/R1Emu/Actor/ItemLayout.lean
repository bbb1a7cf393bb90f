import R1Emu.Actor.ItemPacket
import R1Emu.PropertyLayout

/-!
# Which bytes hold an item

The decoder of an item reads a number of bytes that follows from the category byte and the
ids of the properties, or it ends in a fault: the bytes run out, the category has no
structure, or a string is present.
-/
namespace R1Emu.Actor
open R1Emu.Lib.Bytes R1Emu.Packet R1Emu.Packet.PacketStream R1Emu.Property

/-- The properties a category's decoder looks for; none for a category without a structure. -/
def ItemCategory.shapes : ItemCategory → Option (List (ℕ × PropertyFormat))
  | .consumable => some (itemConsumableProperties.map PropertyField.shape)
  | .armor => some (itemArmorProperties.map PropertyField.shape)
  | .quest => some (itemQuestProperties.map PropertyField.shape)
  | .book => some (itemBookProperties.map PropertyField.shape)
  | .material => some (itemMaterialProperties.map PropertyField.shape)
  | .gem => some (itemGemProperties.map PropertyField.shape)
  | .weapon => some (itemWeaponProperties.map PropertyField.shape)
  | .card => some (itemCardProperties.map PropertyField.shape)
  | .accessory => some (itemAccessoryDecoded.map PropertyField.shape)
  | .subweapon => some (itemSubWeaponProperties.map PropertyField.shape)
  | .currency => some (itemCurrencyProperties.map PropertyField.shape)
  | _ => none

/-- The bytes behind an item's header: the slot of the equipable categories, and properties. -/
def bodySize (category : Option ItemCategory) (bs : List UInt8) : Option ℕ := do
  let category ← category
  let shapes ← category.shapes
  let front := if category.equipable then 1 else 0
  (propertiesSize shapes (bs.drop front)).map (front + ·)

def itemSize (bs : List UInt8) : Option ℕ :=
  if bs.length < 17 then none
  else (bodySize (ItemCategory.ofCode (leValue ((bs.drop 16).take 1))) (bs.drop 17)).map (17 + ·)

/-- The first property of the item's category is present. -/
def ItemBody.firstPresent (self : ItemBody) : Bool := self.entries.head?.any (·.2.isSome)

/-- The slot of an item read as an equipable one. In the other categories that byte is the
lowest one of the pointer to the first property, which is null when the property is absent. -/
def equippedSlot (heapByte slot : UInt8) (body : ItemBody) : UInt8 :=
  if body.category.equipable then slot else if body.firstPresent then heapByte else 0

def bodySlot (heapByte : UInt8) (category : ItemCategory) (bs : List UInt8) : UInt8 :=
  if category.equipable then UInt8.ofNat (leValue (bs.take 1))
  else
    match category.shapes with
    | some ((id, _) :: _) => if leValue (bs.take 2) = id then heapByte else 0
    | _ => 0

/-- The slot that the bytes of an item name. -/
def itemSlot (heapByte : UInt8) (bs : List UInt8) : UInt8 :=
  match ItemCategory.ofCode (leValue ((bs.drop 16).take 1)) with
  | none => 0
  | some category => bodySlot heapByte category (bs.drop 17)

section Body
variable {σ : Type} {stream : PacketStream}

/-- The properties of an item that has no slot. -/
theorem plainBody_reads (hw : stream.Whole) {p : PropertyField σ} {ps : List (PropertyField σ)}
    {empty : σ} (hl : Lawful (p :: ps) empty) (wrap : σ → ItemBody) :
    Reads (do return ((0 : UInt8), wrap (← unserializeProperties (p :: ps) empty))) stream
      (fun r => ∃ x, r.2 = wrap x ∧ ((p.get x).isSome ↔ leValue (stream.rest.take 2) = p.id))
      (propertiesSize ((p :: ps).map PropertyField.shape) stream.rest) := by
  have hread := unserializeProperties_reads hw (p :: ps) empty
  refine (hread.of_run fun x t hrun _ => ?_).map (fun x => ((0 : UInt8), wrap x))
    fun x (hx : (p.get x).isSome ↔ leValue (stream.rest.take 2) = p.id) => ⟨x, rfl, hx⟩
  exact unserializeProperties_first hl hrun

/-- The slot and the properties of an equipable item. -/
theorem equipableBody_reads (hw : stream.Whole) {table : List (PropertyField σ)} (empty : σ)
    (htable : table ≠ []) (wrap : σ → ItemBody) :
    Reads (do
        let slot ← itemEquipableUnserializeSPacket
        return (slot, wrap (← unserializeProperties table empty))) stream
      (fun r => ∃ x, r = (UInt8.ofNat (leValue (stream.rest.take 1)), wrap x))
      ((propertiesSize (table.map PropertyField.shape) (stream.rest.drop 1)).map (1 + ·)) := by
  by_cases hlen : stream.rest.length < 1
  · -- the slot stays as it was initialised, and nothing is left to peek at
    have hslot : itemEquipableUnserializeSPacket stream = .ok (eqSlotNoSlot, stream) := by
      rw [itemEquipableUnserializeSPacket, bind_ok (get_none hw hlen)]
      rfl
    have hempty : stream.rest = [] := List.length_eq_zero_iff.mp (by omega)
    have hread := unserializeProperties_reads hw table empty
    obtain ⟨p, ps, rfl⟩ := List.exists_cons_of_ne_nil htable
    rw [hempty] at hread ⊢
    have hnone : propertiesSize ((p :: ps).map PropertyField.shape) [] = none := rfl
    rw [hnone] at hread
    rw [List.drop_nil, hnone]
    obtain ⟨e, hread⟩ := hread
    exact ⟨e, by rw [bind_ok hslot, bind_error hread]⟩
  · have hslot : itemEquipableUnserializeSPacket stream =
        .ok (UInt8.ofNat (leValue (stream.rest.take 1)), stream.packetStreamAddOffset 1) := by
      rw [itemEquipableUnserializeSPacket, bind_ok (reads_get hw (by decide) (not_lt.mp hlen))]
      rfl
    have hread := unserializeProperties_reads (hw.offset 1) table empty
    rw [packetStreamAddOffset_rest] at hread
    cases hsize : propertiesSize (table.map PropertyField.shape) (stream.rest.drop 1) with
    | none =>
      rw [hsize] at hread
      obtain ⟨e, hread⟩ := hread
      exact ⟨e, by rw [bind_ok hslot, bind_error hread]⟩
    | some n =>
      rw [hsize] at hread
      obtain ⟨x, hread, -⟩ := hread
      refine ⟨_, ?_, x, rfl⟩
      rw [bind_ok hslot, bind_ok hread, packetStreamAddOffset_add]
      rfl

variable {category : ItemCategory} {shapes : List (ℕ × PropertyFormat)}

/-- The body of a category without a slot, from the lemma about its table. -/
theorem plainCategory_reads {d : Unserialize (UInt8 × ItemBody)} {first : ℕ × PropertyFormat}
    {good : σ → Prop} {wrap : σ → ItemBody} (heq : category.equipable = false)
    (hshapes : category.shapes = some (first :: shapes))
    (hread : Reads d stream (fun r => ∃ x, r.2 = wrap x ∧
      (good x ↔ leValue (stream.rest.take 2) = first.1))
      (propertiesSize (first :: shapes) stream.rest))
    (hwrap : ∀ x, (wrap x).category = category ∧ ((wrap x).firstPresent = true ↔ good x)) :
    Reads d stream (fun r => ∀ heapByte,
      equippedSlot heapByte r.1 r.2 = bodySlot heapByte category stream.rest)
      (bodySize (some category) stream.rest) := by
  have hsize : bodySize (some category) stream.rest =
      propertiesSize (first :: shapes) stream.rest := by
    simp [bodySize, hshapes, heq]
  rw [hsize]
  refine hread.of_run fun r _ _ hr heapByte => ?_
  obtain ⟨x, hx, hgood⟩ := hr
  obtain ⟨hcategory, hpresent⟩ := hwrap x
  simp only [equippedSlot, bodySlot, hx, hcategory, heq, hshapes, Bool.false_eq_true, if_false]
  by_cases hid : leValue (stream.rest.take 2) = first.1
  · rw [if_pos hid, if_pos (hpresent.mpr (hgood.mpr hid))]
  · rw [if_neg hid, if_neg fun h => hid (hgood.mp (hpresent.mp h))]

/-- The body of an equipable category. -/
theorem equipableCategory_reads {d : Unserialize (UInt8 × ItemBody)} {wrap : σ → ItemBody}
    (heq : category.equipable = true) (hshapes : category.shapes = some shapes)
    (hread : Reads d stream (fun r => ∃ x, r = (UInt8.ofNat (leValue (stream.rest.take 1)), wrap x))
      ((propertiesSize shapes (stream.rest.drop 1)).map (1 + ·)))
    (hwrap : ∀ x, (wrap x).category = category) :
    Reads d stream (fun r => ∀ heapByte,
      equippedSlot heapByte r.1 r.2 = bodySlot heapByte category stream.rest)
      (bodySize (some category) stream.rest) := by
  have hsize : bodySize (some category) stream.rest =
      (propertiesSize shapes (stream.rest.drop 1)).map (1 + ·) := by
    simp [bodySize, hshapes, heq]
  rw [hsize]
  refine hread.of_run fun r _ _ hr heapByte => ?_
  obtain ⟨x, rfl⟩ := hr
  simp only [equippedSlot, bodySlot, hwrap x, heq, if_true]

/-- The body takes the bytes found for its category, and names the slot found there. -/
theorem itemBodyUnserializeSPacket_reads (hw : stream.Whole) (category : Option ItemCategory) :
    Reads (itemBodyUnserializeSPacket category) stream (fun r => ∃ c, category = some c ∧
      ∀ heapByte, equippedSlot heapByte r.1 r.2 = bodySlot heapByte c stream.rest)
      (bodySize category stream.rest) := by
  cases category with
  | none => exact ⟨_, rfl⟩
  | some c =>
    suffices h : Reads (itemBodyUnserializeSPacket (some c)) stream (fun r => ∀ heapByte,
        equippedSlot heapByte r.1 r.2 = bodySlot heapByte c stream.rest)
        (bodySize (some c) stream.rest) from h.of_run fun r _ _ hr => ⟨c, rfl, hr⟩
    cases c with
    | weapon =>
      exact equipableCategory_reads rfl rfl
        (equipableBody_reads hw _ (List.cons_ne_nil _ _) .weapon) fun _ => rfl
    | armor =>
      exact equipableCategory_reads rfl rfl
        (equipableBody_reads hw _ (List.cons_ne_nil _ _) .armor) fun _ => rfl
    | subweapon =>
      exact equipableCategory_reads rfl rfl
        (equipableBody_reads hw _ (List.cons_ne_nil _ _) .subweapon) fun _ => rfl
    | costume => exact ⟨_, rfl⟩
    | accessory =>
      exact equipableCategory_reads rfl rfl
        (equipableBody_reads hw _ (List.cons_ne_nil _ _) .accessory) fun _ => rfl
    | consumable =>
      apply plainCategory_reads rfl rfl (plainBody_reads hw itemConsumableProperties_lawful .consumable)
      exact fun x => ⟨rfl, Iff.rfl⟩
    | gem =>
      apply plainCategory_reads rfl rfl (plainBody_reads hw itemGemProperties_lawful .gem)
      exact fun x => ⟨rfl, Iff.rfl⟩
    | material =>
      apply plainCategory_reads rfl rfl (plainBody_reads hw itemMaterialProperties_lawful .material)
      exact fun x => ⟨rfl, Iff.rfl⟩
    | card =>
      apply plainCategory_reads rfl rfl (plainBody_reads hw itemCardProperties_lawful .card)
      exact fun x => ⟨rfl, Iff.rfl⟩
    | collection => exact ⟨_, rfl⟩
    | book =>
      apply plainCategory_reads rfl rfl (plainBody_reads hw itemBookProperties_lawful .book)
      exact fun x => ⟨rfl, Iff.rfl⟩
    | quest =>
      apply plainCategory_reads rfl rfl (plainBody_reads hw itemQuestProperties_lawful .quest)
      exact fun x => ⟨rfl, Iff.rfl⟩
    | currency =>
      apply plainCategory_reads rfl rfl (plainBody_reads hw itemCurrencyProperties_lawful .currency)
      exact fun x => ⟨rfl, Iff.rfl⟩
    | count => exact ⟨_, rfl⟩

end Body

section Item
variable {stream : PacketStream}

private theorem field_ok (hw : stream.Whole) {n : ℕ} (hn : 0 < n) (h : n ≤ stream.rest.length) :
    itemChildField n stream =
      .ok (leValue (stream.rest.take n), stream.packetStreamAddOffset n) := by
  rw [itemChildField, bind_ok (reads_get hw hn h)]
  rfl

private theorem field_error (hw : stream.Whole) {n : ℕ} (h : stream.rest.length < n) :
    itemChildField n stream = .error .uninitialised := by
  rw [itemChildField, bind_ok (get_none hw h)]
  rfl

/-- Without its uid the actor keeps the one it was initialised with, and nothing is read. -/
theorem actorUnserializeSPacket_reads (hw : stream.Whole) :
    Reads actorUnserializeSPacket stream (fun _ => True)
      (some (if stream.rest.length < 8 then 0 else 8)) := by
  by_cases h : stream.rest.length < 8
  · rw [if_pos h]
    exact ⟨_, by rw [actorUnserializeSPacket, bind_ok (get_none hw h)]; rfl, trivial⟩
  · rw [if_neg h]
    refine ⟨UInt64.ofNat (leValue (stream.rest.take 8)), ?_, trivial⟩
    rw [actorUnserializeSPacket, bind_ok (reads_get hw (by decide) (not_lt.mp h))]
    rfl

/-- Three fields of the header are read where they are, or one of them stays uninitialised. -/
theorem itemUnserializeSPacket_short (hw : stream.Whole) (h : stream.rest.length < 17) :
    ∃ e, itemUnserializeSPacket stream = .error e := by
  obtain ⟨uid, hactor, -⟩ := actorUnserializeSPacket_reads hw
  rw [itemUnserializeSPacket, bind_ok hactor]
  generalize hn : (if stream.rest.length < 8 then 0 else 8) = n
  have hn : n = 0 ∧ stream.rest.length < 8 ∨ n = 8 := by
    split at hn <;> omega
  have hlen : ∀ m, (stream.packetStreamAddOffset m).rest.length = stream.rest.length - m := by
    intro m
    rw [packetStreamAddOffset_rest, List.length_drop]
  by_cases hid : stream.rest.length - n < 4
  · exact ⟨_, by rw [bind_error (field_error (hw.offset n) (by rw [hlen]; exact hid))]⟩
  · rw [bind_ok (field_ok (hw.offset n) (by decide) (by rw [hlen]; omega)),
      packetStreamAddOffset_add]
    by_cases hamount : stream.rest.length - (n + 4) < 4
    · exact ⟨_, by rw [bind_error (field_error (hw.offset _) (by rw [hlen]; exact hamount))]⟩
    · rw [bind_ok (field_ok (hw.offset _) (by decide) (by rw [hlen]; omega)),
        packetStreamAddOffset_add]
      exact ⟨_, by rw [bind_error (field_error (hw.offset _) (by rw [hlen]; omega))]⟩

/-- The header is read where it is, and its last byte is the category of the body. -/
theorem itemUnserializeSPacket_long (hw : stream.Whole) (hlen : ¬ stream.rest.length < 17) :
    ∃ uid id amount, itemUnserializeSPacket stream = (do
      let (slot, body) ← itemBodyUnserializeSPacket
        (ItemCategory.ofCode (leValue ((stream.rest.drop 16).take 1)))
      return (⟨uid, UInt32.ofNat id, UInt32.ofNat amount, slot, body⟩ : Item))
        (stream.packetStreamAddOffset 17) := by
  obtain ⟨uid, hactor, -⟩ := actorUnserializeSPacket_reads hw
  rw [if_neg (by omega)] at hactor
  have hrest : ∀ m, (stream.packetStreamAddOffset m).rest = stream.rest.drop m := fun m =>
    packetStreamAddOffset_rest stream m
  obtain ⟨id, hid⟩ : ∃ id, itemChildField 4 (stream.packetStreamAddOffset 8) =
      .ok (id, stream.packetStreamAddOffset 12) :=
    ⟨_, field_ok (hw.offset 8) (by decide) (by rw [hrest, List.length_drop]; omega)⟩
  obtain ⟨amount, hamount⟩ : ∃ amount, itemChildField 4 (stream.packetStreamAddOffset 12) =
      .ok (amount, stream.packetStreamAddOffset 16) :=
    ⟨_, field_ok (hw.offset 12) (by decide) (by rw [hrest, List.length_drop]; omega)⟩
  have hcategory := field_ok (hw.offset 16) (n := 1) (by decide)
    (by rw [hrest, List.length_drop]; omega)
  rw [packetStreamAddOffset_add, hrest] at hcategory
  exact ⟨uid, id, amount, by rw [itemUnserializeSPacket, bind_ok hactor, bind_ok hid,
    bind_ok hamount, bind_ok hcategory]⟩

/-- An item takes the bytes found for it, and names the slot found there. -/
theorem itemUnserializeSPacket_reads (hw : stream.Whole) :
    Reads itemUnserializeSPacket stream
      (fun item => ∀ heapByte,
        equippedSlot heapByte item.slot item.body = itemSlot heapByte stream.rest)
      (itemSize stream.rest) := by
  by_cases hlen : stream.rest.length < 17
  · rw [itemSize, if_pos hlen]
    exact itemUnserializeSPacket_short hw hlen
  · obtain ⟨uid, id, amount, hheader⟩ := itemUnserializeSPacket_long hw hlen
    have hbody := itemBodyUnserializeSPacket_reads (hw.offset 17)
      (ItemCategory.ofCode (leValue ((stream.rest.drop 16).take 1)))
    rw [packetStreamAddOffset_rest] at hbody
    rw [itemSize, if_neg hlen]
    cases hsize : bodySize (ItemCategory.ofCode (leValue ((stream.rest.drop 16).take 1)))
        (stream.rest.drop 17) with
    | none =>
      rw [hsize] at hbody
      obtain ⟨e, hbody⟩ := hbody
      exact ⟨e, by rw [hheader, bind_error hbody]⟩
    | some n =>
      rw [hsize] at hbody
      obtain ⟨⟨slot, body⟩, hbody, c, hc, hslot⟩ := hbody
      rw [packetStreamAddOffset_add] at hbody
      refine ⟨⟨uid, UInt32.ofNat id, UInt32.ofNat amount, slot, body⟩, ?_, fun heapByte => ?_⟩
      · rw [hheader, bind_ok hbody]
        rfl
      · rw [itemSlot, hc]
        exact hslot heapByte

/-- The body is one of the category. -/
theorem itemBodyUnserializeSPacket_category {category : Option ItemCategory}
    {r : (UInt8 × ItemBody) × PacketStream}
    (h : itemBodyUnserializeSPacket category stream = .ok r) : category = some r.1.2.category := by
  rcases category with _ | category
  · cases h
  cases category
  case costume => cases h
  case collection => cases h
  case count => cases h
  case armor | weapon | accessory | subweapon =>
    obtain ⟨slot, t, -, h⟩ := bind_eq_ok h
    obtain ⟨x, t, -, h⟩ := bind_eq_ok h
    cases h
    rfl
  all_goals
    obtain ⟨x, t, -, h⟩ := bind_eq_ok h
    cases h
    rfl

theorem itemUnserializeSPacket_category (hw : stream.Whole) {r : Item × PacketStream}
    (h : itemUnserializeSPacket stream = .ok r) :
    ItemCategory.ofCode (leValue ((stream.rest.drop 16).take 1)) = some r.1.category := by
  by_cases hlen : stream.rest.length < 17
  · obtain ⟨e, he⟩ := itemUnserializeSPacket_short hw hlen
    cases he.symm.trans h
  · obtain ⟨uid, id, amount, hheader⟩ := itemUnserializeSPacket_long hw hlen
    rw [hheader] at h
    obtain ⟨⟨slot, body⟩, t, hbody, h⟩ := bind_eq_ok h
    cases h
    exact itemBodyUnserializeSPacket_category hbody

end Item

end R1Emu.Actor
