import R1Emu.Actor.ItemPacket

/-!
# Framing of the item packet

Serialising an item with room for it appends one fixed byte string. An item that was
serialised comes back exactly when its properties are framed by what follows them and it is
no accessory with the property that the decoder stores in the wrong field.
-/
namespace R1Emu.Actor
open R1Emu.Lib.Bytes R1Emu.Packet R1Emu.Packet.PacketStream R1Emu.Property

def Item.header (self : Item) : List UInt8 :=
  leBytes 8 self.uid.toNat ++ (leBytes 4 self.id.toNat ++ leBytes 4 self.amount.toNat ++
    leBytes 1 self.category.code)

def Item.slotBytes (self : Item) : List UInt8 :=
  if self.category.equipable then leBytes 1 self.slot.toNat else []

/-- The bytes of an item. -/
def itemSPacket (self : Item) : List UInt8 :=
  self.header ++ (self.slotBytes ++ encoding self.body.entries)

@[simp] theorem Item.header_length (self : Item) : self.header.length = 17 := by
  simp [Item.header]

theorem itemBodySerializeSPacket_writes (self : Item) :
    Writes (itemBodySerializeSPacket self) (self.slotBytes ++ encoding self.body.entries) := by
  obtain ⟨uid, id, amount, slot, body⟩ := self
  cases body with
  | consumable x => exact serializeProperties_writes itemConsumableProperties x
  | armor x => exact (writes_append _).comp (serializeProperties_writes itemArmorProperties x)
  | quest x => exact serializeProperties_writes itemQuestProperties x
  | book x => exact serializeProperties_writes itemBookProperties x
  | material x => exact serializeProperties_writes itemMaterialProperties x
  | gem x => exact serializeProperties_writes itemGemProperties x
  | weapon x => exact (writes_append _).comp (serializeProperties_writes itemWeaponProperties x)
  | card x => exact serializeProperties_writes itemCardProperties x
  | accessory x =>
    exact (writes_append _).comp (serializeProperties_writes itemAccessoryProperties x)
  | subweapon x =>
    exact (writes_append _).comp (serializeProperties_writes itemSubWeaponProperties x)
  | currency x => exact serializeProperties_writes itemCurrencyProperties x

/-- With room for it, serialising an item appends its bytes. -/
theorem itemSerializeSPacket_writes (self : Item) :
    Writes (itemSerializeSPacket self) (itemSPacket self) := by
  have hactor : Writes (actorSerializeSPacket self.uid) (leBytes 8 self.uid.toNat) :=
    writes_append _
  have hchild : Writes (itemChildSerializeSPacket self) (leBytes 4 self.id.toNat ++
      leBytes 4 self.amount.toNat ++ leBytes 1 self.category.code) :=
    ((writes_append _).comp (writes_append _)).comp (writes_append _)
  exact (hactor.comp hchild).comp (itemBodySerializeSPacket_writes self)

/-- The size an item announces is the size of its bytes. -/
theorem itemGetSPacketSize_eq (self : Item) :
    itemGetSPacketSize self = (itemSPacket self).length := by
  have hbody : itemBodyGetSPacketSize self.body =
      self.slotBytes.length + (encoding self.body.entries).length := by
    rw [Item.slotBytes, Item.category]
    cases self.body <;>
      simp only [itemBodyGetSPacketSize, itemConsumableGetSPacketSize, itemArmorGetSPacketSize,
        itemQuestGetSPacketSize, itemBookGetSPacketSize, itemMaterialGetSPacketSize,
        itemGemGetSPacketSize, itemWeaponGetSPacketSize, itemCardGetSPacketSize,
        itemAccessoryGetSPacketSize, itemSubWeaponGetSPacketSize, itemCurrencyGetSPacketSize,
        propertiesGetSPacketSize_eq] <;>
      simp [ItemBody.category, ItemCategory.equipable, ItemBody.entries]
  rw [itemGetSPacketSize, hbody, itemSPacket, List.length_append, List.length_append,
    Item.header_length]

/-- An item serialised into a buffer of the size it announces. -/
def itemSerialized (self : Item) : List UInt8 :=
  let size := itemGetSPacketSize self
  (itemSerializeSPacket self (packetStreamInit (List.replicate size 0) size)).written

theorem itemSerialized_eq (self : Item) : itemSerialized self = itemSPacket self := by
  have hsize := itemGetSPacketSize_eq self
  have hlen : (List.replicate (itemGetSPacketSize self) (0 : UInt8)).length =
      itemGetSPacketSize self := List.length_replicate
  have happend : itemSerializeSPacket self
      (packetStreamInit (List.replicate (itemGetSPacketSize self) 0) (itemGetSPacketSize self)) =
        (packetStreamInit (List.replicate (itemGetSPacketSize self) 0)
          (itemGetSPacketSize self)).packetStreamAppend (itemSPacket self) := by
    apply itemSerializeSPacket_writes self
    · exact hlen.ge
    · rw [← hsize]
      exact (Nat.zero_add _).le
  have hwritten := written_append (List.replicate (itemGetSPacketSize self) 0) (itemSPacket self)
    (by rw [hlen, hsize])
  rw [hlen] at hwritten
  rw [itemSerialized, happend, hwritten]

section Decode
variable {stream : PacketStream} {f : List UInt8}

/-- The first `n` bytes are available to a get. -/
private theorem get_front {bs : List UInt8} {n : ℕ} (hn : bs.length = n) (hpos : 0 < n)
    (hrest : stream.rest = bs ++ f) (hsize : stream.position + n ≤ stream.size) :
    packetStreamGet n stream = .ok (some bs, stream.packetStreamAddOffset n) := by
  rw [packetStreamGet_ok hpos (by rw [hrest, List.length_append]; omega) hsize, hrest,
    List.take_left' hn]

theorem actorUnserializeSPacket_ok {uid : UInt64}
    (hrest : stream.rest = leBytes 8 uid.toNat ++ f)
    (hsize : stream.position + 8 ≤ stream.size) :
    actorUnserializeSPacket stream = .ok (uid, stream.packetStreamAddOffset 8) := by
  have hvalue : UInt64.ofNat (leValue (leBytes 8 uid.toNat)) = uid := by
    rw [leValue_leBytes_of_lt uid.toNat_lt, UInt64.ofNat_toNat]
  rw [actorUnserializeSPacket, bind_ok (get_front (leBytes_length 8 _) (by decide) hrest hsize)]
  simp only [hvalue]
  rfl

theorem itemChildField_ok {size n : ℕ} (hpos : 0 < size) (hn : n < 256 ^ size)
    (hrest : stream.rest = leBytes size n ++ f)
    (hsize : stream.position + size ≤ stream.size) :
    itemChildField size stream = .ok (n, stream.packetStreamAddOffset size) := by
  rw [itemChildField, bind_ok (get_front (leBytes_length size n) hpos hrest hsize)]
  simp only [leValue_leBytes_of_lt hn]
  rfl

theorem itemEquipableUnserializeSPacket_ok {slot : UInt8}
    (hrest : stream.rest = leBytes 1 slot.toNat ++ f)
    (hsize : stream.position + 1 ≤ stream.size) :
    itemEquipableUnserializeSPacket stream = .ok (slot, stream.packetStreamAddOffset 1) := by
  have hvalue : UInt8.ofNat (leValue (leBytes 1 slot.toNat)) = slot := by
    rw [leValue_leBytes_of_lt slot.toNat_lt, UInt8.ofNat_toNat]
  rw [itemEquipableUnserializeSPacket,
    bind_ok (get_front (leBytes_length 1 _) (by decide) hrest hsize)]
  simp only [hvalue]
  rfl

end Decode

/-- The decoder of the properties of a category's items. -/
def ItemCategory.bodyUnserialize : ItemCategory → Unserialize ItemBody
  | .consumable => return .consumable (← itemConsumableUnserializeSPacket {})
  | .armor => return .armor (← itemArmorUnserializeSPacket {})
  | .quest => return .quest (← itemQuestUnserializeSPacket {})
  | .book => return .book (← itemBookUnserializeSPacket {})
  | .material => return .material (← itemMaterialUnserializeSPacket {})
  | .gem => return .gem (← itemGemUnserializeSPacket {})
  | .weapon => return .weapon (← itemWeaponUnserializeSPacket {})
  | .card => return .card (← itemCardUnserializeSPacket {})
  | .accessory => return .accessory (← itemAccessoryUnserializeSPacket {})
  | .subweapon => return .subweapon (← itemSubWeaponUnserializeSPacket {})
  | .currency => return .currency (← itemCurrencyUnserializeSPacket {})
  | _ => fault .nullDereference

theorem itemBodyUnserializeSPacket_plain {body : ItemBody} (h : body.category.equipable = false) :
    itemBodyUnserializeSPacket (some body.category) =
      (do return (0, ← body.category.bodyUnserialize)) := by
  cases body <;>
    simp_all [ItemBody.category, ItemCategory.equipable, itemBodyUnserializeSPacket,
      ItemCategory.bodyUnserialize]

theorem itemBodyUnserializeSPacket_equipable {body : ItemBody}
    (h : body.category.equipable = true) :
    itemBodyUnserializeSPacket (some body.category) = (do
      let slot ← itemEquipableUnserializeSPacket
      return (slot, ← body.category.bodyUnserialize)) := by
  cases body <;>
    simp_all [ItemBody.category, ItemCategory.equipable, itemBodyUnserializeSPacket,
      ItemCategory.bodyUnserialize]

/-- The only property that the decoder stores in a wrong field. -/
def ItemBody.prAbsent : ItemBody → Prop
  | .accessory x => x.pr = none
  | _ => True

section Accessory
variable {stream : PacketStream} {f : List UInt8} (x : ItemAccessory)

theorem itemAccessoryDecoded_expects :
    Expects itemAccessoryDecoded (entries itemAccessoryProperties x) := by
  have h := entries_expects itemAccessoryProperties_lawful (fun _ hp => hp) x
  obtain ⟨hpr, hcooldown⟩ := List.forall₂_cons.mp h
  exact .cons hpr hcooldown

/-- Whatever property is decoded, it is stored in the cooldown. -/
theorem itemAccessoryDecoded_set {p : PropertyField ItemAccessory}
    (hp : p ∈ itemAccessoryDecoded) (y : ItemAccessory) :
    p.format = .float ∧ (∀ bits, p.set (.float bits) y = { y with cooldown := some bits }) ∧
      ∀ s, p.set (.string s) y = y := by
  simp only [itemAccessoryDecoded, List.mem_cons, List.not_mem_nil, or_false] at hp
  rcases hp with rfl | rfl <;> exact ⟨rfl, fun _ => rfl, fun _ => rfl⟩

/-- The decoded accessory has the last property read in its cooldown. -/
theorem itemAccessoryDecoded_stored :
    stored itemAccessoryDecoded (entries itemAccessoryProperties x) {} =
      ⟨none, x.cooldown <|> x.pr⟩ := by
  obtain ⟨pr, cooldown⟩ := x
  cases pr <;> cases cooldown <;> rfl

theorem itemAccessoryUnserializeSPacket_pr {y : ItemAccessory} {t : PacketStream}
    (h : itemAccessoryUnserializeSPacket {} stream = .ok (y, t)) : y.pr = none := by
  apply unserializeProperties_keeps (Q := fun y : ItemAccessory => y.pr = none) _ rfl h
  intro p hp v y hy
  obtain ⟨-, hfloat, hstring⟩ := itemAccessoryDecoded_set hp y
  cases v with
  | float bits => rw [hfloat, hy]
  | string s => rw [hstring, hy]

/-- The cooldown is absent from an accessory with a property absent behind the last one. -/
theorem itemAccessory_trailingAbsent {id : ℕ}
    (h : id ∈ trailingAbsent (entries itemAccessoryProperties x)) : x.cooldown = none := by
  obtain ⟨pr, cooldown⟩ := x
  cases cooldown with
  | none => rfl
  | some bits => simp [entries, itemAccessoryProperties, floatProperty, trailingAbsent] at h

theorem itemAccessoryUnserializeSPacket_recovers
    (hrest : stream.rest = encoding (entries itemAccessoryProperties x) ++ f)
    (hsize : stream.position + (encoding (entries itemAccessoryProperties x)).length ≤
      stream.size) :
    Recovers (itemAccessoryUnserializeSPacket {}) stream (fun y _ => y = x)
      (encoding (entries itemAccessoryProperties x)).length
      (Framed (entries itemAccessoryProperties x) f ∧ x.pr = none) where
  sound z t hrun hz := by
    subst hz
    refine ⟨?_, itemAccessoryUnserializeSPacket_pr hrun⟩
    rcases framed_or_found (itemAccessoryDecoded_expects z)
      (itemAccessoryProperties_lawful.entries_id_lt z)
      (itemAccessoryProperties_lawful.entries_nodup z) hrest hsize hrun with
      h | ⟨front, p, behind, y', v, t', htable, habsent, -, hv, hbehind⟩
    · exact h
    · -- the property found ends up in the cooldown, which was absent
      have hmem : ∀ q ∈ p :: behind, q ∈ itemAccessoryDecoded := by
        rw [htable]
        exact fun q hq => List.mem_append_right _ hq
      obtain ⟨hformat, hfloat, -⟩ := itemAccessoryDecoded_set (hmem p (List.mem_cons_self ..)) y'
      have hset : (p.set v y').cooldown ≠ none := by
        rw [hformat] at hv
        cases v with
        | float bits => simp [hfloat]
        | string s => cases hv
      have hkept := unserializeProperties_keeps (Q := fun y : ItemAccessory => y.cooldown ≠ none)
        (fun q hq v y hy => by
          obtain ⟨-, hfloat, hstring⟩ :=
            itemAccessoryDecoded_set (hmem q (List.mem_cons_of_mem _ hq)) y
          cases v with
          | float bits => simp [hfloat]
          | string s => rwa [hstring]) hset hbehind
      exact absurd (itemAccessory_trailingAbsent z habsent) hkept
  complete h := by
    refine ⟨_, unserializeProperties_framed (itemAccessoryDecoded_expects x)
      (itemAccessoryProperties_lawful.entries_id_lt x)
      (itemAccessoryProperties_lawful.entries_nodup x) {} hrest hsize h.1, ?_⟩
    obtain ⟨pr, cooldown⟩ := x
    obtain rfl : pr = none := h.2
    rw [itemAccessoryDecoded_stored]
    cases cooldown <;> rfl

theorem itemAccessoryUnserializeSPacket_consumes
    (hrest : stream.rest = encoding (entries itemAccessoryProperties x) ++ f)
    (hsize : stream.position + (encoding (entries itemAccessoryProperties x)).length ≤
      stream.size) :
    Recovers (itemAccessoryUnserializeSPacket {}) stream
      (fun _ t => t = stream.packetStreamAddOffset
        (encoding (entries itemAccessoryProperties x)).length)
      (encoding (entries itemAccessoryProperties x)).length
      (Framed (entries itemAccessoryProperties x) f) :=
  unserializeProperties_consumes (itemAccessoryDecoded_expects x)
    (itemAccessoryProperties_lawful.entries_id_lt x)
    (itemAccessoryProperties_lawful.entries_nodup x) {} hrest hsize

end Accessory

section Body
variable {stream : PacketStream} {f : List UInt8}

private theorem table_consumes {σ : Type} {table : List (PropertyField σ)} {empty : σ}
    (hl : Lawful table empty) (mk : σ → ItemBody) (x : σ)
    (hrest : stream.rest = encoding (entries table x) ++ f)
    (hsize : stream.position + (encoding (entries table x)).length ≤ stream.size) :
    Recovers (do return mk (← unserializeProperties table empty)) stream
      (fun _ t => t = stream.packetStreamAddOffset (encoding (entries table x)).length)
      (encoding (entries table x)).length (Framed (entries table x) f) :=
  (unserializeProperties_consumes (entries_expects hl (fun _ hp => hp) x) (hl.entries_id_lt x)
    (hl.entries_nodup x) empty hrest hsize).map mk fun _ _ => Iff.rfl

private theorem table_recovers {σ : Type} {table : List (PropertyField σ)} {empty : σ}
    (hl : Lawful table empty) {mk : σ → ItemBody} (hmk : ∀ a b, mk a = mk b ↔ a = b) (x : σ)
    (hrest : stream.rest = encoding (entries table x) ++ f)
    (hsize : stream.position + (encoding (entries table x)).length ≤ stream.size) :
    Recovers (do return mk (← unserializeProperties table empty)) stream (fun y _ => y = mk x)
      (encoding (entries table x)).length (Framed (entries table x) f ∧ True) := by
  rw [and_true]
  exact (unserializeProperties_recovers hl x hrest hsize).map mk fun a _ => hmk a x

/-- The properties come back exactly when they are framed and none is stored elsewhere. -/
theorem bodyUnserialize_recovers (body : ItemBody)
    (hrest : stream.rest = encoding body.entries ++ f)
    (hsize : stream.position + (encoding body.entries).length ≤ stream.size) :
    Recovers body.category.bodyUnserialize stream (fun y _ => y = body)
      (encoding body.entries).length (Framed body.entries f ∧ body.prAbsent) := by
  cases body with
  | consumable x => exact table_recovers itemConsumableProperties_lawful (by simp) x hrest hsize
  | armor x => exact table_recovers itemArmorProperties_lawful (by simp) x hrest hsize
  | quest x => exact table_recovers itemQuestProperties_lawful (by simp) x hrest hsize
  | book x => exact table_recovers itemBookProperties_lawful (by simp) x hrest hsize
  | material x => exact table_recovers itemMaterialProperties_lawful (by simp) x hrest hsize
  | gem x => exact table_recovers itemGemProperties_lawful (by simp) x hrest hsize
  | weapon x => exact table_recovers itemWeaponProperties_lawful (by simp) x hrest hsize
  | card x => exact table_recovers itemCardProperties_lawful (by simp) x hrest hsize
  | accessory x =>
    exact (itemAccessoryUnserializeSPacket_recovers x hrest hsize).map ItemBody.accessory (by simp)
  | subweapon x => exact table_recovers itemSubWeaponProperties_lawful (by simp) x hrest hsize
  | currency x => exact table_recovers itemCurrencyProperties_lawful (by simp) x hrest hsize

/-- The bytes of the properties are consumed exactly when they are framed. -/
theorem bodyUnserialize_consumes (body : ItemBody)
    (hrest : stream.rest = encoding body.entries ++ f)
    (hsize : stream.position + (encoding body.entries).length ≤ stream.size) :
    Recovers body.category.bodyUnserialize stream
      (fun _ t => t = stream.packetStreamAddOffset (encoding body.entries).length)
      (encoding body.entries).length (Framed body.entries f) := by
  cases body with
  | consumable x => exact table_consumes itemConsumableProperties_lawful _ x hrest hsize
  | armor x => exact table_consumes itemArmorProperties_lawful _ x hrest hsize
  | quest x => exact table_consumes itemQuestProperties_lawful _ x hrest hsize
  | book x => exact table_consumes itemBookProperties_lawful _ x hrest hsize
  | material x => exact table_consumes itemMaterialProperties_lawful _ x hrest hsize
  | gem x => exact table_consumes itemGemProperties_lawful _ x hrest hsize
  | weapon x => exact table_consumes itemWeaponProperties_lawful _ x hrest hsize
  | card x => exact table_consumes itemCardProperties_lawful _ x hrest hsize
  | accessory x =>
    exact (itemAccessoryUnserializeSPacket_consumes x hrest hsize).map _ fun _ _ => Iff.rfl
  | subweapon x => exact table_consumes itemSubWeaponProperties_lawful _ x hrest hsize
  | currency x => exact table_consumes itemCurrencyProperties_lawful _ x hrest hsize

end Body

section Item
variable {stream : PacketStream} {f : List UInt8} (self : Item)

/-- Behind the header, the category decides how the decoder goes on. -/
theorem itemUnserializeSPacket_header (hrest : stream.rest = itemSPacket self ++ f)
    (hsize : stream.position + 17 ≤ stream.size) :
    itemUnserializeSPacket stream =
      (do
        let (slot, body) ← itemBodyUnserializeSPacket (some self.category)
        return ⟨self.uid, self.id, self.amount, slot, body⟩ : Unserialize Item)
      (stream.packetStreamAddOffset 17) := by
  rw [itemSPacket, Item.header] at hrest
  simp only [List.append_assoc] at hrest
  have hid : (stream.packetStreamAddOffset 8).rest = leBytes 4 self.id.toNat ++
      (leBytes 4 self.amount.toNat ++ (leBytes 1 self.category.code ++
        (self.slotBytes ++ (encoding self.body.entries ++ f)))) := by
    rw [packetStreamAddOffset_rest, hrest, List.drop_left' (leBytes_length 8 _)]
  have hamount : (stream.packetStreamAddOffset 12).rest = leBytes 4 self.amount.toNat ++
      (leBytes 1 self.category.code ++ (self.slotBytes ++ (encoding self.body.entries ++ f))) := by
    rw [← packetStreamAddOffset_add stream 8 4, packetStreamAddOffset_rest, hid,
      List.drop_left' (leBytes_length 4 _)]
  have hcategory : (stream.packetStreamAddOffset 16).rest = leBytes 1 self.category.code ++
      (self.slotBytes ++ (encoding self.body.entries ++ f)) := by
    rw [← packetStreamAddOffset_add stream 12 4, packetStreamAddOffset_rest, hamount,
      List.drop_left' (leBytes_length 4 _)]
  have hread := itemChildField_ok (by decide) self.id.toNat_lt hid
    (by rw [packetStreamAddOffset_position, packetStreamAddOffset_size]; omega)
  have hread' := itemChildField_ok (by decide) self.amount.toNat_lt hamount
    (by rw [packetStreamAddOffset_position, packetStreamAddOffset_size]; omega)
  have hread'' := itemChildField_ok (by decide) self.category.code_lt hcategory
    (by rw [packetStreamAddOffset_position, packetStreamAddOffset_size]; omega)
  rw [packetStreamAddOffset_add] at hread hread' hread''
  rw [itemUnserializeSPacket, bind_ok (actorUnserializeSPacket_ok hrest (by omega)),
    bind_ok hread, bind_ok hread', bind_ok hread'', ItemCategory.ofCode_code,
    UInt32.ofNat_toNat, UInt32.ofNat_toNat]

/-- What the decoder of the properties recovers, the decoder of the item recovers. -/
theorem itemUnserializeSPacket_recovers {n : ℕ} {P : Prop} {good : ItemBody → PacketStream → Prop}
    {good' : Item → PacketStream → Prop} (hrest : stream.rest = itemSPacket self ++ f)
    (hsize : stream.position + (17 + self.slotBytes.length) ≤ stream.size)
    (hgood : ∀ slot body t, (self.category.equipable = true → slot = self.slot) →
      (good' ⟨self.uid, self.id, self.amount, slot, body⟩ t ↔ good body t))
    (hbody : Recovers self.category.bodyUnserialize
      (stream.packetStreamAddOffset (17 + self.slotBytes.length)) good n P) :
    Recovers itemUnserializeSPacket stream good' (17 + self.slotBytes.length + n) P := by
  rw [Nat.add_assoc]
  have hpair : Recovers (itemBodyUnserializeSPacket (some self.category))
      (stream.packetStreamAddOffset 17)
      (fun p t => good' ⟨self.uid, self.id, self.amount, p.1, p.2⟩ t)
      (self.slotBytes.length + n) P := by
    rw [← packetStreamAddOffset_add] at hbody
    cases hequip : self.category.equipable with
    | false =>
      have hslot : self.slotBytes = [] := by rw [Item.slotBytes, hequip]; rfl
      rw [hslot] at hbody ⊢
      rw [Item.category, itemBodyUnserializeSPacket_plain hequip, List.length_nil, Nat.zero_add]
      apply hbody.map
      exact fun body t => hgood 0 body t fun h => absurd (hequip.symm.trans h) (by decide)
    | true =>
      have hslot : self.slotBytes = leBytes 1 self.slot.toNat := by
        rw [Item.slotBytes, if_pos hequip]
      have hlen : self.slotBytes.length = 1 := by rw [hslot, leBytes_length]
      rw [hlen] at hbody hsize ⊢
      have hread : itemEquipableUnserializeSPacket (stream.packetStreamAddOffset 17) =
          .ok (self.slot, (stream.packetStreamAddOffset 17).packetStreamAddOffset 1) := by
        apply itemEquipableUnserializeSPacket_ok (f := encoding self.body.entries ++ f)
        · rw [packetStreamAddOffset_rest, hrest, itemSPacket, List.append_assoc,
            List.drop_left' self.header_length, hslot, List.append_assoc]
        · rw [packetStreamAddOffset_position, packetStreamAddOffset_size]
          omega
      rw [Item.category, itemBodyUnserializeSPacket_equipable hequip]
      apply Recovers.after hread
      exact hbody.map _ fun body t => hgood self.slot body t fun _ => rfl
  have hitem : Recovers (do
      let (slot, body) ← itemBodyUnserializeSPacket (some self.category)
      return ⟨self.uid, self.id, self.amount, slot, body⟩)
      (stream.packetStreamAddOffset 17) good' (self.slotBytes.length + n) P := by
    apply hpair.map fun p : UInt8 × ItemBody => (⟨self.uid, self.id, self.amount, p.1, p.2⟩ : Item)
    exact fun _ _ => Iff.rfl
  have hheader := itemUnserializeSPacket_header self hrest (by omega)
  constructor
  · intro y t hrun hy
    rw [hheader] at hrun
    exact hitem.sound y t hrun hy
  · intro hP
    obtain ⟨y, hrun, hy⟩ := hitem.complete hP
    rw [packetStreamAddOffset_add] at hrun hy
    exact ⟨y, hheader.trans hrun, hy⟩

end Item

end R1Emu.Actor
