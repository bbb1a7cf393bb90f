import R1Emu.Actor.Item

/-!
# The server packet of an item

An item is written as its actor, its id, amount and category, the slot for the equipable
categories, and the properties that are present. The decoder reads the same parts in the
same order; an accessory's first property it stores in the wrong field.
-/
namespace R1Emu.Actor
open R1Emu.Lib.Bytes R1Emu.Packet R1Emu.Packet.PacketStream R1Emu.Property

def itemConsumableSerializeSPacket : ItemConsumable → PacketStream → PacketStream :=
  serializeProperties itemConsumableProperties

def itemArmorSerializeSPacket : ItemArmor → PacketStream → PacketStream :=
  serializeProperties itemArmorProperties

def itemQuestSerializeSPacket : ItemQuest → PacketStream → PacketStream :=
  serializeProperties itemQuestProperties

def itemBookSerializeSPacket : ItemBook → PacketStream → PacketStream :=
  serializeProperties itemBookProperties

def itemMaterialSerializeSPacket : ItemMaterial → PacketStream → PacketStream :=
  serializeProperties itemMaterialProperties

def itemGemSerializeSPacket : ItemGem → PacketStream → PacketStream :=
  serializeProperties itemGemProperties

def itemWeaponSerializeSPacket : ItemWeapon → PacketStream → PacketStream :=
  serializeProperties itemWeaponProperties

def itemCardSerializeSPacket : ItemCard → PacketStream → PacketStream :=
  serializeProperties itemCardProperties

def itemAccessorySerializeSPacket : ItemAccessory → PacketStream → PacketStream :=
  serializeProperties itemAccessoryProperties

def itemSubWeaponSerializeSPacket : ItemSubWeapon → PacketStream → PacketStream :=
  serializeProperties itemSubWeaponProperties

def itemCurrencySerializeSPacket : ItemCurrency → PacketStream → PacketStream :=
  serializeProperties itemCurrencyProperties

def itemConsumableUnserializeSPacket : ItemConsumable → Unserialize ItemConsumable :=
  unserializeProperties itemConsumableProperties

def itemArmorUnserializeSPacket : ItemArmor → Unserialize ItemArmor :=
  unserializeProperties itemArmorProperties

def itemQuestUnserializeSPacket : ItemQuest → Unserialize ItemQuest :=
  unserializeProperties itemQuestProperties

def itemBookUnserializeSPacket : ItemBook → Unserialize ItemBook :=
  unserializeProperties itemBookProperties

def itemMaterialUnserializeSPacket : ItemMaterial → Unserialize ItemMaterial :=
  unserializeProperties itemMaterialProperties

def itemGemUnserializeSPacket : ItemGem → Unserialize ItemGem :=
  unserializeProperties itemGemProperties

def itemWeaponUnserializeSPacket : ItemWeapon → Unserialize ItemWeapon :=
  unserializeProperties itemWeaponProperties

def itemCardUnserializeSPacket : ItemCard → Unserialize ItemCard :=
  unserializeProperties itemCardProperties

/-- The decoder's table of an accessory: the first property goes to the cooldown. -/
def itemAccessoryDecoded : List (PropertyField ItemAccessory) :=
  [floatProperty 3781 (·.cooldown) fun v x => { x with cooldown := some v },
    floatProperty 3843 (·.cooldown) fun v x => { x with cooldown := some v }]

def itemAccessoryUnserializeSPacket : ItemAccessory → Unserialize ItemAccessory :=
  unserializeProperties itemAccessoryDecoded

def itemSubWeaponUnserializeSPacket : ItemSubWeapon → Unserialize ItemSubWeapon :=
  unserializeProperties itemSubWeaponProperties

def itemCurrencyUnserializeSPacket : ItemCurrency → Unserialize ItemCurrency :=
  unserializeProperties itemCurrencyProperties

def itemConsumableGetSPacketSize : ItemConsumable → ℕ :=
  propertiesGetSPacketSize itemConsumableProperties

def itemArmorGetSPacketSize : ItemArmor → ℕ := propertiesGetSPacketSize itemArmorProperties

def itemQuestGetSPacketSize : ItemQuest → ℕ := propertiesGetSPacketSize itemQuestProperties

def itemBookGetSPacketSize : ItemBook → ℕ := propertiesGetSPacketSize itemBookProperties

def itemMaterialGetSPacketSize : ItemMaterial → ℕ := propertiesGetSPacketSize itemMaterialProperties

def itemGemGetSPacketSize : ItemGem → ℕ := propertiesGetSPacketSize itemGemProperties

def itemWeaponGetSPacketSize : ItemWeapon → ℕ := propertiesGetSPacketSize itemWeaponProperties

def itemCardGetSPacketSize : ItemCard → ℕ := propertiesGetSPacketSize itemCardProperties

def itemAccessoryGetSPacketSize : ItemAccessory → ℕ := propertiesGetSPacketSize itemAccessoryProperties

def itemSubWeaponGetSPacketSize : ItemSubWeapon → ℕ := propertiesGetSPacketSize itemSubWeaponProperties

def itemCurrencyGetSPacketSize : ItemCurrency → ℕ := propertiesGetSPacketSize itemCurrencyProperties

def actorSerializeSPacket (uid : UInt64) (stream : PacketStream) : PacketStream :=
  stream.packetStreamAppend (leBytes 8 uid.toNat)

/-- The actor is initialised with the uid -1, which stays when nothing is read. -/
def actorUnserializeSPacket : Unserialize UInt64 := do
  match ← packetStreamGet 8 with
  | none => return UInt64.ofNat (2 ^ 64 - 1)
  | some uid => return UInt64.ofNat (leValue uid)

def itemChildSerializeSPacket (self : Item) (stream : PacketStream) : PacketStream :=
  ((stream.packetStreamAppend (leBytes 4 self.id.toNat)).packetStreamAppend
    (leBytes 4 self.amount.toNat)).packetStreamAppend (leBytes 1 self.category.code)

/-- A field of the temporary item, which is not initialised. -/
def itemChildField (size : ℕ) : Unserialize ℕ := do
  match ← packetStreamGet size with
  | none => fault .uninitialised
  | some field => return leValue field

def itemEquipableSerializeSPacket (self : Item) (stream : PacketStream) : PacketStream :=
  stream.packetStreamAppend (leBytes 1 self.slot.toNat)

def itemEquipableUnserializeSPacket : Unserialize UInt8 := do
  match ← packetStreamGet 1 with
  | none => return eqSlotNoSlot
  | some slot => return UInt8.ofNat (leValue slot)

def itemBodySerializeSPacket (self : Item) (stream : PacketStream) : PacketStream :=
  match self.body with
  | .consumable x => itemConsumableSerializeSPacket x stream
  | .armor x => itemArmorSerializeSPacket x (itemEquipableSerializeSPacket self stream)
  | .quest x => itemQuestSerializeSPacket x stream
  | .book x => itemBookSerializeSPacket x stream
  | .material x => itemMaterialSerializeSPacket x stream
  | .gem x => itemGemSerializeSPacket x stream
  | .weapon x => itemWeaponSerializeSPacket x (itemEquipableSerializeSPacket self stream)
  | .card x => itemCardSerializeSPacket x stream
  | .accessory x => itemAccessorySerializeSPacket x (itemEquipableSerializeSPacket self stream)
  | .subweapon x => itemSubWeaponSerializeSPacket x (itemEquipableSerializeSPacket self stream)
  | .currency x => itemCurrencySerializeSPacket x stream

def itemSerializeSPacket (self : Item) (stream : PacketStream) : PacketStream :=
  itemBodySerializeSPacket self (itemChildSerializeSPacket self
    (actorSerializeSPacket self.uid stream))

/-- The slot and the properties of an item of the category. `itemNew` fails for the category
count, and the message about it reads the item; for a category without a structure the
size to allocate is never set. -/
def itemBodyUnserializeSPacket : Option ItemCategory → Unserialize (UInt8 × ItemBody)
  | some .consumable => return (0, .consumable (← itemConsumableUnserializeSPacket {}))
  | some .armor => do
    let slot ← itemEquipableUnserializeSPacket
    return (slot, .armor (← itemArmorUnserializeSPacket {}))
  | some .quest => return (0, .quest (← itemQuestUnserializeSPacket {}))
  | some .book => return (0, .book (← itemBookUnserializeSPacket {}))
  | some .material => return (0, .material (← itemMaterialUnserializeSPacket {}))
  | some .gem => return (0, .gem (← itemGemUnserializeSPacket {}))
  | some .weapon => do
    let slot ← itemEquipableUnserializeSPacket
    return (slot, .weapon (← itemWeaponUnserializeSPacket {}))
  | some .card => return (0, .card (← itemCardUnserializeSPacket {}))
  | some .accessory => do
    let slot ← itemEquipableUnserializeSPacket
    return (slot, .accessory (← itemAccessoryUnserializeSPacket {}))
  | some .subweapon => do
    let slot ← itemEquipableUnserializeSPacket
    return (slot, .subweapon (← itemSubWeaponUnserializeSPacket {}))
  | some .currency => return (0, .currency (← itemCurrencyUnserializeSPacket {}))
  | some .count => fault .nullDereference
  | _ => fault .uninitialised

def itemUnserializeSPacket : Unserialize Item := do
  let uid ← actorUnserializeSPacket
  let id ← itemChildField 4
  let amount ← itemChildField 4
  let category ← itemChildField 1
  let (slot, body) ← itemBodyUnserializeSPacket (ItemCategory.ofCode category)
  return ⟨uid, UInt32.ofNat id, UInt32.ofNat amount, slot, body⟩

def itemBodyGetSPacketSize : ItemBody → ℕ
  | .consumable x => itemConsumableGetSPacketSize x
  | .armor x => 1 + itemArmorGetSPacketSize x
  | .quest x => itemQuestGetSPacketSize x
  | .book x => itemBookGetSPacketSize x
  | .material x => itemMaterialGetSPacketSize x
  | .gem x => itemGemGetSPacketSize x
  | .weapon x => 1 + itemWeaponGetSPacketSize x
  | .card x => itemCardGetSPacketSize x
  | .accessory x => 1 + itemAccessoryGetSPacketSize x
  | .subweapon x => 1 + itemSubWeaponGetSPacketSize x
  | .currency x => itemCurrencyGetSPacketSize x

def itemGetSPacketSize (self : Item) : ℕ := 8 + 9 + itemBodyGetSPacketSize self.body

end R1Emu.Actor
