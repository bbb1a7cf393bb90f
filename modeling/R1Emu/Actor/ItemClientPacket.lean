import R1Emu.Actor.ItemFraming

/-!
# The client packet of an item

A client gets the properties of an item that are present, in the order of its category's
table, and nothing else of it.
-/
namespace R1Emu.Actor
open R1Emu.Lib.Bytes R1Emu.Packet R1Emu.Packet.PacketStream R1Emu.Property

def itemConsumableGetCPacketSize : ItemConsumable → ℕ :=
  propertiesGetCPacketSize itemConsumableProperties

def itemArmorGetCPacketSize : ItemArmor → ℕ := propertiesGetCPacketSize itemArmorProperties

def itemQuestGetCPacketSize : ItemQuest → ℕ := propertiesGetCPacketSize itemQuestProperties

def itemBookGetCPacketSize : ItemBook → ℕ := propertiesGetCPacketSize itemBookProperties

def itemMaterialGetCPacketSize : ItemMaterial → ℕ := propertiesGetCPacketSize itemMaterialProperties

def itemGemGetCPacketSize : ItemGem → ℕ := propertiesGetCPacketSize itemGemProperties

def itemWeaponGetCPacketSize : ItemWeapon → ℕ := propertiesGetCPacketSize itemWeaponProperties

def itemCardGetCPacketSize : ItemCard → ℕ := propertiesGetCPacketSize itemCardProperties

def itemAccessoryGetCPacketSize : ItemAccessory → ℕ := propertiesGetCPacketSize itemAccessoryProperties

def itemSubWeaponGetCPacketSize : ItemSubWeapon → ℕ := propertiesGetCPacketSize itemSubWeaponProperties

def itemCurrencyGetCPacketSize : ItemCurrency → ℕ := propertiesGetCPacketSize itemCurrencyProperties

def itemConsumableSerializeCPacket : ItemConsumable → PacketStream → PacketStream :=
  serializePropertiesCPacket itemConsumableProperties

def itemArmorSerializeCPacket : ItemArmor → PacketStream → PacketStream :=
  serializePropertiesCPacket itemArmorProperties

def itemQuestSerializeCPacket : ItemQuest → PacketStream → PacketStream :=
  serializePropertiesCPacket itemQuestProperties

def itemBookSerializeCPacket : ItemBook → PacketStream → PacketStream :=
  serializePropertiesCPacket itemBookProperties

def itemMaterialSerializeCPacket : ItemMaterial → PacketStream → PacketStream :=
  serializePropertiesCPacket itemMaterialProperties

def itemGemSerializeCPacket : ItemGem → PacketStream → PacketStream :=
  serializePropertiesCPacket itemGemProperties

def itemWeaponSerializeCPacket : ItemWeapon → PacketStream → PacketStream :=
  serializePropertiesCPacket itemWeaponProperties

def itemCardSerializeCPacket : ItemCard → PacketStream → PacketStream :=
  serializePropertiesCPacket itemCardProperties

def itemAccessorySerializeCPacket : ItemAccessory → PacketStream → PacketStream :=
  serializePropertiesCPacket itemAccessoryProperties

def itemSubWeaponSerializeCPacket : ItemSubWeapon → PacketStream → PacketStream :=
  serializePropertiesCPacket itemSubWeaponProperties

def itemCurrencySerializeCPacket : ItemCurrency → PacketStream → PacketStream :=
  serializePropertiesCPacket itemCurrencyProperties

def itemGetCPacketSize (self : Item) : ℕ :=
  match self.body with
  | .consumable x => itemConsumableGetCPacketSize x
  | .armor x => itemArmorGetCPacketSize x
  | .quest x => itemQuestGetCPacketSize x
  | .book x => itemBookGetCPacketSize x
  | .material x => itemMaterialGetCPacketSize x
  | .gem x => itemGemGetCPacketSize x
  | .weapon x => itemWeaponGetCPacketSize x
  | .card x => itemCardGetCPacketSize x
  | .accessory x => itemAccessoryGetCPacketSize x
  | .subweapon x => itemSubWeaponGetCPacketSize x
  | .currency x => itemCurrencyGetCPacketSize x

def itemSerializeCPacket (self : Item) (stream : PacketStream) : PacketStream :=
  match self.body with
  | .consumable x => itemConsumableSerializeCPacket x stream
  | .armor x => itemArmorSerializeCPacket x stream
  | .quest x => itemQuestSerializeCPacket x stream
  | .book x => itemBookSerializeCPacket x stream
  | .material x => itemMaterialSerializeCPacket x stream
  | .gem x => itemGemSerializeCPacket x stream
  | .weapon x => itemWeaponSerializeCPacket x stream
  | .card x => itemCardSerializeCPacket x stream
  | .accessory x => itemAccessorySerializeCPacket x stream
  | .subweapon x => itemSubWeaponSerializeCPacket x stream
  | .currency x => itemCurrencySerializeCPacket x stream

/-- The bytes of an item's properties. -/
def itemCPacket (self : Item) : List UInt8 := encoding self.body.entries

/-- With room for them, the properties of an item are appended. -/
theorem itemSerializeCPacket_writes (self : Item) :
    Writes (itemSerializeCPacket self) (itemCPacket self) := by
  obtain ⟨uid, id, amount, slot, body⟩ := self
  cases body with
  | consumable x => exact serializePropertiesCPacket_writes itemConsumableProperties x
  | armor x => exact serializePropertiesCPacket_writes itemArmorProperties x
  | quest x => exact serializePropertiesCPacket_writes itemQuestProperties x
  | book x => exact serializePropertiesCPacket_writes itemBookProperties x
  | material x => exact serializePropertiesCPacket_writes itemMaterialProperties x
  | gem x => exact serializePropertiesCPacket_writes itemGemProperties x
  | weapon x => exact serializePropertiesCPacket_writes itemWeaponProperties x
  | card x => exact serializePropertiesCPacket_writes itemCardProperties x
  | accessory x => exact serializePropertiesCPacket_writes itemAccessoryProperties x
  | subweapon x => exact serializePropertiesCPacket_writes itemSubWeaponProperties x
  | currency x => exact serializePropertiesCPacket_writes itemCurrencyProperties x

/-- The size an item announces is the size of its properties. -/
theorem itemGetCPacketSize_eq (self : Item) :
    itemGetCPacketSize self = (itemCPacket self).length := by
  obtain ⟨uid, id, amount, slot, body⟩ := self
  cases body with
  | consumable x => exact propertiesGetCPacketSize_eq itemConsumableProperties x
  | armor x => exact propertiesGetCPacketSize_eq itemArmorProperties x
  | quest x => exact propertiesGetCPacketSize_eq itemQuestProperties x
  | book x => exact propertiesGetCPacketSize_eq itemBookProperties x
  | material x => exact propertiesGetCPacketSize_eq itemMaterialProperties x
  | gem x => exact propertiesGetCPacketSize_eq itemGemProperties x
  | weapon x => exact propertiesGetCPacketSize_eq itemWeaponProperties x
  | card x => exact propertiesGetCPacketSize_eq itemCardProperties x
  | accessory x => exact propertiesGetCPacketSize_eq itemAccessoryProperties x
  | subweapon x => exact propertiesGetCPacketSize_eq itemSubWeaponProperties x
  | currency x => exact propertiesGetCPacketSize_eq itemCurrencyProperties x

end R1Emu.Actor
