import R1Emu.Actor.Item

/-!
# The item factory

The static data say what kind of item an id is. From it follows the category of the item,
and so the structure that is allocated for it.
-/
namespace R1Emu.Actor

/-- The fields of the two static databases from which the category is found: `ItemType` of
the common data, and `GroupName` of the equipment data. -/
structure ItemStaticData where
  itemType : UInt32 → Option String
  groupName : UInt32 → Option String

def categoryEquipTable : String → Option ItemCategory
  | "Armor" => some .armor
  | "Helmet" => some .armor
  | "Weapon" => some .weapon
  | "Armband" => some .armor
  | "SubWeapon" => some .subweapon
  | _ => none

def categoryCommonTable : String → Option ItemCategory
  | "Consume" => some .consumable
  | "Equip" => some .armor
  | "Etc" => some .accessory
  | "Quest" => some .quest
  | "Unused" => some .currency
  | _ => none

/-- Equipment without equipment data is taken to be an armor. -/
def itemFactoryGetCategoryFromId (data : ItemStaticData) (id : UInt32) : Option ItemCategory :=
  match data.itemType id with
  | none => (data.groupName id).bind categoryEquipTable
  | some itemType =>
    if itemType = "Equip" then
      match data.groupName id with
      | some groupName => categoryEquipTable groupName
      | none => some .armor
    else categoryCommonTable itemType

/-- An item in the memory allocated for its category. -/
def itemInit (uid : UInt64) (category : ItemCategory) (id amount : UInt32) : Option Item :=
  category.emptyBody.map fun body =>
    { uid, id, amount, body, slot := if category.equipable then eqSlotNoSlot else 0 }

end R1Emu.Actor
