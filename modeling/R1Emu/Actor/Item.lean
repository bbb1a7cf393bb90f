import R1Emu.PropertyTable

/-!
# Items

An item is an actor with an id, an amount, and the properties of its category. Each category
has a structure of its own and a table of its optional properties, in the order in which
they are serialised. The static data that an item points to is looked up by its id and is
left out.
-/
namespace R1Emu.Actor
open R1Emu.Property

inductive ItemCategory
  | weapon
  | armor
  | subweapon
  | costume
  | accessory
  | consumable
  | gem
  | material
  | card
  | collection
  | book
  | quest
  | currency
  | count
  deriving DecidableEq, Repr

def ItemCategory.code : ItemCategory → ℕ
  | .weapon => 1
  | .armor => 2
  | .subweapon => 3
  | .costume => 4
  | .accessory => 5
  | .consumable => 6
  | .gem => 7
  | .material => 8
  | .card => 9
  | .collection => 10
  | .book => 11
  | .quest => 12
  | .currency => 15
  | .count => 16

def ItemCategory.ofCode : ℕ → Option ItemCategory
  | 1 => some .weapon
  | 2 => some .armor
  | 3 => some .subweapon
  | 4 => some .costume
  | 5 => some .accessory
  | 6 => some .consumable
  | 7 => some .gem
  | 8 => some .material
  | 9 => some .card
  | 10 => some .collection
  | 11 => some .book
  | 12 => some .quest
  | 15 => some .currency
  | 16 => some .count
  | _ => none

@[simp] theorem ItemCategory.ofCode_code (c : ItemCategory) : ofCode c.code = some c := by
  cases c <;> rfl

theorem ItemCategory.code_lt (c : ItemCategory) : c.code < 256 := by
  cases c <;> decide

@[ext]
structure ItemConsumable where
  cooldown : Option UInt32 := none

@[ext]
structure ItemArmor where
  armorDef : Option UInt32 := none
  cooldown : Option UInt32 := none
  reinforce : Option UInt32 := none
  memo : Option CString := none
  customName : Option CString := none
  maker : Option CString := none

@[ext]
structure ItemQuest where
  cooldown : Option UInt32 := none

@[ext]
structure ItemBook where
  cooldown : Option UInt32 := none

@[ext]
structure ItemMaterial where
  cooldown : Option UInt32 := none

@[ext]
structure ItemGem where
  level : Option UInt32 := none
  itemExp : Option UInt32 := none
  cooldown : Option UInt32 := none

@[ext]
structure ItemWeapon where
  maxAtk : Option UInt32 := none
  minAtk : Option UInt32 := none
  cooldown : Option UInt32 := none

@[ext]
structure ItemCard where
  level : Option UInt32 := none
  cooldown : Option UInt32 := none
  itemExp : Option UInt32 := none

@[ext]
structure ItemAccessory where
  pr : Option UInt32 := none
  cooldown : Option UInt32 := none

@[ext]
structure ItemSubWeapon where
  petPosition : Option UInt32 := none
  cooldown : Option UInt32 := none

@[ext]
structure ItemCurrency where
  cooldown : Option UInt32 := none

def itemConsumableProperties : List (PropertyField ItemConsumable) :=
  [floatProperty 3750 (·.cooldown) fun v x => { x with cooldown := some v }]

def itemArmorProperties : List (PropertyField ItemArmor) :=
  [floatProperty 3792 (·.armorDef) fun v x => { x with armorDef := some v },
    floatProperty 3843 (·.cooldown) fun v x => { x with cooldown := some v },
    floatProperty 3852 (·.reinforce) fun v x => { x with reinforce := some v },
    stringProperty 3972 (·.memo) fun v x => { x with memo := some v },
    stringProperty 3975 (·.customName) fun v x => { x with customName := some v },
    stringProperty 3978 (·.maker) fun v x => { x with maker := some v }]

def itemQuestProperties : List (PropertyField ItemQuest) :=
  [floatProperty 3750 (·.cooldown) fun v x => { x with cooldown := some v }]

def itemBookProperties : List (PropertyField ItemBook) :=
  [floatProperty 3750 (·.cooldown) fun v x => { x with cooldown := some v }]

def itemMaterialProperties : List (PropertyField ItemMaterial) :=
  [floatProperty 3750 (·.cooldown) fun v x => { x with cooldown := some v }]

def itemGemProperties : List (PropertyField ItemGem) :=
  [floatProperty 3779 (·.level) fun v x => { x with level := some v },
    floatProperty 3768 (·.itemExp) fun v x => { x with itemExp := some v },
    floatProperty 3843 (·.cooldown) fun v x => { x with cooldown := some v }]

def itemWeaponProperties : List (PropertyField ItemWeapon) :=
  [floatProperty 3796 (·.maxAtk) fun v x => { x with maxAtk := some v },
    floatProperty 3858 (·.minAtk) fun v x => { x with minAtk := some v },
    floatProperty 3843 (·.cooldown) fun v x => { x with cooldown := some v }]

def itemCardProperties : List (PropertyField ItemCard) :=
  [floatProperty 3779 (·.level) fun v x => { x with level := some v },
    floatProperty 3750 (·.cooldown) fun v x => { x with cooldown := some v },
    floatProperty 3768 (·.itemExp) fun v x => { x with itemExp := some v }]

def itemAccessoryProperties : List (PropertyField ItemAccessory) :=
  [floatProperty 3781 (·.pr) fun v x => { x with pr := some v },
    floatProperty 3843 (·.cooldown) fun v x => { x with cooldown := some v }]

def itemSubWeaponProperties : List (PropertyField ItemSubWeapon) :=
  [floatProperty 3703 (·.petPosition) fun v x => { x with petPosition := some v },
    floatProperty 3843 (·.cooldown) fun v x => { x with cooldown := some v }]

def itemCurrencyProperties : List (PropertyField ItemCurrency) :=
  [floatProperty 3750 (·.cooldown) fun v x => { x with cooldown := some v }]

theorem itemConsumableProperties_lawful : Lawful itemConsumableProperties {} := by
  apply Lawful.of_fields <;>
    simp [itemConsumableProperties, floatProperty, PropertyValue.format, map_float_eq,
      ItemConsumable.ext_iff]

theorem itemArmorProperties_lawful : Lawful itemArmorProperties {} := by
  apply Lawful.of_fields <;>
    simp [itemArmorProperties, floatProperty, stringProperty, PropertyValue.format, map_float_eq,
      map_string_eq, ItemArmor.ext_iff]

theorem itemQuestProperties_lawful : Lawful itemQuestProperties {} := by
  apply Lawful.of_fields <;>
    simp [itemQuestProperties, floatProperty, PropertyValue.format, map_float_eq, ItemQuest.ext_iff]

theorem itemBookProperties_lawful : Lawful itemBookProperties {} := by
  apply Lawful.of_fields <;>
    simp [itemBookProperties, floatProperty, PropertyValue.format, map_float_eq, ItemBook.ext_iff]

theorem itemMaterialProperties_lawful : Lawful itemMaterialProperties {} := by
  apply Lawful.of_fields <;>
    simp [itemMaterialProperties, floatProperty, PropertyValue.format, map_float_eq,
      ItemMaterial.ext_iff]

theorem itemGemProperties_lawful : Lawful itemGemProperties {} := by
  apply Lawful.of_fields <;>
    simp [itemGemProperties, floatProperty, PropertyValue.format, map_float_eq, ItemGem.ext_iff]

theorem itemWeaponProperties_lawful : Lawful itemWeaponProperties {} := by
  apply Lawful.of_fields <;>
    simp [itemWeaponProperties, floatProperty, PropertyValue.format, map_float_eq, ItemWeapon.ext_iff]

theorem itemCardProperties_lawful : Lawful itemCardProperties {} := by
  apply Lawful.of_fields <;>
    simp [itemCardProperties, floatProperty, PropertyValue.format, map_float_eq, ItemCard.ext_iff]

theorem itemAccessoryProperties_lawful : Lawful itemAccessoryProperties {} := by
  apply Lawful.of_fields <;>
    simp [itemAccessoryProperties, floatProperty, PropertyValue.format, map_float_eq,
      ItemAccessory.ext_iff]

theorem itemSubWeaponProperties_lawful : Lawful itemSubWeaponProperties {} := by
  apply Lawful.of_fields <;>
    simp [itemSubWeaponProperties, floatProperty, PropertyValue.format, map_float_eq,
      ItemSubWeapon.ext_iff]

theorem itemCurrencyProperties_lawful : Lawful itemCurrencyProperties {} := by
  apply Lawful.of_fields <;>
    simp [itemCurrencyProperties, floatProperty, PropertyValue.format, map_float_eq,
      ItemCurrency.ext_iff]

/-- The part of an item that belongs to its category. -/
inductive ItemBody
  | consumable (self : ItemConsumable)
  | armor (self : ItemArmor)
  | quest (self : ItemQuest)
  | book (self : ItemBook)
  | material (self : ItemMaterial)
  | gem (self : ItemGem)
  | weapon (self : ItemWeapon)
  | card (self : ItemCard)
  | accessory (self : ItemAccessory)
  | subweapon (self : ItemSubWeapon)
  | currency (self : ItemCurrency)

/-- An item. The slot belongs to the equipable categories; for the others it is the byte
behind the item's header. -/
structure Item where
  uid : UInt64
  id : UInt32
  amount : UInt32
  slot : UInt8
  body : ItemBody

def ItemBody.category : ItemBody → ItemCategory
  | .consumable _ => .consumable
  | .armor _ => .armor
  | .quest _ => .quest
  | .book _ => .book
  | .material _ => .material
  | .gem _ => .gem
  | .weapon _ => .weapon
  | .card _ => .card
  | .accessory _ => .accessory
  | .subweapon _ => .subweapon
  | .currency _ => .currency

def Item.category (self : Item) : ItemCategory := self.body.category

def ItemCategory.equipable : ItemCategory → Bool
  | .armor | .weapon | .accessory | .subweapon => true
  | _ => false

/-- The properties of an item, in the order of its category's table. -/
def ItemBody.entries : ItemBody → List (ℕ × Option PropertyValue)
  | .consumable x => Property.entries itemConsumableProperties x
  | .armor x => Property.entries itemArmorProperties x
  | .quest x => Property.entries itemQuestProperties x
  | .book x => Property.entries itemBookProperties x
  | .material x => Property.entries itemMaterialProperties x
  | .gem x => Property.entries itemGemProperties x
  | .weapon x => Property.entries itemWeaponProperties x
  | .card x => Property.entries itemCardProperties x
  | .accessory x => Property.entries itemAccessoryProperties x
  | .subweapon x => Property.entries itemSubWeaponProperties x
  | .currency x => Property.entries itemCurrencyProperties x

/-- The slot number of an item that is not equipped. -/
def eqSlotNoSlot : UInt8 := 21

/-- `itemInit` of a category: no property is present. Other categories have no structure. -/
def ItemCategory.emptyBody : ItemCategory → Option ItemBody
  | .consumable => some (.consumable {})
  | .armor => some (.armor {})
  | .quest => some (.quest {})
  | .book => some (.book {})
  | .material => some (.material {})
  | .gem => some (.gem {})
  | .weapon => some (.weapon {})
  | .card => some (.card {})
  | .accessory => some (.accessory {})
  | .subweapon => some (.subweapon {})
  | .currency => some (.currency {})
  | _ => none

end R1Emu.Actor
