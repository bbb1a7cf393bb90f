import R1Emu.Game.Session
import R1Emu.Commander.EquipmentRoundTrip
import R1Emu.Commander.InventoryDecoding
import R1Emu.Packet.Fields

/-!
# The server packet of a commander

A commander is written field by field with its inventory behind. The size that is announced
counts the two names in full, but only their first characters are written, so that neither
the size nor longer names survive.
-/
namespace R1Emu.Game
open R1Emu.Actor R1Emu.Lib.Bytes R1Emu.Packet R1Emu.Packet.PacketStream
open R1Emu.Commander R1Emu.Property

variable {Key : Type}

def positionXYZField {σ : Type} (get : σ → PositionXYZ) (set : PositionXYZ → σ → σ) : PacketField σ where
  size := 12
  get c := leBytes 4 (get c).x.toNat ++ (leBytes 4 (get c).y.toNat ++ leBytes 4 (get c).z.toNat)
  set data c := set ⟨UInt32.ofNat (leValue (data.take 4)),
    UInt32.ofNat (leValue ((data.drop 4).take 4)), UInt32.ofNat (leValue (data.drop 8))⟩ c

def positionXZField {σ : Type} (get : σ → PositionXZ) (set : PositionXZ → σ → σ) : PacketField σ where
  size := 8
  get c := leBytes 4 (get c).x.toNat ++ leBytes 4 (get c).z.toNat
  set data c := set ⟨UInt32.ofNat (leValue (data.take 4)),
    UInt32.ofNat (leValue (data.drop 4))⟩ c

@[simp] theorem positionXYZField_copy {σ : Type} (get : σ → PositionXYZ)
    (set : PositionXYZ → σ → σ) (x y : σ) :
    (positionXYZField get set).set ((positionXYZField get set).get x) y = set (get x) y := by
  have h4 : ∀ n, (leBytes 4 n).length = 4 := leBytes_length 4
  have hv : ∀ v : UInt32, UInt32.ofNat (leValue (leBytes 4 v.toNat)) = v := fun v => by
    rw [leValue_leBytes_of_lt v.toNat_lt, UInt32.ofNat_toNat]
  have hdrop : ∀ a b c : ℕ, (leBytes 4 a ++ (leBytes 4 b ++ leBytes 4 c)).drop 8 = leBytes 4 c := by
    intro a b c
    rw [← List.append_assoc, List.drop_left' (by simp)]
  simp only [positionXYZField, List.take_left' (h4 _), List.drop_left' (h4 _), hdrop, hv]

@[simp] theorem positionXZField_copy {σ : Type} (get : σ → PositionXZ)
    (set : PositionXZ → σ → σ) (x y : σ) :
    (positionXZField get set).set ((positionXZField get set).get x) y = set (get x) y := by
  have h4 : ∀ n, (leBytes 4 n).length = 4 := leBytes_length 4
  have hv : ∀ v : UInt32, UInt32.ofNat (leValue (leBytes 4 v.toNat)) = v := fun v => by
    rw [leValue_leBytes_of_lt v.toNat_lt, UInt32.ofNat_toNat]
  simp only [positionXZField, List.take_left' (h4 _), List.drop_left' (h4 _), hv]

/-- `packetStreamIn` on an array of characters takes the size of one of them. -/
def charsField {σ : Type} {n : ℕ} (get : σ → Chars (n + 1)) (set : Chars (n + 1) → σ → σ) :
    PacketField σ :=
  u8Field (fun x => (get x)[0]) fun char x => set ((get x).set 0 char) x

/-- The appearance, without the position in the barrack, which is not written. -/
def appearanceFields : List (PacketField (Commander Key)) :=
  [charsField (·.commanderName) fun v c => { c with commanderName := v },
    charsField (·.familyName) fun v c => { c with familyName := v },
    u8Field (·.gender) fun v c => { c with gender := v },
    u8Field (·.hairId) fun v c => { c with hairId := v },
    u16Field (·.pose) fun v c => { c with pose := v },
    positionXYZField (·.pos) fun v c => { c with pos := v },
    positionXZField (·.dir) fun v c => { c with dir := v },
    u16Field (·.classId) fun v c => { c with classId := v },
    u16Field (·.jobId) fun v c => { c with jobId := v }]

def identificatorFields : List (PacketField (Commander Key)) :=
  [u64Field (·.accountId) fun v c => { c with accountId := v },
    u32Field (·.pcId) fun v c => { c with pcId := v },
    u64Field (·.socialInfoId) fun v c => { c with socialInfoId := v },
    u64Field (·.commanderId) fun v c => { c with commanderId := v },
    u16Field (·.mapId) fun v c => { c with mapId := v }]

def statsFields : List (PacketField (Commander Key)) :=
  [u32Field (·.level) fun v c => { c with level := v },
    u32Field (·.currentXP) fun v c => { c with currentXP := v },
    u32Field (·.maxXP) fun v c => { c with maxXP := v },
    u32Field (·.currentHP) fun v c => { c with currentHP := v },
    u32Field (·.maxHP) fun v c => { c with maxHP := v },
    u16Field (·.currentSP) fun v c => { c with currentSP := v },
    u16Field (·.maxSP) fun v c => { c with maxSP := v },
    u32Field (·.currentStamina) fun v c => { c with currentStamina := v },
    u32Field (·.maxStamina) fun v c => { c with maxStamina := v }]

/-- The fields in the order in which they are written and read. -/
def commanderPacketFields : List (PacketField (Commander Key)) :=
  appearanceFields ++ (identificatorFields ++ statsFields)

/-- `sizeof(CommanderSPacket)`: the structure is packed and holds both names in full. -/
def commanderSPacketSize : ℕ :=
  65 + 64 + 1 + 1 + 2 + 12 + 8 + 2 + 2 + 8 + 4 + 8 + 8 + 2 + 4 + 4 + 4 + 4 + 4 + 2 + 2 + 4 + 4

/-- The commander's inventory in the memory that holds its items. -/
def Commander.store (self : Commander Key) (memory : Memory) : Store Key :=
  { self.inventory with toMemory := memory }

def commanderGetSPacketSize (self : Commander Key) (memory : Memory) : Option ℕ := do
  return commanderSPacketSize + (← inventoryGetSPacketSize (self.store memory))

def commanderSerializeSPacket (self : Commander Key) (memory : Memory) (itemsCount : ℕ)
    (stream : PacketStream) : Option PacketStream :=
  inventorySerializeSPacket (self.store memory) itemsCount
    (serializeFields commanderPacketFields self stream)

/-- The commander is initialised first, so that what is not read has its initial value. -/
def commanderUnserializeSPacket (heapByte : ℕ → UInt8) (memory : Memory) (nextItem : ItemPtr) :
    Unserialize (Bool × Commander Key × Arena Key) := do
  let self ← unserializeFields commanderPacketFields commanderInit
  let (status, arena) ← inventoryUnserializeSPacket heapByte ⟨self.store memory, nextItem⟩
  return (status, { self with inventory := arena.toInventory }, arena)

/-- A commander serialised into a buffer of the size it announces. -/
def commanderSerialized (self : Commander Key) (memory : Memory) (itemsCount : ℕ) :
    Option (List UInt8) := do
  let size ← commanderGetSPacketSize self memory
  (commanderSerializeSPacket self memory itemsCount
    (packetStreamInit (List.replicate size 0) size)).map written

theorem commanderPacketFields_sized :
    Sized (commanderPacketFields : List (PacketField (Commander Key))) := by
  simp [Sized, commanderPacketFields, appearanceFields, identificatorFields, statsFields, charsField,
    u8Field, u16Field, u32Field, u64Field, numberField, positionXYZField, positionXZField]

/-- Both names are 127 characters longer than what is written of them. -/
theorem commanderPacketFields_length (self : Commander Key) :
    (fieldBytes commanderPacketFields self).length + 127 = commanderSPacketSize := by
  rw [fieldBytes_length commanderPacketFields_sized]
  simp [commanderPacketFields, appearanceFields, identificatorFields, statsFields, charsField, u8Field,
    u16Field, u32Field, u64Field, numberField, positionXYZField, positionXZField,
    commanderSPacketSize]

theorem appearanceFields_copy (self other : Commander Key) :
    copyFields appearanceFields self other =
      { other with
        commanderName := other.commanderName.set 0 self.commanderName[0]
        familyName := other.familyName.set 0 self.familyName[0]
        gender := self.gender, hairId := self.hairId, pose := self.pose, pos := self.pos
        dir := self.dir, classId := self.classId, jobId := self.jobId } := by
  simp only [copyFields, appearanceFields, List.foldl_cons, List.foldl_nil, charsField,
    u8Field_copy, u16Field_copy, positionXYZField_copy, positionXZField_copy]

theorem identificatorFields_copy (self other : Commander Key) :
    copyFields identificatorFields self other =
      { other with
        accountId := self.accountId, pcId := self.pcId, socialInfoId := self.socialInfoId
        commanderId := self.commanderId, mapId := self.mapId } := by
  simp only [copyFields, identificatorFields, List.foldl_cons, List.foldl_nil, u16Field_copy,
    u32Field_copy, u64Field_copy]

theorem statsFields_copy (self other : Commander Key) :
    copyFields statsFields self other =
      { other with
        level := self.level, currentXP := self.currentXP, maxXP := self.maxXP
        currentHP := self.currentHP, maxHP := self.maxHP, currentSP := self.currentSP
        maxSP := self.maxSP, currentStamina := self.currentStamina
        maxStamina := self.maxStamina } := by
  simp only [copyFields, statsFields, List.foldl_cons, List.foldl_nil, u16Field_copy,
    u32Field_copy]

/-- What is copied of a commander: its fields, and the first characters of its names. -/
theorem commanderPacketFields_copy (self other : Commander Key) :
    copyFields commanderPacketFields self other =
      { self with
        commanderName := other.commanderName.set 0 self.commanderName[0]
        familyName := other.familyName.set 0 self.familyName[0]
        barrackPos := other.barrackPos
        inventory := other.inventory } := by
  rw [commanderPacketFields, copyFields_append, copyFields_append, appearanceFields_copy,
    identificatorFields_copy, statsFields_copy]

/-- The same items in the same slots and bags. -/
structure SameItems (store store' : Store Key) : Prop where
  equipment : ∀ slot ∈ eqSlots, Option.Rel Item.Agrees
    ((store.equippedItems slot).map store.item) ((store'.equippedItems slot).map store'.item)
  contents : ∃ items items', store.contents = some items ∧ store'.contents = some items' ∧
    List.Forall₂ Item.Agrees items items'

/-- The inventory comes back from its own encoding. -/
def InventoryRoundTrips (heapByte : ℕ → UInt8) (store : Store Key) (itemsCount : ℕ) : Prop :=
  ∃ contents, store.contents = some contents ∧ ∀ (arena : Arena Key) (stream : PacketStream),
    stream.Whole → stream.rest = inventorySPacket store.equipment itemsCount contents →
    ∃ arena', inventoryUnserializeSPacket heapByte arena stream =
        .ok ((true, arena'), stream.packetStreamAddOffset stream.rest.length) ∧
      SameItems store arena'.toStore

/-- Serialising appends as many bytes as are announced. -/
def CommanderAppendsAnnounced (self : Commander Key) (memory : Memory) (itemsCount : ℕ) : Prop :=
  ∃ bytes, commanderSerialized self memory itemsCount = some bytes ∧
    commanderGetSPacketSize self memory = some bytes.length

/-- Decoding consumes what was serialised, and gives back every field that is serialised. -/
def CommanderRestored (heapByte : ℕ → UInt8) (self : Commander Key) (memory : Memory)
    (itemsCount : ℕ) : Prop :=
  ∃ bytes, commanderSerialized self memory itemsCount = some bytes ∧ ∀ memory' nextItem,
    ∃ self' arena, commanderUnserializeSPacket heapByte memory' nextItem
        (packetStreamInit bytes bytes.length) =
          .ok ((true, self', arena), ⟨bytes, bytes.length, bytes.length⟩) ∧
      self = { self' with barrackPos := self.barrackPos, inventory := self.inventory } ∧
      SameItems (self.store memory) (self'.store arena.toMemory)

/-- Neither name has more than one character, and nothing is left behind them. -/
def NamesAtMostOneChar (self : Commander Key) : Prop :=
  (∀ i (h : i < 65), 0 < i → self.commanderName[i] = 0) ∧
    ∀ i (h : i < 64), 0 < i → self.familyName[i] = 0

theorem chars_set_zero {n : ℕ} (chars : Chars (n + 1)) :
    (Vector.replicate (n + 1) (0 : UInt8)).set 0 chars[0] = chars ↔
      ∀ i (h : i < n + 1), 0 < i → chars[i] = 0 := by
  constructor
  · intro h i hi hpos
    rw [← h, Vector.getElem_set_ne _ _ (by omega), Vector.getElem_replicate]
  · intro h
    ext i hi
    by_cases hzero : i = 0
    · subst hzero
      rw [Vector.getElem_set_self]
    · rw [Vector.getElem_set_ne _ _ (by omega), Vector.getElem_replicate,
        h i hi (Nat.pos_of_ne_zero hzero)]

section RoundTrip
variable {heapByte : ℕ → UInt8} {self : Commander Key} {memory : Memory} {itemsCount : ℕ}
  {contents : List Item}

theorem commanderSerializeSPacket_writes (hcontents : (self.store memory).contents = some contents)
    (itemsCount : ℕ) :
    WritesSome (commanderSerializeSPacket self memory itemsCount)
      (fieldBytes commanderPacketFields self ++
        inventorySPacket (self.store memory).equipment itemsCount contents) :=
  (serializeFields_writes commanderPacketFields self).writesSome.bind
    (inventorySerializeSPacket_writes hcontents itemsCount)

/-- The announced size is 127 bytes larger than what is serialised. -/
theorem commanderGetSPacketSize_eq (hcontents : (self.store memory).contents = some contents)
    (itemsCount : ℕ) :
    commanderGetSPacketSize self memory = some ((fieldBytes commanderPacketFields self ++
      inventorySPacket (self.store memory).equipment itemsCount contents).length + 127) := by
  have hfields := commanderPacketFields_length self
  rw [commanderGetSPacketSize, inventoryGetSPacketSize_eq hcontents itemsCount, List.length_append]
  exact congrArg some (by omega)

theorem commanderSerialized_eq (hcontents : (self.store memory).contents = some contents)
    (itemsCount : ℕ) :
    commanderSerialized self memory itemsCount = some (fieldBytes commanderPacketFields self ++
      inventorySPacket (self.store memory).equipment itemsCount contents) := by
  have hwritten := (commanderSerializeSPacket_writes hcontents itemsCount).written
    (Nat.le_add_right _ 127)
  rw [commanderSerialized, commanderGetSPacketSize_eq hcontents itemsCount]
  exact hwritten

/-- The fields come back with the names cut to their first characters, and the inventory as it
comes back from its own encoding. -/
theorem commanderUnserializeSPacket_ok (hcontents : (self.store memory).contents = some contents)
    (hinventory : InventoryRoundTrips heapByte (self.store memory) itemsCount) {bytes : List UInt8}
    (hbytes : bytes = fieldBytes commanderPacketFields self ++
      inventorySPacket (self.store memory).equipment itemsCount contents)
    (memory' : Memory) (nextItem : ItemPtr) :
    ∃ arena, commanderUnserializeSPacket heapByte memory' nextItem
        (packetStreamInit bytes bytes.length) =
          .ok ((true, { copyFields commanderPacketFields self commanderInit with
            inventory := arena.toInventory }, arena), ⟨bytes, bytes.length, bytes.length⟩) ∧
      SameItems (self.store memory) arena.toStore := by
  obtain ⟨contents', hcontents', hinventory⟩ := hinventory
  rw [hcontents] at hcontents'
  obtain rfl := Option.some.inj hcontents'
  have hroom : 0 + (fieldBytes commanderPacketFields self).length ≤ bytes.length := by
    rw [hbytes, List.length_append]
    omega
  have hfront : (packetStreamInit bytes bytes.length).rest = fieldBytes commanderPacketFields self ++
      inventorySPacket (self.store memory).equipment itemsCount contents := hbytes
  have hfields := unserializeFields_ok commanderPacketFields_sized self commanderInit hfront hroom
  have hrest : ((packetStreamInit bytes bytes.length).packetStreamAddOffset
      (fieldBytes commanderPacketFields self).length).rest =
        inventorySPacket (self.store memory).equipment itemsCount contents := by
    rw [packetStreamAddOffset_rest, packetStreamInit_rest, hbytes, List.drop_left]
  obtain ⟨arena, hrun, hsame⟩ := hinventory
    ⟨(copyFields commanderPacketFields self commanderInit).store memory', nextItem⟩ _
    ((PacketStream.whole_init bytes).offset _) hrest
  refine ⟨arena, ?_, hsame⟩
  rw [commanderUnserializeSPacket, bind_ok hfields, bind_ok hrun, packetStreamAddOffset_add, hrest,
    ← List.length_append, ← hbytes]
  change Except.ok (_, PacketStream.mk _ _ (0 + bytes.length)) = _
  rw [Nat.zero_add]
  rfl

/-- The announced number of bytes is never written. -/
theorem not_commanderAppendsAnnounced (hcontents : (self.store memory).contents = some contents)
    (itemsCount : ℕ) : ¬ CommanderAppendsAnnounced self memory itemsCount := by
  rintro ⟨bytes, hwritten, hannounced⟩
  rw [commanderSerialized_eq hcontents itemsCount] at hwritten
  obtain rfl := Option.some.inj hwritten
  rw [commanderGetSPacketSize_eq hcontents itemsCount] at hannounced
  have hlength := Option.some.inj hannounced
  omega

theorem commanderRestored_iff
    (hinventory : InventoryRoundTrips heapByte (self.store memory) itemsCount) :
    CommanderRestored heapByte self memory itemsCount ↔ NamesAtMostOneChar self := by
  obtain ⟨contents, hcontents, -⟩ := id hinventory
  have hbytes := commanderSerialized_eq hcontents itemsCount
  have hrun := commanderUnserializeSPacket_ok hcontents hinventory rfl
  rw [NamesAtMostOneChar, ← chars_set_zero, ← chars_set_zero]
  constructor
  · rintro ⟨bytes, hwritten, hdecoded⟩
    rw [hbytes] at hwritten
    obtain rfl := Option.some.inj hwritten
    obtain ⟨arena, hok, -⟩ := hrun memory 0
    obtain ⟨self', arena', hok', hfields, -⟩ := hdecoded memory 0
    rw [hok] at hok'
    cases hok'
    rw [commanderPacketFields_copy] at hfields
    exact ⟨(congrArg Commander.commanderName hfields).symm,
      (congrArg Commander.familyName hfields).symm⟩
  · rintro ⟨hname, hfamily⟩
    refine ⟨_, hbytes, fun memory' nextItem => ?_⟩
    obtain ⟨arena, hok, hsame⟩ := hrun memory' nextItem
    refine ⟨_, arena, hok, ?_, hsame⟩
    rw [commanderPacketFields_copy]
    change self = { self with
      commanderName := (Vector.replicate 65 0).set 0 self.commanderName[0]
      familyName := (Vector.replicate 64 0).set 0 self.familyName[0] }
    rw [hname, hfamily]

end RoundTrip

/-- Of no commander is the announced number of bytes written, and it is given back exactly when
its names have at most one character. -/
theorem commander_round_trip {heapByte : ℕ → UInt8} {self : Commander Key} {memory : Memory}
    {itemsCount : ℕ} (hinventory : InventoryRoundTrips heapByte (self.store memory) itemsCount) :
    ¬ CommanderAppendsAnnounced self memory itemsCount ∧
      (CommanderRestored heapByte self memory itemsCount ↔ NamesAtMostOneChar self) := by
  obtain ⟨contents, hcontents, -⟩ := id hinventory
  exact ⟨not_commanderAppendsAnnounced hcontents itemsCount, commanderRestored_iff hinventory⟩

/-- An inventory with nothing in its bags comes back where its equipment is framed. -/
theorem inventoryRoundTrips_equipment (heapByte : ℕ → UInt8) {store : Store Key}
    (hbags : store.contents = some []) (h : WornItems store)
    (hframed : FramedItems store.equipment (leBytes 4 0)) :
    InventoryRoundTrips heapByte store 0 := by
  refine ⟨[], hbags, fun arena stream hw hrest => ?_⟩
  obtain ⟨arena', hrun, hworn⟩ :=
    inventoryUnserializeSPacket_equipment heapByte h hframed hw hrest arena
  have hequipment := hworn.equipment h
  exact ⟨arena'.purge, hrun, hequipment, [], [], hbags, rfl, .nil⟩

theorem inventoryRoundTrips_init (heapByte : ℕ → UInt8) (memory : Memory) :
    InventoryRoundTrips heapByte ((commanderInit : Commander Key).store memory) 0 := by
  apply inventoryRoundTrips_equipment heapByte rfl
  · intro slot _ pointer hworn
    cases hworn
  · exact trivial

/-- A commander of level twelve with a coat and gloves. -/
def dressed : Commander UInt64 :=
  { (commanderInit : Commander UInt64) with
    commanderName := (Vector.replicate 65 0).set 0 65
    familyName := (Vector.replicate 64 0).set 0 66
    gender := 1, level := 12, mapId := 1021, currentHP := 97, barrackPos := ⟨1, 2, 3⟩
    inventory := { inventoryInit with
      equippedItems := fun slot => if slot = 3 then some 0 else if slot = 4 then some 1 else none } }

def closet : Memory :=
  { emptyArena.toMemory with
    item := fun pointer => if pointer = 0
      then ⟨7, 531101, 1, 3, .armor { cooldown := some 0x3F800000, reinforce := some 0x40000000 }⟩
      else ⟨8, 501101, 1, 4, .armor {}⟩ }

theorem inventoryRoundTrips_dressed : InventoryRoundTrips (fun _ => 0) (dressed.store closet) 0 := by
  have hequipment : (dressed.store closet).equipment = [closet.item 0, closet.item 1] := by
    rfl
  have hcoat : NoStrings (closet.item 0).body.entries := by
    simp [NoStrings, ItemBody.entries, entries, itemArmorProperties, floatProperty, stringProperty,
      PropertyValue.format, closet]
  have hgloves : NoStrings (closet.item 1).body.entries := by
    simp [NoStrings, ItemBody.entries, entries, itemArmorProperties, floatProperty, stringProperty,
      closet]
  apply inventoryRoundTrips_equipment _ rfl
  · intro slot _ pointer hworn
    change (if slot = 3 then some 0 else if slot = 4 then some 1 else none) = some pointer at hworn
    split_ifs at hworn with hcoat hgloves
    · cases hworn
      exact ⟨hcoat.symm, rfl⟩
    · cases hworn
      exact ⟨hgloves.symm, rfl⟩
  · rw [hequipment]
    exact ⟨⟨⟨hcoat, by decide +kernel⟩, trivial⟩, ⟨⟨hgloves, by decide +kernel⟩, trivial⟩, trivial⟩

theorem commander_round_trip_dressed :
    ¬ CommanderAppendsAnnounced dressed closet 0 ∧
      CommanderRestored (fun _ => 0) dressed closet 0 := by
  obtain ⟨hsize, hrestored⟩ := commander_round_trip inventoryRoundTrips_dressed
  exact ⟨hsize, hrestored.mpr ⟨(chars_set_zero dressed.commanderName).mp rfl,
    (chars_set_zero dressed.familyName).mp rfl⟩⟩

/-- A commander with a name of two characters. -/
def al : Commander UInt64 :=
  { commanderInit with commanderName := ((Vector.replicate 65 0).set 0 65).set 1 108 }

theorem commander_round_trip_al :
    ¬ (CommanderAppendsAnnounced al emptyArena.toMemory 0 ∧
      CommanderRestored (fun _ => 0) al emptyArena.toMemory 0) := by
  rintro ⟨-, hrestored⟩
  have hinventory : InventoryRoundTrips (fun _ => 0) (al.store emptyArena.toMemory) 0 :=
    inventoryRoundTrips_init _ _
  have hname := ((commanderRestored_iff hinventory).mp hrestored).1 1 (by decide) (by decide)
  revert hname
  decide

end R1Emu.Game
