import R1Emu.Commander.InventoryLayout

/-!
# Robustness of the inventory's decoder

A robust decoder has a result for every byte string, and reports a failure when the bytes
are cut off or an item in them cannot be decoded. This one never reports a failure, so it is
robust exactly on bytes with the layout of an inventory that are not cut off. The result
represents an inventory exactly when no item was read into a bag.
-/
namespace R1Emu.Commander
open R1Emu.Actor R1Emu.Lib R1Emu.Lib.Bytes R1Emu.Packet R1Emu.Packet.PacketStream

/-- The bytes from each item on, as far as the items in front of it can be told apart. -/
def itemStarts : ℕ → List UInt8 → List (List UInt8)
  | 0, _ => []
  | n + 1, bs => bs :: (itemSize bs).elim [] fun size => itemStarts n (bs.drop size)

def bagItems (bs : List UInt8) : List (List UInt8) :=
  (countField bs).elim [] fun n => itemStarts n (bs.drop 4)

/-- The places where an inventory in these bytes has its items. -/
def inventoryItems (bs : List UInt8) : List (List UInt8) :=
  (countField bs).elim [] fun n => itemStarts n (bs.drop 4) ++
    (itemsSize n (bs.drop 4)).elim [] fun size => bagItems (bs.drop (4 + size))

/-- There is an item in the bytes that the decoder of items cannot decode. -/
def ContainsFailedItem (bs : List UInt8) : Prop :=
  ∃ item ∈ inventoryItems bs, ∀ r, itemUnserializeSPacket (packetStreamInit item item.length) ≠ .ok r

section Layout
variable {heapByte : ℕ → UInt8} {n i size : ℕ} {bs : List UInt8}

theorem itemsSize_succ (h : itemsSize (n + 1) bs = some size) :
    ∃ m k, itemSize bs = some m ∧ itemsSize n (bs.drop m) = some k ∧ m + k = size := by
  rw [itemsSize] at h
  obtain ⟨m, hm, h⟩ := Option.bind_eq_some_iff.mp h
  obtain ⟨k, hk, h⟩ := Option.map_eq_some_iff.mp h
  exact ⟨m, k, hm, hk, h⟩

/-- The items that are equipped are items. -/
theorem itemsSize_of_equippedSize (h : equippedSize heapByte n i bs = some size) :
    itemsSize n bs = some size := by
  induction n generalizing i size bs with
  | zero => exact h
  | succ n ih =>
    rw [equippedSize] at h
    obtain ⟨m, hm, h⟩ := Option.bind_eq_some_iff.mp h
    split at h
    · obtain ⟨k, hk, rfl⟩ := Option.map_eq_some_iff.mp h
      rw [itemsSize, hm, Option.bind_eq_bind, Option.bind_some, ih hk]
      rfl
    · cases h

theorem itemStarts_size (h : itemsSize n bs = some size) :
    ∀ item ∈ itemStarts n bs, ∃ m, itemSize item = some m := by
  induction n generalizing size bs with
  | zero => simp [itemStarts]
  | succ n ih =>
    obtain ⟨m, k, hm, hk, -⟩ := itemsSize_succ h
    intro item hitem
    rw [itemStarts, hm] at hitem
    rcases List.mem_cons.mp hitem with rfl | hitem
    · exact ⟨m, hm⟩
    · exact ih hk item hitem

theorem bagItems_size (h : bagsLayout bs = some size) :
    ∀ item ∈ bagItems bs, ∃ m, itemSize item = some m := by
  rw [bagsLayout] at h
  obtain ⟨n, hn, h⟩ := Option.bind_eq_some_iff.mp h
  obtain ⟨k, hk, -⟩ := Option.map_eq_some_iff.mp h
  rw [bagItems, hn]
  exact itemStarts_size hk

/-- In bytes with the layout of an inventory, every item has the layout of an item. -/
theorem inventoryItems_size (h : inventoryLayout heapByte bs = some size) :
    ∀ item ∈ inventoryItems bs, ∃ m, itemSize item = some m := by
  rw [inventoryLayout] at h
  obtain ⟨front, hfront, h⟩ := Option.bind_eq_some_iff.mp h
  obtain ⟨behind, hbehind, -⟩ := Option.map_eq_some_iff.mp h
  rw [equipmentLayout] at hfront
  obtain ⟨n, hn, hfront⟩ := Option.bind_eq_some_iff.mp hfront
  obtain ⟨k, hk, rfl⟩ := Option.map_eq_some_iff.mp hfront
  have hitems := itemsSize_of_equippedSize hk
  intro item hitem
  rw [inventoryItems, hn, Option.elim_some, hitems, Option.elim_some] at hitem
  rcases List.mem_append.mp hitem with hitem | hitem
  · exact itemStarts_size hitems item hitem
  · exact bagItems_size hbehind item hitem

/-- Bytes with the layout of an inventory contain no item that cannot be decoded. -/
theorem not_containsFailedItem (h : inventoryLayout heapByte bs = some size) :
    ¬ ContainsFailedItem bs := by
  rintro ⟨item, hitem, hfails⟩
  obtain ⟨m, hm⟩ := inventoryItems_size h item hitem
  have hread := itemUnserializeSPacket_reads (whole_init item)
  rw [packetStreamInit_rest, hm] at hread
  obtain ⟨decoded, hdecoded, -⟩ := hread
  exact hfails _ hdecoded

end Layout

variable {Key : Type} (actorGenKey : UInt64 → Key)

/-- The bytes that an inventory whose indexes agree is serialised to. -/
def ValidEncoding (bs : List UInt8) : Prop :=
  ∃ (self : Store Key) (itemsCount : ℕ), self.indexes.Agree (self.entry actorGenKey) ∧
    self.HashSize itemsCount ∧ inventorySerialized self itemsCount = some bs

/-- The bytes are the front of an inventory's encoding, but not all of it. -/
def Truncated (bs : List UInt8) : Prop :=
  ∃ encoding, ValidEncoding actorGenKey encoding ∧ bs <+: encoding ∧ bs ≠ encoding

/-- The decoder ends without a fault, and reports a failure for bytes that are cut off or
contain an item that cannot be decoded. -/
structure Robust (heapByte : ℕ → UInt8) (arena : Arena Key) (bs : List UInt8) : Prop where
  ends : ∃ r, inventoryUnserializeSPacket heapByte arena (packetStreamInit bs bs.length) = .ok r
  reports : Truncated actorGenKey bs ∨ ContainsFailedItem bs → ∃ self' stream,
    inventoryUnserializeSPacket heapByte arena (packetStreamInit bs bs.length) =
      .ok ((false, self'), stream)

/-- The decoder is robust exactly on bytes that have the layout of an inventory and are not
the front of a longer encoding. -/
theorem inventoryUnserializeSPacket_robust_iff (heapByte : ℕ → UInt8) (self : Arena Key)
    (bs : List UInt8) :
    Robust actorGenKey heapByte self bs ↔
      (inventoryLayout heapByte bs).isSome ∧ ¬ Truncated actorGenKey bs := by
  have hread := inventoryUnserializeSPacket_reads heapByte (whole_init bs) self
  rw [packetStreamInit_rest] at hread
  cases hlayout : inventoryLayout heapByte bs with
  | none =>
    rw [hlayout] at hread
    obtain ⟨e, he⟩ := hread
    constructor
    · rintro ⟨⟨r, hr⟩, -⟩
      rw [he] at hr
      cases hr
    · exact fun h => nomatch h.1
  | some size =>
    rw [hlayout] at hread
    obtain ⟨⟨reported, self'⟩, hrun, hreported, -⟩ := hread
    constructor
    · intro h
      refine ⟨rfl, fun hcut => ?_⟩
      obtain ⟨self'', stream, hfalse⟩ := h.reports (.inl hcut)
      rw [hrun] at hfalse
      cases hfalse
      cases hreported
    · rintro ⟨-, hcut⟩
      refine ⟨⟨_, hrun⟩, ?_⟩
      rintro (h | h)
      · exact absurd h hcut
      · exact absurd h (not_containsFailedItem hlayout)

/-- An inventory with nothing in it and no memory allocated. -/
def emptyArena : Arena UInt64 where
  toInventory := inventoryInit
  item _ := ⟨0, 0, 0, 0, .consumable {}⟩
  cell _ := none
  next := 0
  destroyed := []
  nextItem := 0

/-- The encoding of an inventory with one potion: the decoder looks at two bytes behind it. -/
def onePotion : List UInt8 :=
  inventorySPacket [] 1 [⟨7, 640002, 1, 0, .consumable {}⟩]

theorem inventoryUnserializeSPacket_not_robust :
    ¬ Robust (id : UInt64 → UInt64) (fun _ => 0) emptyArena onePotion := by
  rintro ⟨⟨r, hr⟩, -⟩
  have hread := inventoryUnserializeSPacket_reads (fun _ => 0) (whole_init onePotion) emptyArena
  have hlayout : inventoryLayout (fun _ => 0) onePotion = none := by decide +kernel
  rw [packetStreamInit_rest, hlayout] at hread
  obtain ⟨e, he⟩ := hread
  rw [he] at hr
  cases hr

/-- The hash and the bags agree, every item of a bag is found by its uid, and the items count
written next is the number of the items written behind it. -/
structure Restored (store : Store Key) : Prop where
  agree : store.indexes.Agree (store.entry actorGenKey)
  finds : ∀ category, ∀ item ∈ store.bagged category,
    inventoryGetItemByActorId actorGenKey store (store.item item).uid = some (some item)
  counts : ∀ itemsCount contents, store.HashSize itemsCount → store.contents = some contents →
    itemsCount = contents.length

section Restored
variable {actorGenKey} {store : Store Key}

/-- An empty hash goes with empty bags only. -/
theorem restored_iff_empty (hitems : ∀ key, store.items key = none) :
    Restored actorGenKey store ↔ ∀ category, store.bags category = [] := by
  constructor
  · intro h category
    apply List.eq_nil_iff_forall_not_mem.mpr
    intro handle hmem
    obtain ⟨key, -, hkey⟩ := (h.agree.mem_bag category handle).mp hmem
    exact absurd (hkey.symm.trans (hitems key)) (by simp)
  · intro hbags
    refine ⟨⟨fun c => ?_, fun c handle => ?_, fun key handle hkey => ?_⟩, fun c item hitem => ?_, ?_⟩
    · change (store.bags c).Nodup
      rw [hbags]
      exact List.nodup_nil
    · simp [Store.indexes, hbags, hitems]
    · exact absurd (hkey.symm.trans (hitems key)) (by simp)
    · rw [Store.bagged, hbags] at hitem
      cases hitem
    · rintro itemsCount contents ⟨keys, -, hkeys, rfl⟩ hcontents
      have hnil : keys = [] := by
        apply List.eq_nil_iff_forall_not_mem.mpr
        intro key hkey
        have hsome := (hkeys key).mp hkey
        rw [hitems] at hsome
        cases hsome
      have hempty : bagCategories.flatMap store.bags = [] :=
        List.flatMap_eq_nil_iff.mpr fun c _ => hbags c
      rw [Store.contents, hempty] at hcontents
      cases hcontents
      rw [hnil]
      rfl

end Restored

/-- Where the decoder reports success, the inventory represents what was read exactly when the
count of the items in the bags is zero. -/
theorem inventoryUnserializeSPacket_restores_iff {heapByte : ℕ → UInt8} {self self' : Arena Key}
    {stream stream' : PacketStream} (hw : stream.Whole)
    (hrun : inventoryUnserializeSPacket heapByte self stream = .ok ((true, self'), stream')) :
    Restored actorGenKey self'.toStore ↔ itemsCountField heapByte stream.rest = some 0 := by
  have hread := inventoryUnserializeSPacket_reads heapByte hw self
  cases hlayout : inventoryLayout heapByte stream.rest with
  | none =>
    rw [hlayout] at hread
    obtain ⟨e, he⟩ := hread
    rw [he] at hrun
    cases hrun
  | some size =>
    rw [hlayout] at hread
    obtain ⟨r, hr, -, hitems, hbags⟩ := hread
    rw [hr] at hrun
    cases hrun
    exact (restored_iff_empty hitems).trans hbags

/-- A coat and gloves in their slots, and nothing in the bags. -/
def coatAndGloves : List UInt8 :=
  inventorySPacket [⟨7, 531101, 1, 3, .armor { cooldown := some 0x3F800000 }⟩,
    ⟨8, 501101, 1, 4, .armor {}⟩] 0 []

theorem inventoryUnserializeSPacket_restores_equipment :
    ∃ self' stream', inventoryUnserializeSPacket (fun _ => 0) emptyArena
        (packetStreamInit coatAndGloves coatAndGloves.length) = .ok ((true, self'), stream') ∧
      Restored (id : UInt64 → UInt64) self'.toStore := by
  have hread := inventoryUnserializeSPacket_reads (fun _ => 0) (whole_init coatAndGloves) emptyArena
  have hlayout : inventoryLayout (fun _ => 0) coatAndGloves = some 50 := by decide +kernel
  have hcount : itemsCountField (fun _ => 0) coatAndGloves = some 0 := by decide +kernel
  rw [packetStreamInit_rest, hlayout] at hread
  obtain ⟨⟨reported, self'⟩, hrun, hreported, -⟩ := hread
  cases hreported
  exact ⟨self', _, hrun,
    (inventoryUnserializeSPacket_restores_iff id (whole_init coatAndGloves) hrun).mpr hcount⟩

/-- A potion whose cooldown is present. -/
def usedPotion : List UInt8 :=
  inventorySPacket [] 1 [⟨7, 640002, 1, 0, .consumable { cooldown := some 0 }⟩]

/-- It is read into its bag, but the hash stays empty. -/
theorem inventoryUnserializeSPacket_restores_nothing :
    ∃ self' stream', inventoryUnserializeSPacket (fun _ => 0) emptyArena
        (packetStreamInit usedPotion usedPotion.length) = .ok ((true, self'), stream') ∧
      ¬ Restored (id : UInt64 → UInt64) self'.toStore := by
  have hread := inventoryUnserializeSPacket_reads (fun _ => 0) (whole_init usedPotion) emptyArena
  have hlayout : inventoryLayout (fun _ => 0) usedPotion = some 31 := by decide +kernel
  have hcount : itemsCountField (fun _ => 0) usedPotion = some 1 := by decide +kernel
  rw [packetStreamInit_rest, hlayout] at hread
  obtain ⟨⟨reported, self'⟩, hrun, hreported, hitems, hbags⟩ := hread
  cases hreported
  refine ⟨self', _, hrun, fun h => ?_⟩
  have hzero := hbags.mp ((restored_iff_empty hitems).mp h)
  rw [hcount] at hzero
  cases hzero

end R1Emu.Commander
