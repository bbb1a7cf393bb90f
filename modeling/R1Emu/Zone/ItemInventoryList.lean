import R1Emu.Commander.InventoryIndex
import R1Emu.Commander.InventoryPacket
import R1Emu.Actor.ItemClientPacket
import R1Emu.Lib.CursorList
import Mathlib.Algebra.Order.BigOperators.Group.List
import Mathlib.Data.List.Dedup

/-!
# The items of an inventory in a packet

The packet is sized in a first pass over the bags and filled in a second one. Both go over a
bag with its cursor, and while the second one is on an item, it searches the same bag for it
with the same cursor. The search comes to a stop on that very item, so that the loop goes on
behind it.
-/
namespace R1Emu.Zone
open R1Emu.Actor R1Emu.Commander R1Emu.Lib R1Emu.Lib.Bytes R1Emu.Packet R1Emu.Packet.PacketStream

variable {Key : Type}

/-- The bags of an inventory with their cursors. -/
abbrev Cursors := ItemCategory → CursorList ItemHandle

/-- `itemHandle ? *itemHandle : NULL`. -/
def handleItem (self : Store Key) : Option ItemHandle → Option (Option ItemPtr)
  | none => some none
  | some itemHandle => (self.cell itemHandle).map some

def inventoryGetFirstItem (self : Store Key) (bags : Cursors) (category : ItemCategory) :
    Option (Option ItemPtr × Cursors) := do
  let (itemHandle, bag) := (bags category).first
  return (← handleItem self itemHandle, Function.update bags category bag)

def inventoryGetNextItem (self : Store Key) (bags : Cursors) (category : ItemCategory) :
    Option (Option ItemPtr × Cursors) := do
  let (itemHandle, bag) := (bags category).next
  return (← handleItem self itemHandle, Function.update bags category bag)

/-- The loop from the `index`-th handle of the bag on. -/
def bagIndexFrom (self : Store Key) (category : ItemCategory) (actorId : UInt64) (index : ℕ)
    (passed : List ItemHandle) : List ItemHandle → Option (ℤ × CursorList ItemHandle)
  | [] => some (-1, ⟨[], passed⟩)
  | itemHandle :: rest => do
    let currentItem ← self.cell itemHandle
    if actorId = (self.item currentItem).uid then
      return (5000 * category.code + index, ⟨passed ++ [itemHandle], rest⟩)
    else bagIndexFrom self category actorId (index + 1) (passed ++ [itemHandle]) rest

/-- The search goes from the head of the bag to the first item with the uid, and leaves the
bag's cursor there. -/
def inventoryGetBagIndexByActorId (self : Store Key) (bags : Cursors) (category : ItemCategory)
    (actorId : UInt64) : Option (ℤ × Cursors) := do
  let (bagIndex, bag) ← bagIndexFrom self category actorId 1 [] (bags category).items
  return (bagIndex, Function.update bags category bag)

/-- The fields of an item in the packet. The unknown ones and the price are zero. -/
structure InventoryItemCPacket where
  itemId : UInt32
  sizeOfAttributes : UInt16
  itemUId : UInt64
  amount : UInt32
  inventoryIndex : UInt32
  properties : List UInt8

/-- `offsetof(InventoryItemCPacket, properties)`. -/
def propertiesOffset : ℕ := 32

def InventoryItemCPacket.header (self : InventoryItemCPacket) : List UInt8 :=
  leBytes 4 self.itemId.toNat ++ (leBytes 2 self.sizeOfAttributes.toNat ++ (leBytes 2 0 ++
    (leBytes 8 self.itemUId.toNat ++ (leBytes 4 self.amount.toNat ++ (leBytes 4 0 ++
      (leBytes 4 self.inventoryIndex.toNat ++ leBytes 4 0))))))

def InventoryItemCPacket.bytes (self : InventoryItemCPacket) : List UInt8 :=
  self.header ++ self.properties

/-- `for (item = first; item; item = next) body` over a bag. -/
def bagLoop {τ : Type} (self : Store Key) (fuel : ℕ) (category : ItemCategory)
    (body : ItemPtr → Cursors × τ → Option (Cursors × τ)) (s : Cursors × τ) :
    Option (Cursors × τ) := do
  let (item, bags) ← inventoryGetFirstItem self s.1 category
  CursorList.iterate
    (fun s => (inventoryGetNextItem self s.1 category).map fun r => (r.1, (r.2, s.2)))
    body fuel item (bags, s.2)

/-- The first pass: the sizes of the items' attributes, in an array with a column for each
item of the inventory, and what the items take in the packet. -/
structure SizePass where
  inventoryIndex : ℕ
  itemPropertiesSize : ItemCategory → ℕ → Option ℕ
  totalSize : ℕ

def sizeItem (self : Store Key) (inventoryCount : ℕ) (category : ItemCategory) (item : ItemPtr)
    (s : Cursors × SizePass) : Option (Cursors × SizePass) :=
  let (bags, s) := s
  let attrSize := itemGetCPacketSize (self.item item)
  if s.inventoryIndex < inventoryCount then
    some (bags, {
      itemPropertiesSize := Function.update s.itemPropertiesSize category
        (Function.update (s.itemPropertiesSize category) s.inventoryIndex (some attrSize))
      totalSize := s.totalSize + (propertiesOffset + attrSize)
      inventoryIndex := s.inventoryIndex + 1 })
  else none

def sizeBag (self : Store Key) (inventoryCount fuel : ℕ) (s : Cursors × SizePass)
    (category : ItemCategory) : Option (Cursors × SizePass) :=
  bagLoop self fuel category (sizeItem self inventoryCount category)
    (s.1, { s.2 with inventoryIndex := 0 })

/-- The second pass, which fills the packet. -/
structure WritePass where
  inventoryIndex : ℕ
  packetStream : PacketStream

/-- A size that was never stored is not initialised. -/
def writeItem (self : Store Key) (inventoryCount : ℕ)
    (itemPropertiesSize : ItemCategory → ℕ → Option ℕ) (category : ItemCategory) (item : ItemPtr)
    (s : Cursors × WritePass) : Option (Cursors × WritePass) := do
  let (bags, s) := s
  let attrSize ← if s.inventoryIndex < inventoryCount then
    itemPropertiesSize category s.inventoryIndex else none
  let (bagIndex, bags) ← inventoryGetBagIndexByActorId self bags (self.item item).category
    (self.item item).uid
  let inventoryItemPacket : InventoryItemCPacket :=
    { itemId := (self.item item).id
      sizeOfAttributes := UInt16.ofNat attrSize
      itemUId := (self.item item).uid
      amount := (self.item item).amount
      inventoryIndex := UInt32.ofInt bagIndex
      properties := [] }
  let packetStream ← s.packetStream.store s.packetStream.position inventoryItemPacket.header
  let packetStream := packetStream.packetStreamAddOffset propertiesOffset
  let packetStream :=
    if 0 < attrSize then itemSerializeCPacket (self.item item) packetStream else packetStream
  return (bags, ⟨s.inventoryIndex + 1, packetStream⟩)

def writeBag (self : Store Key) (inventoryCount fuel : ℕ)
    (itemPropertiesSize : ItemCategory → ℕ → Option ℕ) (s : Cursors × WritePass)
    (category : ItemCategory) : Option (Cursors × WritePass) :=
  bagLoop self fuel category (writeItem self inventoryCount itemPropertiesSize category)
    (s.1, { s.2 with inventoryIndex := 0 })

/-- The items' part of the packet, on a stack with these bytes. No item is in the bag of a
category that has no name. -/
def itemsPacket (self : Store Key) (inventoryCount fuel : ℕ) (bags : Cursors) (stack : ℕ → UInt8) :
    Option (Cursors × PacketStream) := do
  let (bags, sizes) ← bagCategories.foldlM (sizeBag self inventoryCount fuel)
    (bags, ⟨0, fun _ _ => none, 0⟩)
  let packetStream :=
    packetStreamInit ((List.range sizes.totalSize).map stack) sizes.totalSize
  let (bags, s) ← bagCategories.foldlM
    (writeBag self inventoryCount fuel sizes.itemPropertiesSize) (bags, ⟨0, packetStream⟩)
  return (bags, s.packetStream)

/-- The inventory's representation: the bags hold handles of items of their category, no two
of which have one uid, and the hash is as large as the bags together. -/
structure Listed (inventory : Store Key) (inventoryCount : ℕ) : Prop where
  held : ∀ category, ∀ itemHandle ∈ inventory.bags category,
    ∃ item, inventory.cell itemHandle = some item ∧ (inventory.item item).category = category
  uids : ∀ category, ((inventory.bagged category).map fun item => (inventory.item item).uid).Nodup
  count : (bagCategories.flatMap inventory.bags).length = inventoryCount

/-- The items that the handles hold. -/
def heldItems (self : Store Key) (itemHandles : List ItemHandle) : List Item :=
  (itemHandles.filterMap self.cell).map self.item

/-- What is written of an item at a position of its bag. -/
def inventoryItem (category : ItemCategory) (position : ℕ) (item : Item) :
    InventoryItemCPacket where
  itemId := item.id
  sizeOfAttributes := UInt16.ofNat (itemGetCPacketSize item)
  itemUId := item.uid
  amount := item.amount
  inventoryIndex := UInt32.ofNat (5000 * category.code + (position + 1))
  properties := itemCPacket item

/-- What is written of the items that these handles hold. -/
def handlesCPackets (self : Store Key) (category : ItemCategory) (itemHandles : List ItemHandle) :
    List InventoryItemCPacket :=
  (heldItems self itemHandles).mapIdx (inventoryItem category)

def handlesBytes (self : Store Key) (category : ItemCategory) (itemHandles : List ItemHandle) :
    List UInt8 :=
  (handlesCPackets self category itemHandles).flatMap (·.bytes)

@[simp] theorem InventoryItemCPacket.header_length (self : InventoryItemCPacket) :
    self.header.length = propertiesOffset := by
  simp [InventoryItemCPacket.header, propertiesOffset]

section Bag
variable {self : Store Key} {category : ItemCategory} {bags : Cursors}

theorem inventoryGetNextItem_cons {passed rest : List ItemHandle} {itemHandle : ItemHandle}
    {item : ItemPtr} (hbag : bags category = ⟨passed, itemHandle :: rest⟩)
    (hcell : self.cell itemHandle = some item) :
    inventoryGetNextItem self bags category =
      some (some item, Function.update bags category ⟨passed ++ [itemHandle], rest⟩) := by
  rw [inventoryGetNextItem, hbag, CursorList.next_cons]
  simp [handleItem, hcell]

theorem inventoryGetNextItem_nil {passed : List ItemHandle} (hbag : bags category = ⟨passed, []⟩) :
    inventoryGetNextItem self bags category =
      some (none, Function.update bags category ⟨[], passed⟩) := by
  rw [inventoryGetNextItem, hbag, CursorList.next_nil]
  simp [handleItem]

theorem inventoryGetFirstItem_eq : inventoryGetFirstItem self bags category =
    inventoryGetNextItem self (Function.update bags category (bags category).rewind) category := by
  simp only [inventoryGetFirstItem, inventoryGetNextItem, Function.update_self,
    Function.update_idem]
  rfl

/-- The search comes to a stop on the first item that has the uid. -/
theorem bagIndexFrom_stops {actorId : UInt64} {before : List ItemHandle} {itemHandle : ItemHandle}
    {item : ItemPtr} (hbefore : ∀ y ∈ before, ∃ j, self.cell y = some j ∧
      actorId ≠ (self.item j).uid)
    (hcell : self.cell itemHandle = some item) (huid : actorId = (self.item item).uid)
    (index : ℕ) (passed behind : List ItemHandle) :
    bagIndexFrom self category actorId index passed (before ++ itemHandle :: behind) =
      some (((5000 * category.code + (index + before.length) : ℕ) : ℤ),
        ⟨passed ++ before ++ [itemHandle], behind⟩) := by
  induction before generalizing index passed with
  | nil => simp [bagIndexFrom, hcell, huid]
  | cons y before ih =>
    obtain ⟨j, hj, hne⟩ := hbefore y List.mem_cons_self
    have htail := ih (fun z hz => hbefore z (List.mem_cons_of_mem _ hz)) (index + 1)
      (passed ++ [y])
    have hindex : index + 1 + before.length = index + (y :: before).length := by
      rw [List.length_cons]
      omega
    rw [List.cons_append, bagIndexFrom, hj]
    simp only [Option.bind_eq_bind, Option.bind_some, if_neg hne]
    rw [htail, hindex, List.append_assoc passed [y] before, List.singleton_append]

variable {inventoryCount : ℕ}

/-- The items in front of an item in its bag have other uids. -/
theorem Listed.others (h : Listed self inventoryCount) {passed rest : List ItemHandle}
    {itemHandle : ItemHandle} {item : ItemPtr}
    (hbag : self.bags category = passed ++ itemHandle :: rest)
    (hcell : self.cell itemHandle = some item) :
    ∀ y ∈ passed, ∃ j, self.cell y = some j ∧ (self.item item).uid ≠ (self.item j).uid := by
  intro y hy
  obtain ⟨j, hj, -⟩ := h.held category y (hbag ▸ List.mem_append_left _ hy)
  refine ⟨j, hj, fun hsame => ?_⟩
  have huids := h.uids category
  rw [Store.bagged, hbag, List.filterMap_append, List.filterMap_cons_some hcell, List.map_append,
    List.map_cons] at huids
  refine List.disjoint_of_nodup_append huids (List.mem_map.mpr ⟨j, ?_, rfl⟩) ?_
  · exact List.mem_filterMap.mpr ⟨y, hy, hj⟩
  · exact hsame ▸ List.mem_cons_self

/-- On an item of the bag, the search for it finds its position and puts the cursor back. -/
theorem inventoryGetBagIndexByActorId_current (h : Listed self inventoryCount)
    {passed rest : List ItemHandle} {itemHandle : ItemHandle} {item : ItemPtr}
    (hbag : self.bags category = passed ++ itemHandle :: rest)
    (hcursor : bags category = ⟨passed ++ [itemHandle], rest⟩)
    (hcell : self.cell itemHandle = some item) :
    inventoryGetBagIndexByActorId self bags category (self.item item).uid =
      some (((5000 * category.code + (passed.length + 1) : ℕ) : ℤ), bags) := by
  have hitems : (bags category).items = passed ++ itemHandle :: rest := by
    rw [hcursor, CursorList.items_mk, List.append_assoc, List.singleton_append]
  rw [inventoryGetBagIndexByActorId, hitems,
    bagIndexFrom_stops (h.others hbag hcell) hcell rfl 1 [] rest]
  simp only [Option.bind_eq_bind, Option.bind_some, List.nil_append, ← hcursor,
    Function.update_eq_self, Nat.add_comm 1]
  rfl

/-- The cursors go over the inventory's bags. -/
def Lists (self : Store Key) (bags : Cursors) : Prop :=
  ∀ category, (bags category).items = self.bags category

theorem Lists.update (hbags : Lists self bags) {bag : CursorList ItemHandle}
    (hbag : bag.items = self.bags category) : Lists self (Function.update bags category bag) := by
  intro c
  by_cases hc : c = category
  · subst hc
    rw [Function.update_self, hbag]
  · rw [Function.update_of_ne hc, hbags]

/-- Moving on to an item. -/
theorem Lists.next (hbags : Lists self bags) (h : Listed self inventoryCount)
    {passed rest : List ItemHandle} {itemHandle : ItemHandle}
    (hcursor : bags category = ⟨passed, itemHandle :: rest⟩) :
    ∃ item, self.cell itemHandle = some item ∧ inventoryGetNextItem self bags category =
      some (some item, Function.update bags category ⟨passed ++ [itemHandle], rest⟩) ∧
      Lists self (Function.update bags category ⟨passed ++ [itemHandle], rest⟩) := by
  have hlist : self.bags category = passed ++ itemHandle :: rest := by
    rw [← hbags category, hcursor, CursorList.items_mk]
  obtain ⟨item, hcell, -⟩ := h.held category itemHandle
    (hlist ▸ List.mem_append_right _ List.mem_cons_self)
  refine ⟨item, hcell, inventoryGetNextItem_cons hcursor hcell, hbags.update ?_⟩
  rw [hlist, CursorList.items_mk, List.append_assoc, List.singleton_append]

/-- The rule for loops over a bag whose body leaves the cursors where they are. -/
theorem bagLoop_spec {τ : Type} (h : Listed self inventoryCount) (P : List ItemHandle → τ → Prop)
    (body : ItemPtr → Cursors × τ → Option (Cursors × τ))
    (hbody : ∀ bags passed itemHandle rest item t,
      self.bags category = passed ++ itemHandle :: rest →
      bags category = ⟨passed ++ [itemHandle], rest⟩ → self.cell itemHandle = some item →
      P passed t → ∃ t', body item (bags, t) = some (bags, t') ∧ P (passed ++ [itemHandle]) t')
    (hbags : Lists self bags) {t : τ} (ht : P [] t) {fuel : ℕ}
    (hfuel : (self.bags category).length < fuel) :
    ∃ bags' t', bagLoop self fuel category body (bags, t) = some (bags', t') ∧
      Lists self bags' ∧ P (self.bags category) t' := by
  let step : Cursors × τ → Option (Option ItemPtr × (Cursors × τ)) := fun s =>
    (inventoryGetNextItem self s.1 category).map fun r => (r.1, (r.2, s.2))
  let value : ItemHandle → ItemPtr := fun itemHandle => (self.cell itemHandle).getD 0
  let rewound := Function.update bags category (bags category).rewind
  have hstep : ∀ s passed itemHandle rest, s.1 category = ⟨passed, itemHandle :: rest⟩ →
      (Lists self s.1 ∧ P passed s.2) → ∃ s', step s = some (some (value itemHandle), s') ∧
        s'.1 category = ⟨passed ++ [itemHandle], rest⟩ ∧ Lists self s'.1 ∧ P passed s'.2 := by
    rintro ⟨bags, t⟩ passed itemHandle rest hcursor ⟨hlists, hP⟩
    obtain ⟨item, hcell, hnext, hmoved⟩ := hlists.next h hcursor
    refine ⟨(Function.update bags category ⟨passed ++ [itemHandle], rest⟩, t), ?_,
      Function.update_self .., hmoved, hP⟩
    simp only [step, value, hnext, hcell, Option.map_some, Option.getD_some]
  have hend : ∀ s passed, s.1 category = ⟨passed, []⟩ → (Lists self s.1 ∧ P passed s.2) →
      ∃ s', step s = some (none, s') ∧ Lists self s'.1 ∧ P passed s'.2 := by
    rintro ⟨bags, t⟩ passed hcursor ⟨hlists, hP⟩
    refine ⟨(Function.update bags category ⟨[], passed⟩, t), ?_, hlists.update ?_, hP⟩
    · simp only [step, inventoryGetNextItem_nil hcursor, Option.map_some]
    · rw [← hlists category, hcursor, CursorList.items_mk, CursorList.items_mk, List.append_nil,
        List.nil_append]
  have hvisit : ∀ s passed itemHandle rest, s.1 category = ⟨passed ++ [itemHandle], rest⟩ →
      (Lists self s.1 ∧ P passed s.2) → ∃ s', body (value itemHandle) s = some s' ∧
        s'.1 category = ⟨passed ++ [itemHandle], rest⟩ ∧ Lists self s'.1 ∧
          P (passed ++ [itemHandle]) s'.2 := by
    rintro ⟨bags, t⟩ passed itemHandle rest hcursor ⟨hlists, hP⟩
    have hlist : self.bags category = passed ++ itemHandle :: rest := by
      rw [← hlists category, hcursor, CursorList.items_mk, List.append_assoc, List.singleton_append]
    obtain ⟨item, hcell, -⟩ := h.held category itemHandle
      (hlist ▸ List.mem_append_right _ List.mem_cons_self)
    obtain ⟨t', hrun, hP'⟩ := hbody bags passed itemHandle rest item t hlist hcursor hcell hP
    refine ⟨(bags, t'), ?_, hcursor, hlists, hP'⟩
    simp only [value, hcell, Option.getD_some, hrun]
  have hrewound : rewound category = ⟨[], self.bags category⟩ := by
    rw [← hbags category]
    exact Function.update_self ..
  obtain ⟨x, s', r, hfirst, hrun, hlists, hP⟩ := CursorList.iterate_kept step body
    (fun passed s => Lists self s.1 ∧ P passed s.2) (fun s => s.1 category) value hstep hend hvisit
    (s := (rewound, t)) hrewound
    ⟨hbags.update ((CursorList.items_rewind _).trans (hbags category)), ht⟩ hfuel
  refine ⟨r.1, r.2, ?_, hlists, hP⟩
  obtain ⟨⟨y, bags'⟩, hget, heq⟩ := Option.map_eq_some_iff.mp hfirst
  cases heq
  rw [bagLoop, inventoryGetFirstItem_eq, hget]
  exact hrun

theorem heldItems_concat {passed : List ItemHandle} {itemHandle : ItemHandle} {item : ItemPtr}
    (hcell : self.cell itemHandle = some item) :
    heldItems self (passed ++ [itemHandle]) = heldItems self passed ++ [self.item item] := by
  simp [heldItems, hcell]

theorem Listed.heldItems_length (h : Listed self inventoryCount) {passed rest : List ItemHandle}
    (hbag : self.bags category = passed ++ rest) : (heldItems self passed).length = passed.length := by
  rw [heldItems, List.length_map, List.filterMap_length_eq_length]
  intro y hy
  obtain ⟨item, hitem, -⟩ := h.held category y (hbag ▸ List.mem_append_left _ hy)
  rw [hitem]
  rfl

/-- What one more item adds. -/
theorem Listed.handlesBytes_concat (h : Listed self inventoryCount)
    {passed rest : List ItemHandle} {itemHandle : ItemHandle} {item : ItemPtr}
    (hbag : self.bags category = passed ++ itemHandle :: rest)
    (hcell : self.cell itemHandle = some item) :
    handlesBytes self category (passed ++ [itemHandle]) = handlesBytes self category passed ++
      (inventoryItem category passed.length (self.item item)).bytes := by
  rw [handlesBytes, handlesCPackets, heldItems_concat hcell, List.mapIdx_concat,
    h.heldItems_length hbag, List.flatMap_append, List.flatMap_singleton]
  rfl

@[simp] theorem inventoryItem_length (position : ℕ) (item : Item) :
    (inventoryItem category position item).bytes.length =
      propertiesOffset + itemGetCPacketSize item := by
  rw [InventoryItemCPacket.bytes, List.length_append, InventoryItemCPacket.header_length,
    itemGetCPacketSize_eq]
  rfl

/-- The column of a bag, as far as it is filled. -/
def attrSizes (self : Store Key) (itemHandles : List ItemHandle) (k : ℕ) : Option ℕ :=
  ((heldItems self itemHandles)[k]?).map itemGetCPacketSize

theorem Listed.attrSizes_concat (h : Listed self inventoryCount)
    {passed rest : List ItemHandle} {itemHandle : ItemHandle} {item : ItemPtr}
    (hbag : self.bags category = passed ++ itemHandle :: rest)
    (hcell : self.cell itemHandle = some item) :
    Function.update (attrSizes self passed) passed.length
      (some (itemGetCPacketSize (self.item item))) = attrSizes self (passed ++ [itemHandle]) := by
  have hlength := h.heldItems_length hbag
  funext k
  rw [attrSizes, heldItems_concat hcell]
  by_cases hk : k = passed.length
  · subst hk
    rw [Function.update_self, ← hlength, List.getElem?_concat_length]
    rfl
  · rw [Function.update_of_ne hk, attrSizes, List.getElem?_append]
    split
    next hlt => rfl
    next hge =>
      rw [List.getElem?_eq_none (by omega), List.getElem?_eq_none (by
        rw [List.length_singleton]
        omega)]

theorem Listed.length_le (h : Listed self inventoryCount) (hc : category ∈ bagCategories) :
    (self.bags category).length ≤ inventoryCount := by
  rw [← h.count, List.length_flatMap]
  exact List.le_sum_of_mem (List.mem_map_of_mem hc)

/-- There is a column for every item of a bag. -/
theorem Listed.length_lt (h : Listed self inventoryCount) {passed rest : List ItemHandle}
    {itemHandle : ItemHandle} (hc : category ∈ bagCategories)
    (hbag : self.bags category = passed ++ itemHandle :: rest) : passed.length < inventoryCount := by
  have hlength := h.length_le hc
  rw [hbag, List.length_append, List.length_cons] at hlength
  omega

/-- The first pass over a bag stores its column and adds up what its items take. -/
theorem sizeBag_ok (h : Listed self inventoryCount) (hc : category ∈ bagCategories)
    (hbags : Lists self bags) {fuel : ℕ} (hfuel : inventoryCount < fuel) (s : SizePass)
    (hempty : s.itemPropertiesSize category = fun _ => none) :
    ∃ bags' s', sizeBag self inventoryCount fuel (bags, s) category = some (bags', s') ∧
      Lists self bags' ∧
      s'.itemPropertiesSize =
        Function.update s.itemPropertiesSize category (attrSizes self (self.bags category)) ∧
      s'.totalSize = s.totalSize + (handlesBytes self category (self.bags category)).length := by
  let P : List ItemHandle → SizePass → Prop := fun passed t =>
    t.inventoryIndex = passed.length ∧
      t.itemPropertiesSize =
        Function.update s.itemPropertiesSize category (attrSizes self passed) ∧
      t.totalSize = s.totalSize + (handlesBytes self category passed).length
  have hstart : P [] { s with inventoryIndex := 0 } := by
    have hnone : attrSizes self [] = fun _ => none := rfl
    refine ⟨rfl, ?_, rfl⟩
    rw [hnone, ← hempty, Function.update_eq_self]
  obtain ⟨bags', s', hrun, hlists, -, hsizes, htotal⟩ := bagLoop_spec h P
    (sizeItem self inventoryCount category) (by
      rintro bags passed itemHandle rest item t hbag - hcell ⟨hindex, hsizes, htotal⟩
      refine ⟨_, if_pos (hindex ▸ h.length_lt hc hbag), ?_, ?_, ?_⟩
      · rw [hindex, List.length_append, List.length_singleton]
      · simp only [hsizes, Function.update_self, Function.update_idem, hindex,
          h.attrSizes_concat hbag hcell]
      · simp only [htotal, h.handlesBytes_concat hbag hcell, List.length_append,
          inventoryItem_length, Nat.add_assoc]) hbags hstart ((h.length_le hc).trans_lt hfuel)
  exact ⟨bags', s', hrun, hlists, hsizes, htotal⟩

theorem handlesBytes_length_le (passed rest : List ItemHandle) :
    (handlesBytes self category passed).length ≤
      (handlesBytes self category (passed ++ rest)).length := by
  have hheld : heldItems self (passed ++ rest) = heldItems self passed ++ heldItems self rest := by
    simp [heldItems]
  rw [handlesBytes, handlesBytes, handlesCPackets, handlesCPackets, hheld, List.mapIdx_append,
    List.flatMap_append, List.length_append]
  exact Nat.le_add_right _ _

/-- An index that was found is converted as a number without a sign. -/
theorem ofInt_natCast (n : ℕ) : UInt32.ofInt n = UInt32.ofNat n := by
  rw [UInt32.ofInt]
  apply UInt32.toNat_inj.mp
  rw [UInt32.toNat_ofNat', UInt32.toNat_ofNat']
  omega

/-- With the right size from the first pass, an item is appended to the packet and the cursors
are where they were. -/
theorem writeItem_ok (h : Listed self inventoryCount) (hc : category ∈ bagCategories)
    {sizes : ItemCategory → ℕ → Option ℕ} (hsizes : sizes category = attrSizes self (self.bags category))
    {passed rest : List ItemHandle} {itemHandle : ItemHandle} {item : ItemPtr}
    (hbag : self.bags category = passed ++ itemHandle :: rest)
    (hcursor : bags category = ⟨passed ++ [itemHandle], rest⟩)
    (hcell : self.cell itemHandle = some item) {s : WritePass}
    (hindex : s.inventoryIndex = passed.length)
    (hbuffer : s.packetStream.size ≤ s.packetStream.buffer.length)
    (hroom : s.packetStream.position +
      (inventoryItem category passed.length (self.item item)).bytes.length ≤ s.packetStream.size) :
    writeItem self inventoryCount sizes category item (bags, s) =
      some (bags, ⟨passed.length + 1, s.packetStream.packetStreamAppend
        (inventoryItem category passed.length (self.item item)).bytes⟩) := by
  obtain ⟨item', hcell', hcategory⟩ := h.held category itemHandle
    (hbag ▸ List.mem_append_right _ List.mem_cons_self)
  obtain rfl : item = item' := Option.some.inj (hcell.symm.trans hcell')
  have hsize : sizes category s.inventoryIndex = some (itemGetCPacketSize (self.item item)) := by
    have hheld : heldItems self (self.bags category) =
        heldItems self passed ++ self.item item :: heldItems self rest := by
      simp [hbag, heldItems, hcell]
    rw [hsizes, attrSizes, hheld, hindex, ← h.heldItems_length hbag, List.getElem?_append_right le_rfl,
      Nat.sub_self]
    rfl
  have hsearch := inventoryGetBagIndexByActorId_current h hbag hcursor hcell
  set packet := inventoryItem category passed.length (self.item item) with hpacket
  rw [InventoryItemCPacket.bytes, List.length_append] at hroom
  have hstore := store_addOffset packet.header hbuffer (by omega)
  obtain ⟨stored, hstored, hheader⟩ := Option.map_eq_some_iff.mp hstore
  rw [packet.header_length] at hheader
  obtain ⟨hlength, hsame, hposition⟩ :=
    packetStreamAppend_room packet.header hbuffer (by omega)
  -- without attributes nothing is serialised, which appends no bytes
  have hproperties : (if 0 < itemGetCPacketSize (self.item item) then
      itemSerializeCPacket (self.item item) (s.packetStream.packetStreamAppend packet.header)
      else s.packetStream.packetStreamAppend packet.header) =
        s.packetStream.packetStreamAppend packet.bytes := by
    have hwrites := itemSerializeCPacket_writes (self.item item)
      (s.packetStream.packetStreamAppend packet.header) (by omega) (by
        change _ + packet.properties.length ≤ _
        omega)
    have hbytes : (s.packetStream.packetStreamAppend packet.header).packetStreamAppend
        (itemCPacket (self.item item)) = s.packetStream.packetStreamAppend packet.bytes :=
      packetStreamAppend_append _ hbuffer (by
        rw [List.length_append]
        exact hroom)
    split
    next => rw [hwrites, hbytes]
    next hnone =>
      have hnil : itemCPacket (self.item item) = [] := by
        rw [← List.length_eq_zero_iff, ← itemGetCPacketSize_eq]
        omega
      rw [← hbytes, hnil, packetStreamAppend_nil]
  simp only [writeItem, hsize, hcategory, hsearch, hindex ▸ h.length_lt hc hbag, if_true,
    Option.bind_eq_bind, Option.bind_some, ofInt_natCast]
  -- the header does not depend on the properties
  change (s.packetStream.store s.packetStream.position packet.header).bind _ = _
  rw [hstored, Option.bind_some, hindex, hheader, hproperties]
  rfl

/-- The second pass over a bag appends its items. -/
theorem writeBag_ok (h : Listed self inventoryCount) (hc : category ∈ bagCategories)
    (hbags : Lists self bags) {fuel : ℕ} (hfuel : inventoryCount < fuel)
    {sizes : ItemCategory → ℕ → Option ℕ} (hsizes : sizes category = attrSizes self (self.bags category))
    (s : WritePass) (hbuffer : s.packetStream.size ≤ s.packetStream.buffer.length)
    (hroom : s.packetStream.position +
      (handlesBytes self category (self.bags category)).length ≤ s.packetStream.size) :
    ∃ bags' s', writeBag self inventoryCount fuel sizes (bags, s) category = some (bags', s') ∧
      Lists self bags' ∧ s'.packetStream =
        s.packetStream.packetStreamAppend (handlesBytes self category (self.bags category)) := by
  let P : List ItemHandle → WritePass → Prop := fun passed t =>
    t.inventoryIndex = passed.length ∧
      t.packetStream = s.packetStream.packetStreamAppend (handlesBytes self category passed)
  have hstart : P [] { s with inventoryIndex := 0 } :=
    ⟨rfl, (packetStreamAppend_nil s.packetStream).symm⟩
  obtain ⟨bags', s', hrun, hlists, -, hstream⟩ := bagLoop_spec h P
    (writeItem self inventoryCount sizes category) (by
      rintro bags passed itemHandle rest item t hbag hcursor hcell ⟨hindex, hstream⟩
      have hbytes := h.handlesBytes_concat hbag hcell
      have hfit : s.packetStream.position +
          (handlesBytes self category (passed ++ [itemHandle])).length ≤ s.packetStream.size := by
        have hle : (handlesBytes self category (passed ++ [itemHandle])).length ≤
            (handlesBytes self category (self.bags category)).length := by
          have hrest : self.bags category = passed ++ [itemHandle] ++ rest := by
            rw [hbag, List.append_assoc, List.singleton_append]
          rw [hrest]
          exact handlesBytes_length_le _ _
        omega
      have hsplit := hfit
      rw [hbytes, List.length_append] at hsplit
      obtain ⟨hlength, hsame, hposition⟩ := packetStreamAppend_room
        (handlesBytes self category passed) hbuffer (by omega)
      rw [← hstream] at hlength hsame hposition
      refine ⟨_, writeItem_ok h hc hsizes hbag hcursor hcell hindex (by omega) (by omega), ?_, ?_⟩
      · rw [List.length_append, List.length_singleton]
      · rw [hstream, hbytes]
        exact packetStreamAppend_append _ hbuffer (hbytes ▸ hfit)) hbags hstart
    ((h.length_le hc).trans_lt hfuel)
  exact ⟨bags', s', hrun, hlists, hstream⟩

end Bag

/-- What is written of an inventory. -/
def inventoryCPackets (self : Store Key) : List InventoryItemCPacket :=
  bagCategories.flatMap fun category => handlesCPackets self category (self.bags category)

section Passes
variable {self : Store Key} {inventoryCount fuel : ℕ}

theorem sizePass_ok (h : Listed self inventoryCount) (hfuel : inventoryCount < fuel)
    {todo : List ItemCategory}
    (htodo : todo.Nodup) (hnamed : ∀ category ∈ todo, category ∈ bagCategories) {bags : Cursors}
    (hbags : Lists self bags) (s : SizePass)
    (hempty : ∀ category ∈ todo, s.itemPropertiesSize category = fun _ => none) :
    ∃ bags' s', todo.foldlM (sizeBag self inventoryCount fuel) (bags, s) = some (bags', s') ∧
      Lists self bags' ∧
      (∀ category, s'.itemPropertiesSize category = if category ∈ todo then
        attrSizes self (self.bags category) else s.itemPropertiesSize category) ∧
      s'.totalSize = s.totalSize +
        (todo.flatMap fun category => handlesBytes self category (self.bags category)).length := by
  induction todo generalizing bags s with
  | nil => exact ⟨bags, s, rfl, hbags, fun _ => by simp, rfl⟩
  | cons category todo ih =>
    obtain ⟨hnew, htodo⟩ := List.nodup_cons.mp htodo
    obtain ⟨bags₁, s₁, hrun₁, hbags₁, hsizes₁, htotal₁⟩ := sizeBag_ok h
      (hnamed category List.mem_cons_self) hbags hfuel s
      (hempty category List.mem_cons_self)
    obtain ⟨bags₂, s₂, hrun₂, hbags₂, hsizes₂, htotal₂⟩ := ih htodo
      (fun c hc => hnamed c (List.mem_cons_of_mem _ hc)) hbags₁ s₁ (by
        intro c hc
        rw [hsizes₁, Function.update_of_ne (ne_of_mem_of_not_mem hc hnew)]
        exact hempty c (List.mem_cons_of_mem _ hc))
    refine ⟨bags₂, s₂, ?_, hbags₂, ?_, ?_⟩
    · rw [List.foldlM_cons, hrun₁]
      exact hrun₂
    · intro c
      rw [hsizes₂ c, hsizes₁]
      by_cases hc : c = category
      · subst hc
        rw [if_neg hnew, if_pos List.mem_cons_self, Function.update_self]
      · simp [hc]
    · rw [htotal₂, htotal₁, List.flatMap_cons, List.length_append, Nat.add_assoc]

theorem writePass_ok (h : Listed self inventoryCount) (hfuel : inventoryCount < fuel)
    {todo : List ItemCategory}
    (hnamed : ∀ category ∈ todo, category ∈ bagCategories) {bags : Cursors}
    (hbags : Lists self bags) {sizes : ItemCategory → ℕ → Option ℕ}
    (hsizes : ∀ category ∈ todo, sizes category = attrSizes self (self.bags category))
    (s : WritePass) (hbuffer : s.packetStream.size ≤ s.packetStream.buffer.length)
    (hroom : s.packetStream.position +
      (todo.flatMap fun category => handlesBytes self category (self.bags category)).length ≤
        s.packetStream.size) :
    ∃ bags' s', todo.foldlM (writeBag self inventoryCount fuel sizes) (bags, s) = some (bags', s') ∧
      Lists self bags' ∧ s'.packetStream = s.packetStream.packetStreamAppend
        (todo.flatMap fun category => handlesBytes self category (self.bags category)) := by
  induction todo generalizing bags s with
  | nil => exact ⟨bags, s, rfl, hbags, (packetStreamAppend_nil s.packetStream).symm⟩
  | cons category todo ih =>
    rw [List.flatMap_cons] at hroom ⊢
    have hfit := hroom
    rw [List.length_append] at hfit
    obtain ⟨bags₁, s₁, hrun₁, hbags₁, hstream₁⟩ := writeBag_ok h
      (hnamed category List.mem_cons_self) hbags hfuel
      (hsizes category List.mem_cons_self) s hbuffer (by omega)
    obtain ⟨hlength, hsame, hposition⟩ := packetStreamAppend_room
      (handlesBytes self category (self.bags category)) hbuffer (by omega)
    rw [← hstream₁] at hlength hsame hposition
    obtain ⟨bags₂, s₂, hrun₂, hbags₂, hstream₂⟩ := ih
      (fun c hc => hnamed c (List.mem_cons_of_mem _ hc)) hbags₁
      (fun c hc => hsizes c (List.mem_cons_of_mem _ hc)) s₁ (by omega) (by omega)
    refine ⟨bags₂, s₂, ?_, hbags₂, ?_⟩
    · rw [List.foldlM_cons, hrun₁]
      exact hrun₂
    · rw [hstream₂, hstream₁]
      exact packetStreamAppend_append _ hbuffer hroom

/-- With enough steps both passes come to an end. The packet then holds the inventory's items
and nothing of what was on the stack. -/
theorem itemsPacket_ok (h : Listed self inventoryCount) (hfuel : inventoryCount < fuel)
    {bags : Cursors}
    (hbags : Lists self bags) (stack : ℕ → UInt8) :
    ∃ bags' packetStream, itemsPacket self inventoryCount fuel bags stack =
        some (bags', packetStream) ∧ Lists self bags' ∧
      packetStream.buffer = (inventoryCPackets self).flatMap (·.bytes) ∧
      packetStream.position = packetStream.buffer.length ∧
      packetStream.size = packetStream.buffer.length := by
  have hnodup : bagCategories.Nodup := by decide
  have hbytes : (inventoryCPackets self).flatMap (·.bytes) =
      bagCategories.flatMap fun category => handlesBytes self category (self.bags category) :=
    List.flatMap_assoc
  obtain ⟨bags₁, sizes, hsize, hbags₁, hsizes, htotal⟩ := sizePass_ok h hfuel hnodup
    (fun _ hc => hc) hbags ⟨0, fun _ _ => none, 0⟩ fun _ _ => rfl
  rw [← hbytes, Nat.zero_add] at htotal
  have hstored : ∀ category ∈ bagCategories,
      sizes.itemPropertiesSize category = attrSizes self (self.bags category) :=
    fun c hc => (hsizes c).trans (if_pos hc)
  let fresh := packetStreamInit ((List.range sizes.totalSize).map stack) sizes.totalSize
  have hfresh : fresh.buffer.length = sizes.totalSize := by
    simp [fresh, packetStreamInit]
  have hroom : fresh.position + ((inventoryCPackets self).flatMap (·.bytes)).length ≤ fresh.size := by
    rw [← htotal]
    exact (Nat.zero_add _).le
  obtain ⟨bags₂, s, hwrite, hbags₂, hstream⟩ := writePass_ok h hfuel (fun _ hc => hc) hbags₁
    hstored ⟨0, fresh⟩ hfresh.ge (hbytes ▸ hroom)
  rw [← hbytes] at hstream
  obtain ⟨hlength, hsame, hposition⟩ := packetStreamAppend_room
    ((inventoryCPackets self).flatMap (·.bytes)) hfresh.ge hroom
  rw [← hstream] at hlength hsame hposition
  have hwritten := written_append fresh.buffer ((inventoryCPackets self).flatMap (·.bytes))
    (by omega)
  rw [hfresh] at hwritten
  have hend : s.packetStream.position = s.packetStream.buffer.length := by
    rw [hposition, hlength, hfresh, htotal]
    exact Nat.zero_add _
  refine ⟨bags₂, s.packetStream, ?_, hbags₂, ?_, hend, ?_⟩
  · rw [itemsPacket, hsize]
    simp only [Option.bind_eq_bind, Option.bind_some]
    rw [hwrite]
    rfl
  · rw [← hwritten, ← List.take_length (l := s.packetStream.buffer), ← hend, hstream]
    rfl
  · rw [hsame, hlength, hfresh]
    rfl

end Passes

/-- The items of the bags with their positions, category by category in the order of the
bags. -/
def inventoryItems (self : Store Key) : List (ItemCategory × ℕ × Item) :=
  bagCategories.flatMap fun category =>
    (heldItems self (self.bags category)).mapIdx fun position item => (category, position, item)

/-- The record has the item's own fields, the size of its attributes and the index of its
position in the bag. -/
structure Describes (entry : ItemCategory × ℕ × Item) (record : InventoryItemCPacket) : Prop where
  itemId : record.itemId = entry.2.2.id
  itemUId : record.itemUId = entry.2.2.uid
  amount : record.amount = entry.2.2.amount
  sizeOfAttributes : record.sizeOfAttributes.toNat = itemGetCPacketSize entry.2.2
  inventoryIndex : record.inventoryIndex.toNat = 5000 * entry.1.code + (entry.2.1 + 1)
  properties : record.properties = itemCPacket entry.2.2

/-- The packet is filled with one record for each item, in order. -/
def Enumerated (self : Store Key) (packetStream : PacketStream) : Prop :=
  ∃ records, List.Forall₂ Describes (inventoryItems self) records ∧
    packetStream.buffer = records.flatMap (·.bytes) ∧
    packetStream.position = packetStream.buffer.length ∧
    packetStream.size = packetStream.buffer.length

/-- The size of an item's attributes and its index fit the fields of a record. -/
def Fits (entry : ItemCategory × ℕ × Item) : Prop :=
  itemGetCPacketSize entry.2.2 < 2 ^ 16 ∧ 5000 * entry.1.code + (entry.2.1 + 1) < 2 ^ 32

section Enumeration
variable {self : Store Key} {inventoryCount : ℕ}

theorem inventoryCPackets_eq (self : Store Key) : inventoryCPackets self =
    (inventoryItems self).map fun entry => inventoryItem entry.1 entry.2.1 entry.2.2 := by
  rw [inventoryCPackets, inventoryItems, List.map_flatMap]
  refine List.flatMap_congr fun category _ => ?_
  rw [handlesCPackets]
  exact List.ext_getElem (by simp) (by simp)

theorem inventoryItem_describes_iff (entry : ItemCategory × ℕ × Item) :
    Describes entry (inventoryItem entry.1 entry.2.1 entry.2.2) ↔ Fits entry := by
  constructor
  · intro h
    exact ⟨h.sizeOfAttributes ▸ UInt16.toNat_lt _, h.inventoryIndex ▸ UInt32.toNat_lt _⟩
  · rintro ⟨hsize, hindex⟩
    refine ⟨rfl, rfl, rfl, ?_, ?_, rfl⟩
    · rw [inventoryItem, UInt16.toNat_ofNat', Nat.mod_eq_of_lt hsize]
    · rw [inventoryItem, UInt32.toNat_ofNat', Nat.mod_eq_of_lt hindex]

/-- No record can describe an item that does not fit. -/
theorem Enumerated.fits {packetStream : PacketStream} (h : Enumerated self packetStream) :
    ∀ entry ∈ inventoryItems self, Fits entry := by
  obtain ⟨records, hdescribes, -⟩ := h
  intro entry hentry
  obtain ⟨k, hk, rfl⟩ := List.getElem_of_mem hentry
  have hrecord := (List.forall₂_iff_get.mp hdescribes).2 k hk
    ((List.forall₂_iff_get.mp hdescribes).1 ▸ hk)
  exact ⟨hrecord.sizeOfAttributes ▸ UInt16.toNat_lt _, hrecord.inventoryIndex ▸ UInt32.toNat_lt _⟩

theorem enumerated_of_fits {packetStream : PacketStream}
    (hfits : ∀ entry ∈ inventoryItems self, Fits entry)
    (hbuffer : packetStream.buffer = (inventoryCPackets self).flatMap (·.bytes))
    (hposition : packetStream.position = packetStream.buffer.length)
    (hsize : packetStream.size = packetStream.buffer.length) : Enumerated self packetStream := by
  refine ⟨inventoryCPackets self, ?_, hbuffer, hposition, hsize⟩
  rw [inventoryCPackets_eq, List.forall₂_map_right_iff, List.forall₂_same]
  exact fun entry hentry => (inventoryItem_describes_iff entry).mpr (hfits entry hentry)

/-- In more steps for each bag than there are items, the two passes come to an end and have
enumerated the inventory, exactly when every item fits its record. -/
theorem inventory_enumerated_iff (h : Listed self inventoryCount) {bags : Cursors}
    (hbags : Lists self bags) (stack : ℕ → UInt8) {fuel : ℕ} (hfuel : inventoryCount < fuel) :
    (∃ bags' packetStream, itemsPacket self inventoryCount fuel bags stack =
        some (bags', packetStream) ∧ Enumerated self packetStream) ↔
      ∀ entry ∈ inventoryItems self, Fits entry := by
  constructor
  · rintro ⟨-, packetStream, -, henumerated⟩
    exact henumerated.fits
  · intro hfits
    obtain ⟨bags', packetStream, hrun, -, hbuffer, hposition, hsize⟩ :=
      itemsPacket_ok h hfuel hbags stack
    exact ⟨bags', packetStream, hrun, enumerated_of_fits hfits hbuffer hposition hsize⟩

theorem category_mem_bagCategories (item : Item) : item.category ∈ bagCategories := by
  obtain ⟨uid, id, amount, slot, body⟩ := item
  cases body <;> simp [Item.category, ItemBody.category, bagCategories]

/-- Where the hash and the bags agree, the handles in a bag hold items of its category. -/
theorem held_of_agree {actorGenKey : UInt64 → Key}
    (h : self.indexes.Agree (self.entry actorGenKey)) {category : ItemCategory}
    {itemHandle : ItemHandle} (hmem : itemHandle ∈ self.bags category) :
    ∃ item, self.cell itemHandle = some item ∧ (self.item item).category = category := by
  obtain ⟨key, hentry, -⟩ := (h.mem_bag category itemHandle).mp hmem
  obtain ⟨item, hcell, heq⟩ := Option.map_eq_some_iff.mp hentry
  exact ⟨item, hcell, (Prod.mk.inj heq).2⟩

/-- And no two items of a bag have one uid, which would be one key. -/
theorem uids_of_agree {actorGenKey : UInt64 → Key}
    (h : self.indexes.Agree (self.entry actorGenKey)) (category : ItemCategory) :
    ((self.bagged category).map fun item => (self.item item).uid).Nodup := by
  have hone : ∀ x ∈ self.bags category, ∀ y ∈ self.bags category, x ≠ y →
      ∀ i, self.cell x = some i → ∀ j, self.cell y = some j →
        (self.item i).uid ≠ (self.item j).uid := by
    intro x hx y hy hne i hi j hj huid
    obtain ⟨k, hk, -⟩ := (h.mem_bag category x).mp hx
    obtain ⟨l, hl, -⟩ := (h.mem_bag category y).mp hy
    have hkl : k = l := by
      rw [entry_of_cell hi, huid] at hk
      rw [entry_of_cell hj] at hl
      exact (Prod.mk.inj (Option.some.inj hk)).1.symm.trans (Prod.mk.inj (Option.some.inj hl)).1
    exact hne (h.key_injective hx hy hk (hkl ▸ hl))
  rw [Store.bagged, List.Nodup, List.pairwise_map, List.pairwise_filterMap]
  exact (h.nodup category).imp_of_mem fun hx hy hne i hi j hj => hone _ hx _ hy hne i hi j hj

/-- An inventory whose hash and bags agree is one whose items can be enumerated. -/
theorem Listed.of_agree {actorGenKey : UInt64 → Key}
    (h : self.indexes.Agree (self.entry actorGenKey)) (hsize : self.HashSize inventoryCount) :
    Listed self inventoryCount where
  held _ _ := held_of_agree h
  uids := uids_of_agree h
  count := by
    obtain ⟨keys, hkeys, hmem, rfl⟩ := hsize
    have hlisted : (keys.filterMap self.items).Perm (bagCategories.flatMap self.bags) := by
      refine (List.perm_ext_iff_of_nodup ?_ ?_).mpr fun itemHandle => ?_
      · refine List.Nodup.filterMap (fun k l itemHandle hk hl => ?_) hkeys
        obtain ⟨c, hc⟩ := h.index_entry k itemHandle hk
        obtain ⟨d, hd⟩ := h.index_entry l itemHandle hl
        exact (Prod.mk.inj (Option.some.inj (hc.symm.trans hd))).1
      · have hcategories : bagCategories.Nodup := by decide
        exact List.nodup_flatMap.mpr ⟨fun c _ => h.nodup c,
          hcategories.imp fun hne itemHandle hc hd => hne (h.bag_eq hc hd)⟩
      · rw [List.mem_filterMap, List.mem_flatMap]
        constructor
        · rintro ⟨key, -, hkey⟩
          obtain ⟨c, hentry⟩ := h.index_entry key itemHandle hkey
          obtain ⟨item, -, heq⟩ := Option.map_eq_some_iff.mp hentry
          exact ⟨c, (Prod.mk.inj heq).2 ▸ category_mem_bagCategories _, h.mem_of_index hkey hentry⟩
        · rintro ⟨c, -, hc⟩
          obtain ⟨key, -, hkey⟩ := (h.mem_bag c itemHandle).mp hc
          exact ⟨key, (hmem key).mpr (Option.isSome_of_eq_some hkey), hkey⟩
    rw [← hlisted.length_eq, List.filterMap_length_eq_length]
    exact fun key hkey => (hmem key).mp hkey

/-- Such a hash has a size. -/
theorem exists_hashSize_of_agree [DecidableEq Key] {actorGenKey : UInt64 → Key}
    (h : self.indexes.Agree (self.entry actorGenKey)) : ∃ n, self.HashSize n := by
  refine ⟨_, ((bagCategories.flatMap self.bags).filterMap fun itemHandle =>
    (self.entry actorGenKey itemHandle).map Prod.fst).dedup, List.nodup_dedup _, fun key => ?_, rfl⟩
  rw [List.mem_dedup, List.mem_filterMap]
  constructor
  · rintro ⟨itemHandle, hmem, hkey⟩
    obtain ⟨c, -, hc⟩ := List.mem_flatMap.mp hmem
    obtain ⟨key', hentry, hindex⟩ := (h.mem_bag c itemHandle).mp hc
    rw [hentry, Option.map_some] at hkey
    cases hkey
    exact Option.isSome_of_eq_some hindex
  · intro hsome
    obtain ⟨itemHandle, hindex⟩ := Option.isSome_iff_exists.mp hsome
    obtain ⟨c, hentry⟩ := h.index_entry key itemHandle hindex
    obtain ⟨item, -, heq⟩ := Option.map_eq_some_iff.mp hentry
    have hcategory : c ∈ bagCategories := (Prod.mk.inj heq).2 ▸ category_mem_bagCategories _
    exact ⟨itemHandle, List.mem_flatMap.mpr ⟨c, hcategory, h.mem_of_index hindex hentry⟩, by
      rw [hentry]
      rfl⟩

end Enumeration

section Example
open R1Emu.Property

/-- An inventory with a piece of armor that bears a memo of so many letters. -/
def armorStore (letters : ℕ) : Store UInt64 where
  items key := if key = 7 then some 0 else none
  bags category := if category = .armor then [0] else []
  equippedItems _ := none
  item _ := ⟨7, 531101, 1, eqSlotNoSlot,
    .armor { memo := some ⟨List.replicate letters 97, by simp⟩ }⟩
  cell itemHandle := if itemHandle = 0 then some 0 else none
  next := 1
  destroyed := []

/-- The cursors before any loop. -/
def restingCursors (self : Store UInt64) : Cursors := fun category => ⟨[], self.bags category⟩

theorem armorStore_listed (letters : ℕ) : Listed (armorStore letters) 1 where
  held category itemHandle hmem := by
    by_cases hc : category = .armor
    · subst hc
      obtain rfl : itemHandle = 0 := List.mem_singleton.mp hmem
      exact ⟨0, rfl, rfl⟩
    · simp [armorStore, hc] at hmem
  uids category := by
    by_cases hc : category = .armor
    · subst hc
      exact List.nodup_singleton _
    · simp [Store.bagged, armorStore, hc]
  count := rfl

theorem armorStore_items (letters : ℕ) :
    inventoryItems (armorStore letters) = [(.armor, 0, (armorStore letters).item 0)] := rfl

theorem armorStore_size (letters : ℕ) :
    itemGetCPacketSize ((armorStore letters).item 0) = 4 + (letters + 1) := by
  change 0 + (0 + (0 + (4 + ((List.replicate letters (97 : UInt8)).length + 1) + (0 + (0 + 0))))) = _
  rw [List.length_replicate]
  omega

/-- An inventory with two pieces of armor in one bag, of which the first bears a memo. -/
def twoArmors : Store UInt64 where
  items key := if key = 7 then some 0 else if key = 8 then some 1 else none
  bags category := if category = .armor then [0, 1] else []
  equippedItems _ := none
  item item := if item = 0
    then ⟨7, 531101, 1, eqSlotNoSlot, .armor { memo := some ⟨[72, 105, 33], by decide⟩ }⟩
    else ⟨8, 531102, 2, eqSlotNoSlot, .armor {}⟩
  cell itemHandle := if itemHandle < 2 then some itemHandle else none
  next := 2
  destroyed := []

theorem twoArmors_listed : Listed twoArmors 2 where
  held category itemHandle hmem := by
    by_cases hc : category = .armor
    · subst hc
      rcases List.mem_pair.mp hmem with rfl | rfl
      · exact ⟨0, rfl, rfl⟩
      · exact ⟨1, rfl, rfl⟩
    · simp [twoArmors, hc] at hmem
  uids category := by
    by_cases hc : category = .armor
    · subst hc
      decide
    · simp [Store.bagged, twoArmors, hc]
  count := rfl

theorem twoArmors_items : inventoryItems twoArmors =
    [(.armor, 0, twoArmors.item 0), (.armor, 1, twoArmors.item 1)] := rfl

theorem inventory_enumerated_twoArmors : ∃ bags' packetStream,
    itemsPacket twoArmors 2 3 (restingCursors twoArmors) (fun _ => 0) =
      some (bags', packetStream) ∧ Enumerated twoArmors packetStream := by
  refine (inventory_enumerated_iff twoArmors_listed (fun _ => rfl) (fun _ => 0)
    (by decide)).mpr ?_
  rw [twoArmors_items]
  intro entry hentry
  rcases List.mem_pair.mp hentry with rfl | rfl
  · exact ⟨by decide, by decide⟩
  · exact ⟨by decide, by decide⟩

/-- A memo that fits its own size field makes the attributes too long for theirs. -/
theorem inventory_not_enumerated_long_memo :
    Listed (armorStore 65534) 1 ∧
      ¬ ∃ bags' packetStream,
        itemsPacket (armorStore 65534) 1 2 (restingCursors (armorStore 65534)) (fun _ => 0) =
          some (bags', packetStream) ∧ Enumerated (armorStore 65534) packetStream := by
  refine ⟨armorStore_listed 65534, ?_⟩
  rintro ⟨-, packetStream, -, henumerated⟩
  have hfits := (henumerated.fits (.armor, 0, (armorStore 65534).item 0) (by
    rw [armorStore_items]
    exact List.mem_cons_self)).1
  rw [armorStore_size] at hfits
  exact absurd hfits (by decide)

end Example

end R1Emu.Zone
