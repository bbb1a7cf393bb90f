import R1Emu.Commander.InventoryDecoding
import R1Emu.Game.CommanderPacket
import R1Emu.Game.Database

/-!
# What commanders wear

An equipped item is found by its slot in the array, and names a slot itself. The items of a
commander whose rows are loaded are made for their slots, those of a packet are put into the
slots they name; an item of a category that cannot be worn has no field for the slot.
-/
namespace R1Emu.Game
open R1Emu.Actor R1Emu.Lib R1Emu.Lib.Stage R1Emu.Lib.Bytes R1Emu.Packet R1Emu.Server
open R1Emu.Commander (Inventory ItemPtr Store Arena eqSlotCount eqSlots inventoryInit itemStarts
  equippedUnserializeSPacket bagsUnserializeSPacket inventoryUnserializeSPacket countField
  inventoryCount inventoryCount_ok)

variable {Key : Type}

/-- What is allocated next has not been freed. -/
structure Live (m : R1Emu.Commander.Memory) (nextItem : ItemPtr) : Prop where
  items : ∀ item ∈ m.destroyed, item < nextItem
  cells : ∀ handle, m.next ≤ handle → m.cell handle = none

/-- The items in the slots are there, can be worn, and name their slots. -/
def Worn (m : R1Emu.Commander.Memory) (nextItem : ItemPtr)
    (equippedItems : UInt8 → Option ItemPtr) : Prop :=
  ∀ slot item, equippedItems slot = some item → item < nextItem ∧ item ∉ m.destroyed ∧
    (m.item item).category.equipable = true ∧ (m.item item).slot = slot

/-- An inventory of worn items only. -/
structure Clad (m : R1Emu.Commander.Memory) (nextItem : ItemPtr) (inventory : Inventory Key) :
    Prop where
  items : ∀ key, inventory.items key = none
  worn : Worn m nextItem inventory.equippedItems

theorem worn_none (m : R1Emu.Commander.Memory) (nextItem : ItemPtr) :
    Worn m nextItem fun _ => none := by
  intro slot item hitem
  cases hitem

theorem clad_init (m : R1Emu.Commander.Memory) (nextItem : ItemPtr) :
    Clad m nextItem (inventoryInit : Inventory Key) :=
  ⟨fun _ => rfl, worn_none m nextItem⟩

/-- More items have been allocated. -/
structure Stocked (m : R1Emu.Commander.Memory) (nextItem : ItemPtr)
    (m' : R1Emu.Commander.Memory) (nextItem' : ItemPtr) : Prop where
  items : nextItem ≤ nextItem'
  item : ∀ p < nextItem, m'.item p = m.item p
  cell : m'.cell = m.cell
  next : m'.next = m.next
  destroyed : m'.destroyed = m.destroyed

section Stocked
variable {m m' m'' : R1Emu.Commander.Memory} {n n' n'' : ItemPtr}

theorem Stocked.refl (m : R1Emu.Commander.Memory) (n : ItemPtr) : Stocked m n m n :=
  ⟨le_rfl, fun _ _ => rfl, rfl, rfl, rfl⟩

theorem Stocked.trans (h : Stocked m n m' n') (h' : Stocked m' n' m'' n'') :
    Stocked m n m'' n'' where
  items := h.items.trans h'.items
  item p hp := (h'.item p (hp.trans_le h.items)).trans (h.item p hp)
  cell := h'.cell.trans h.cell
  next := h'.next.trans h.next
  destroyed := h'.destroyed.trans h.destroyed

theorem Live.stocked (h : Live m n) (hs : Stocked m n m' n') : Live m' n' where
  items item hitem := (h.items item (hs.destroyed ▸ hitem)).trans_le hs.items
  cells handle hhandle := by
    rw [hs.next] at hhandle
    rw [hs.cell, h.cells handle hhandle]

theorem Worn.stocked {equippedItems : UInt8 → Option ItemPtr} (h : Worn m n equippedItems)
    (hs : Stocked m n m' n') : Worn m' n' equippedItems := by
  intro slot item hitem
  obtain ⟨hlt, halive, hequipable, hslot⟩ := h slot item hitem
  rw [hs.destroyed, hs.item item hlt]
  exact ⟨hlt.trans_le hs.items, halive, hequipable, hslot⟩

theorem Clad.stocked {inventory : Inventory Key} (h : Clad m n inventory)
    (hs : Stocked m n m' n') : Clad m' n' inventory :=
  ⟨h.items, h.worn.stocked hs⟩

/-- An item that is allocated. -/
theorem stocked_new (m : R1Emu.Commander.Memory) (n : ItemPtr) (item : Item) :
    Stocked m n { m with item := Function.update m.item n item } (n + 1) where
  items := Nat.le_succ n
  item _ hp := Function.update_of_ne hp.ne item m.item
  cell := rfl
  next := rfl
  destroyed := rfl

/-- An item that is put into the slot it names. -/
theorem Worn.update {equippedItems : UInt8 → Option ItemPtr} (h : Worn m n equippedItems)
    {slot : UInt8} {item : Option ItemPtr} (hitem : ∀ i, item = some i → i < n ∧ i ∉ m.destroyed ∧
      (m.item i).category.equipable = true ∧ (m.item i).slot = slot) :
    Worn m n (Function.update equippedItems slot item) := by
  intro slot' i hi
  by_cases hslot : slot' = slot
  · subst hslot
    rw [Function.update_self] at hi
    exact hitem i hi
  · rw [Function.update_of_ne hslot] at hi
    exact h slot' i hi

end Stocked

/-! ### Items that are made for their slots -/

/-- The items with the id can be worn, if there are any. -/
def Wearable (env : Env Key) (id : UInt32) : Prop :=
  ∀ category, itemFactoryGetCategoryFromId env.staticData id = some category →
    category.equipable = true

/-- The commanders are as they were, and so are the items. -/
structure Restocked (h h' : Heap Key) : Prop extends
    Stocked h.toMemory h.nextItem h'.toMemory h'.nextItem where
  commanders : h'.commanders = h.commanders

theorem Restocked.refl (h : Heap Key) : Restocked h h := ⟨.refl _ _, rfl⟩

theorem Restocked.trans {h h' h'' : Heap Key} (hr : Restocked h h') (hr' : Restocked h' h'') :
    Restocked h h'' :=
  ⟨hr.toStocked.trans hr'.toStocked, hr'.commanders.trans hr.commanders⟩

theorem itemInit_category {uid : UInt64} {category : ItemCategory} {id amount : UInt32}
    {item : Item} (h : itemInit uid category id amount = some item) : item.category = category := by
  rw [itemInit] at h
  obtain ⟨body, hbody, rfl⟩ := Option.map_eq_some_iff.mp h
  cases category <;> cases hbody <;> rfl

theorem itemInit_id {uid : UInt64} {category : ItemCategory} {id amount : UInt32} {item : Item}
    (h : itemInit uid category id amount = some item) : item.id = id := by
  rw [itemInit] at h
  obtain ⟨body, -, rfl⟩ := Option.map_eq_some_iff.mp h
  rfl

/-- A new item has the id, and the category that the static data give. -/
theorem itemFactoryCreate_restocked (env : Env Key) (id amount : UInt32) (w : World Key) :
    (itemFactoryCreate env id amount).Sat w fun r w' => Restocked w.heap w'.heap ∧
      ∃ item, r = .ok item ∧ ∀ i, item = some i → w.heap.nextItem ≤ i ∧ i < w'.heap.nextItem ∧
        itemFactoryGetCategoryFromId env.staticData id = some (w'.heap.item i).category ∧
        (w'.heap.item i).id = id := by
  rw [itemFactoryCreate]
  cases hcategory : itemFactoryGetCategoryFromId env.staticData id with
  | none => simpa using Restocked.refl w.heap
  | some category =>
    have hcounted : Restocked w.heap { w.heap with
        actorId := w.heap.actorId + 1, attempts := w.heap.attempts + 1 } :=
      ⟨⟨le_rfl, fun _ _ => rfl, rfl, rfl, rfl⟩, rfl⟩
    simp only [sat_bind, onHeap, sat_act, then_ok, sat_allocate, sat_ite, sat_pure]
    refine ⟨fun _ => ?_, fun _ => ⟨hcounted, none, rfl, by simp⟩⟩
    cases hinit : itemInit w.heap.actorId category id amount with
    | none => exact (sat_pure _ _ _).mpr ⟨hcounted, none, rfl, by simp⟩
    | some item =>
      simp only [sat_bind, sat_act, then_ok, sat_pure, Heap.newItem]
      refine ⟨⟨stocked_new _ _ item, rfl⟩, _, rfl, ?_⟩
      rintro _ ⟨⟩
      rw [Function.update_self, itemInit_category hinit]
      exact ⟨le_rfl, Nat.lt_succ_self _, rfl, itemInit_id hinit⟩

/-- The slot of an item that is not among those that were there is set. -/
theorem restocked_setItemSlot {h h' : Heap Key} (hr : Restocked h h') {i : ItemPtr}
    (hi : h.nextItem ≤ i) (slot : UInt8) : Restocked h (h'.setItemSlot i slot) where
  items := hr.items
  item p hp := (Function.update_of_ne (hp.trans_le hi).ne _ _).trans (hr.item p hp)
  cell := hr.cell
  next := hr.next
  destroyed := hr.destroyed
  commanders := hr.commanders

theorem setItemSlot_item (h : Heap Key) (p : ItemPtr) (slot : UInt8) :
    (h.setItemSlot p slot).item p = { h.item p with slot := slot } :=
  Function.update_self ..

/-- Where an item is made at all, it is a new one that can be worn and names the slot. -/
def MakesFor (slot : UInt8) (create : Handling Key (Option ItemPtr)) : Prop :=
  ∀ w, create.Sat w fun r w' => Restocked w.heap w'.heap ∧ ∃ item, r = .ok item ∧
    ∀ i, item = some i → w.heap.nextItem ≤ i ∧ i < w'.heap.nextItem ∧
      (w'.heap.item i).category.equipable = true ∧ (w'.heap.item i).slot = slot

theorem itemFactoryCreateEquipable_makesFor {env : Env Key} {id : UInt32}
    (hwearable : Wearable env id) (amount : UInt32) (slot : UInt8) :
    MakesFor slot (itemFactoryCreateEquipable env id amount slot) := by
  intro w
  rw [itemFactoryCreateEquipable, sat_bind]
  refine (itemFactoryCreate_restocked env id amount w).mono ?_
  rintro r w' ⟨hr, item, rfl, hitem⟩
  rw [then_ok]
  cases item with
  | none => exact (sat_pure _ _ _).mpr ⟨hr, none, rfl, by simp⟩
  | some i =>
    obtain ⟨hle, hlt, hcategory, -⟩ := hitem i rfl
    simp only [setItemSlot, onHeap, sat_bind, sat_act, then_ok, sat_pure]
    refine ⟨restocked_setItemSlot hr hle slot, _, rfl, ?_⟩
    rintro _ ⟨⟩
    rw [setItemSlot_item]
    exact ⟨hle, hlt, hwearable _ hcategory, rfl⟩

/-- What is made for each slot is worn there. -/
theorem equipSlots_worn {create : Fin eqSlotCount → Handling Key (Option ItemPtr)}
    (hcreate : ∀ slot : Fin eqSlotCount, MakesFor (UInt8.ofNat slot) (create slot))
    (slots : List (Fin eqSlotCount)) {equippedItems : UInt8 → Option ItemPtr} {w : World Key}
    (hlive : Live w.heap.toMemory w.heap.nextItem)
    (hworn : Worn w.heap.toMemory w.heap.nextItem equippedItems) :
    (equipSlots create slots equippedItems).Sat w fun r w' => Restocked w.heap w'.heap ∧
      ∃ equippedItems, r = .ok equippedItems ∧
        Worn w'.heap.toMemory w'.heap.nextItem equippedItems := by
  induction slots generalizing w equippedItems with
  | nil => exact (sat_pure _ _ _).mpr ⟨.refl _, _, rfl, hworn⟩
  | cons slot slots ih =>
    rw [equipSlots, sat_bind]
    refine (hcreate slot w).mono ?_
    rintro r w₁ ⟨hr, item, rfl, hitem⟩
    rw [then_ok]
    have hlive₁ := hlive.stocked hr.toStocked
    refine (ih hlive₁ ((hworn.stocked hr.toStocked).update fun i hi => ?_)).mono ?_
    · obtain ⟨hle, hlt, hequipable, hslot⟩ := hitem i hi
      refine ⟨hlt, fun hdestroyed => ?_, hequipable, hslot⟩
      exact absurd (hlive.items i (hr.destroyed ▸ hdestroyed)) (not_lt_of_ge hle)
    · rintro r w₂ ⟨hr₂, hequipped⟩
      exact ⟨hr.trans hr₂, hequipped⟩

/-! ### Commanders that are loaded -/

/-- The commanders behind the first `n` are clad. -/
structure Tidy (n : ℕ) (h : Heap Key) : Prop where
  live : Live h.toMemory h.nextItem
  clad : ∀ p c, n ≤ p → h.commander p = some c → Clad h.toMemory h.nextItem c.inventory

section Tidy
variable {n : ℕ} {h h' : Heap Key}

theorem Tidy.restocked (ht : Tidy n h) (hr : Restocked h h') : Tidy n h' where
  live := ht.live.stocked hr.toStocked
  clad p c hp hc := by
    rw [Heap.commander, hr.commanders] at hc
    exact (ht.clad p c hp hc).stocked hr.toStocked

/-- What else is done to the heap. -/
theorem Tidy.aside (ht : Tidy n h) (hmemory : h'.toMemory = h.toMemory)
    (hnext : h'.nextItem = h.nextItem) (hcommanders : h'.commanders = h.commanders) : Tidy n h' := by
  refine ht.restocked ⟨⟨hnext.ge, fun p _ => ?_, ?_, ?_, ?_⟩, hcommanders⟩ <;> rw [hmemory]

theorem Tidy.newCommander (ht : Tidy n h) {c : Commander Key}
    (hc : Clad h.toMemory h.nextItem c.inventory) : Tidy n (h.newCommander c).2 where
  live := ht.live
  clad p d hp hd := by
    have hd : (h.commanders ++ [some c])[p]? = some (some d) := Option.join_eq_some_iff.mp hd
    rcases lt_or_ge p h.commanders.length with hlt | hge
    · rw [List.getElem?_append_left hlt] at hd
      exact ht.clad p d hp (Option.join_eq_some_iff.mpr hd)
    · rw [List.getElem?_append_right hge] at hd
      obtain rfl := Option.some.inj (List.mem_singleton.mp (List.mem_of_getElem? hd))
      exact hc

theorem Tidy.setCommander (ht : Tidy n h) (p : CommanderPtr) {c : Option (Commander Key)}
    (hc : ∀ d, c = some d → Clad h.toMemory h.nextItem d.inventory) :
    Tidy n (h.setCommander p c) where
  live := ht.live
  clad q d hq hd := by
    have hd : (h.commanders.set p c)[q]? = some (some d) := Option.join_eq_some_iff.mp hd
    by_cases hpq : p = q
    · subst hpq
      obtain ⟨hlt, hd⟩ := List.getElem?_eq_some_iff.mp hd
      rw [List.getElem_set_self] at hd
      exact hc d hd
    · rw [List.getElem?_set_ne hpq] at hd
      exact ht.clad q d hq (Option.join_eq_some_iff.mpr hd)

/-- The heap of the world is tidy. -/
def TidyWorld (n : ℕ) (w : World Key) : Prop := Tidy n w.heap

theorem tidy_onHeap {α : Type} {f : Heap Key → α × Heap Key} (hf : ∀ h, Tidy n h → Tidy n (f h).2) :
    Preserves (TidyWorld n) (onHeap f) :=
  preserves_act fun w hw => hf w.heap hw

theorem tidy_allocate (env : Env Key) : Preserves (TidyWorld n) (allocate env) :=
  tidy_onHeap fun _ ht => ht.aside rfl rfl rfl

theorem tidy_commanderSlot (commanders : Option CommandersPtr) (i : Int) :
    Preserves (TidyWorld n) (commanderSlot commanders i : Handling Key _) :=
  (preserves_gets _).bind fun _ => (preserves_found _).bind fun _ =>
    .ite (preserves_found _) preserves_fault

theorem tidy_setCommanderSlot (commanders : Option CommandersPtr) (i : ℕ)
    (p : Option CommanderPtr) :
    Preserves (TidyWorld n) (setCommanderSlot commanders i p : Handling Key Unit) :=
  (preserves_found _).bind fun _ => (preserves_gets _).bind fun _ => (preserves_found _).bind
    fun _ => .ite (tidy_onHeap fun _ ht => ht.aside rfl rfl rfl) preserves_fault

theorem tidy_commanderNew (env : Env Key) : Preserves (TidyWorld n) (commanderNew env) := by
  refine (tidy_allocate env).bind fun allocated => .ite ?_ (preserves_pure _)
  exact (tidy_onHeap fun _ ht => ht.newCommander (clad_init _ _)).bind fun _ => preserves_pure _

theorem tidy_destroySlot (commanders : Option CommandersPtr) (i : ℕ) :
    Preserves (TidyWorld n) (@destroySlot Key commanders i) := by
  refine (tidy_commanderSlot commanders i).bind fun slot => ?_
  cases slot with
  | none => exact preserves_pure _
  | some p =>
    refine Preserves.bind (tidy_onHeap fun _ ht => ht.setCommander p fun d hd => ?_) fun _ =>
      tidy_setCommanderSlot commanders i none
    cases hd

theorem tidy_fillSlots (env : Env Key) (commanders : Option CommandersPtr) (i count : ℕ) :
    Preserves (TidyWorld n) (fillSlots env commanders i count) := by
  induction count generalizing i with
  | zero => exact preserves_pure _
  | succ count ih =>
    exact (tidy_commanderNew env).bind fun p => (tidy_setCommanderSlot commanders i p).bind fun _ =>
      .ite (ih (i + 1)) (preserves_pure _)

theorem tidy_destroySlots (commanders : Option CommandersPtr) (i count : ℕ) :
    Preserves (TidyWorld n) (@destroySlots Key commanders i count) := by
  induction count generalizing i with
  | zero => exact preserves_pure _
  | succ count ih => exact (tidy_destroySlot commanders i).bind fun _ => ih (i + 1)

/-- The commander of a row wears the items of the row. -/
theorem tidy_mySqlGetCommanders {env : Env Key} (familyName : Chars 64)
    (commanders : Option CommandersPtr) {rows : List (UInt64 × CommanderRow)}
    (hrows : ∀ row ∈ rows, ∀ slot, Wearable env (row.2.eqSlots slot)) (i : ℕ) :
    Preserves (TidyWorld n) (mySqlGetCommanders env familyName commanders rows i) := by
  induction rows generalizing i with
  | nil => exact preserves_pure _
  | cons row rows ih =>
    obtain ⟨hrow, hrows⟩ := List.forall_mem_cons.mp hrows
    refine (tidy_commanderSlot commanders i).bind fun slot => (preserves_found slot).bind fun p =>
      ((preserves_gets _).bind fun _ => preserves_found _).bind fun c => ?_
    intro w hw
    rw [sat_bind]
    refine (equipSlots_worn (fun slot : Fin eqSlotCount => itemFactoryCreateEquipable_makesFor
      (hrow slot) 1 (UInt8.ofNat slot)) (List.finRange eqSlotCount) hw.live (worn_none _ _)).mono ?_
    rintro r w₁ ⟨hr, equippedItems, rfl, hworn⟩
    rw [then_ok]
    have hset : (setCommander p (some (row.2.toCommander row.1 familyName (env.rand p)
        equippedItems))).Sat w₁ fun _ => TidyWorld n := by
      rw [sat_setCommander]
      refine (hw.restocked hr).setCommander p fun d hd => ?_
      obtain rfl := Option.some.inj hd
      exact ⟨fun _ => rfl, hworn⟩
    exact hset.bind (fun _ _ h => h) fun _ w₂ h₂ => ih hrows (i + 1) w₂ h₂

theorem tidy_mySqlLoadAccountCommanders {env : Env Key} (accountSession : AccountSession)
    (accountId : UInt64) {w : World Key} (hw : TidyWorld n w)
    (hrows : ∀ rows, env.selectCommanders w.writes accountId = .success (some rows) →
      ∀ row ∈ rows, ∀ slot, Wearable env (row.2.eqSlots slot)) :
    (mySqlLoadAccountCommanders env accountSession accountId).Sat w fun _ => TidyWorld n := by
  simp only [mySqlLoadAccountCommanders, mySqlRequestCommandersByAccountId, sat_bind, sat_gets,
    then_ok]
  rcases hselect : env.selectCommanders w.writes accountId with _ | _ | rows
  · simpa using hw
  · simp
  · simp only [sat_pure, then_ok]
    have hinit : Preserves (TidyWorld n) (accountSessionCommandersInit env
        { accountSession with commandersCountMax := 5 } 5 rows.length) := by
      refine (tidy_allocate env).bind fun _ => .ite ?_ (.ite (preserves_pure _) preserves_fault)
      refine Preserves.bind (tidy_onHeap fun _ ht => ht.aside rfl rfl rfl) fun a =>
        (tidy_fillSlots env (some a) 0 rows.length).bind fun _ => .ite (preserves_pure _) ?_
      exact (tidy_destroySlots (some a) 0 rows.length).bind fun _ => preserves_pure _
    refine hinit.bind (fun loaded => ?_) w hw
    cases loaded with
    | none => exact preserves_pure _
    | some loaded =>
      exact (tidy_mySqlGetCommanders _ _ (hrows rows hselect) 0).bind fun _ => preserves_pure _

end Tidy

/-! ### Items of a packet -/

/-- What is behind the fields of a record that are there. -/
def fieldsRest : List ℕ → List UInt8 → List UInt8
  | [], bs => bs
  | size :: sizes, bs => fieldsRest sizes (if bs.length < size then bs else bs.drop size)

/-- Reading the fields leaves what is behind them, and what of the record is in none of them. -/
theorem unserializeFields_rest {σ β : Type} {fs : List (PacketField σ)} {kept : σ → β}
    (hsizes : ∀ f ∈ fs, 0 < f.size) (hkept : ∀ f ∈ fs, ∀ data x, kept (f.set data x) = kept x)
    (x : σ) {stream : PacketStream} (hw : stream.Whole) :
    ∃ y stream', unserializeFields fs x stream = .ok (y, stream') ∧ kept y = kept x ∧
      stream'.Whole ∧ stream'.rest = fieldsRest (fs.map (·.size)) stream.rest := by
  induction fs generalizing x stream with
  | nil => exact ⟨x, stream, rfl, rfl, hw, rfl⟩
  | cons f fs ih =>
    obtain ⟨hsize, hsizes⟩ := List.forall_mem_cons.mp hsizes
    obtain ⟨hset, hkept⟩ := List.forall_mem_cons.mp hkept
    rw [unserializeFields, List.map_cons, fieldsRest]
    by_cases hlen : stream.rest.length < f.size
    · rw [if_pos hlen, bind_ok (get_none hw hlen)]
      exact ih hsizes hkept x hw
    · rw [if_neg hlen, bind_ok (reads_get hw hsize (not_lt.mp hlen)),
        ← PacketStream.packetStreamAddOffset_rest]
      obtain ⟨y, stream', hread, hy, hrest⟩ := ih hsizes hkept
        (f.set (stream.rest.take f.size) x) (hw.offset f.size)
      exact ⟨y, stream', hread, hy.trans (hset _ x), hrest⟩

/-- The byte that holds the category of the item is the code of one that can be worn. -/
def WearableStart (bs : List UInt8) : Prop :=
  ∀ category, ItemCategory.ofCode (leValue ((bs.drop 16).take 1)) = some category →
    category.equipable = true

/-- So are those of all the items among the equipment of an inventory. -/
def WearableEquipment (bs : List UInt8) : Prop :=
  ∀ n, countField bs = some n → ∀ start ∈ itemStarts n (bs.drop 4), WearableStart start

section Packet
variable {heapByte : ℕ → UInt8} {stream : PacketStream} {self : Arena Key}

/-- An item that can be worn is put into the slot it names. -/
theorem equippedUnserializeSPacket_worn {n i : ℕ} (hw : stream.Whole)
    (hstarts : ∀ start ∈ itemStarts n stream.rest, WearableStart start)
    (hlive : Live self.toMemory self.nextItem)
    (hworn : Worn self.toMemory self.nextItem self.equippedItems)
    {r : Arena Key × PacketStream}
    (h : equippedUnserializeSPacket heapByte n i self stream = .ok r) :
    Live r.1.toMemory r.1.nextItem ∧ Worn r.1.toMemory r.1.nextItem r.1.equippedItems := by
  induction n generalizing i self stream with
  | zero =>
    cases h
    exact ⟨hlive, hworn⟩
  | succ n ih =>
    obtain ⟨item, t, hitem, h⟩ := bind_eq_ok h
    have hread := itemUnserializeSPacket_reads hw
    cases hsize : itemSize stream.rest with
    | none =>
      rw [hsize] at hread
      obtain ⟨e, he⟩ := hread
      cases he.symm.trans hitem
    | some size =>
      rw [hsize] at hread
      obtain ⟨item', hitem', -⟩ := hread
      cases hitem'.symm.trans hitem
      rw [itemStarts, hsize, Option.elim_some] at hstarts
      obtain ⟨hstart, hstarts⟩ := List.forall_mem_cons.mp hstarts
      have hequipable := hstart _ (itemUnserializeSPacket_category hw hitem)
      have hslot : equippedSlot (heapByte i) item.slot item.body = item.slot := if_pos hequipable
      rw [hslot] at h
      dsimp only at h
      split at h
      · refine ih (hw.offset size) ?_ (hlive.stocked (stocked_new _ _ item)) ?_ h
        · rwa [PacketStream.packetStreamAddOffset_rest]
        · refine (hworn.stocked (stocked_new _ _ item)).update ?_
          rintro _ ⟨⟩
          have hnew : Function.update self.item self.nextItem item (self.itemNew item).1 = item :=
            Function.update_self ..
          dsimp only
          rw [hnew]
          refine ⟨Nat.lt_succ_self _, fun hdestroyed => ?_, hequipable, rfl⟩
          exact absurd (hlive.items _ hdestroyed) (lt_irrefl _)
      · cases h

theorem bagsUnserializeSPacket_worn {n : ℕ} (hlive : Live self.toMemory self.nextItem)
    (hclad : Clad self.toMemory self.nextItem self.toInventory) {r : Arena Key × PacketStream}
    (h : bagsUnserializeSPacket n self stream = .ok r) :
    Live r.1.toMemory r.1.nextItem ∧ Clad r.1.toMemory r.1.nextItem r.1.toInventory := by
  induction n generalizing self stream with
  | zero =>
    cases h
    exact ⟨hlive, hclad⟩
  | succ n ih =>
    obtain ⟨item, t, -, h⟩ := bind_eq_ok h
    have hlive' := hlive.stocked (stocked_new _ _ item)
    refine ih ?_ ?_ h
    · refine ⟨hlive'.items, fun handle hhandle => ?_⟩
      have hne : handle ≠ self.next := by
        rintro rfl
        exact absurd hhandle (Nat.not_succ_le_self _)
      exact (Function.update_of_ne hne _ _).trans
        (hlive'.cells handle (Nat.le_of_succ_le hhandle))
    · have hworn := hclad.worn.stocked (stocked_new _ _ item)
      exact ⟨hclad.items, hworn⟩

theorem inventoryCount_eq_ok (hw : stream.Whole) {r : ℕ × PacketStream}
    (h : inventoryCount stream = .ok r) :
    countField stream.rest = some r.1 ∧ r.2 = stream.packetStreamAddOffset 4 := by
  by_cases hlen : stream.rest.length < 4
  · rw [inventoryCount, itemChildField, bind_ok (get_none hw hlen)] at h
    cases h
  · rw [inventoryCount_ok hw (not_lt.mp hlen)] at h
    cases h
    exact ⟨if_neg hlen, rfl⟩

/-- An inventory that had nothing is clad in what the packet equips it with. -/
theorem inventoryUnserializeSPacket_clad (hw : stream.Whole)
    (hwearable : WearableEquipment stream.rest) (hlive : Live self.toMemory self.nextItem)
    (hempty : self.equippedItems = fun _ => none) {r : (Bool × Arena Key) × PacketStream}
    (h : inventoryUnserializeSPacket heapByte self stream = .ok r) :
    Live r.1.2.toMemory r.1.2.nextItem ∧ Clad r.1.2.toMemory r.1.2.nextItem r.1.2.toInventory := by
  obtain ⟨n, t, hcount, h⟩ := bind_eq_ok h
  obtain ⟨hn, rfl⟩ := inventoryCount_eq_ok hw hcount
  obtain ⟨equipped, t, hequipped, h⟩ := bind_eq_ok h
  have hdestroyed : self.freeEquipment.destroyed = self.destroyed := by
    simp [Arena.freeEquipment, hempty]
  have hlive' : Live self.freeEquipment.toMemory self.freeEquipment.nextItem :=
    ⟨fun item hitem => hlive.items item (hdestroyed ▸ hitem), hlive.cells⟩
  have hworn : Worn self.freeEquipment.toMemory self.freeEquipment.nextItem
      self.freeEquipment.equippedItems := by
    intro slot item hitem
    simp [Arena.freeEquipment, hempty] at hitem
  have hstarts := hwearable n hn
  rw [← PacketStream.packetStreamAddOffset_rest] at hstarts
  obtain ⟨hlive₁, hworn₁⟩ := equippedUnserializeSPacket_worn (hw.offset 4) hstarts hlive' hworn
    hequipped
  obtain ⟨m, t', -, h⟩ := bind_eq_ok h
  obtain ⟨carried, t'', hcarried, h⟩ := bind_eq_ok h
  cases h
  have hlive₂ : Live equipped.purge.toMemory equipped.purge.nextItem := hlive₁
  exact bagsUnserializeSPacket_worn hlive₂ ⟨fun _ => rfl, hworn₁⟩ hcarried

/-- The bytes of a commander's packet behind its fields. -/
def inventoryBytes (bytes : List UInt8) : List UInt8 :=
  fieldsRest ((commanderPacketFields : List (PacketField (Commander Unit))).map (·.size)) bytes

theorem commanderPacketFields_inventory :
    ∀ f ∈ (commanderPacketFields : List (PacketField (Commander Key))), ∀ data x,
      (f.set data x).inventory = x.inventory := by
  simp [commanderPacketFields, appearanceFields, identificatorFields, statsFields, charsField,
    u8Field, u16Field, u32Field, u64Field, numberField, positionXYZField, positionXZField]

theorem commanderUnserializeSPacket_clad {memory : R1Emu.Commander.Memory} {nextItem : ItemPtr}
    {bytes : List UInt8} (hwearable : WearableEquipment (inventoryBytes bytes))
    (hlive : Live memory nextItem) {r : (Bool × Commander Key × Arena Key) × PacketStream}
    (h : commanderUnserializeSPacket heapByte memory nextItem
      (PacketStream.packetStreamInit bytes bytes.length) = .ok r) :
    Live r.1.2.2.toMemory r.1.2.2.nextItem ∧
      Clad r.1.2.2.toMemory r.1.2.2.nextItem r.1.2.2.toInventory := by
  obtain ⟨self, stream', hfields, hinventory, hw, hrest⟩ := unserializeFields_rest
    (fun f hf => (commanderPacketFields_sized f hf).1) commanderPacketFields_inventory
      (commanderInit : Commander Key) (PacketStream.whole_init bytes)
  rw [commanderUnserializeSPacket, bind_ok hfields] at h
  obtain ⟨⟨status, arena⟩, t, hread, h⟩ := bind_eq_ok h
  cases h
  refine inventoryUnserializeSPacket_clad hw ?_ ?_ ?_ hread
  · rw [hrest]
    exact hwearable
  · exact hlive
  · exact congrArg Inventory.equippedItems hinventory

end Packet

end R1Emu.Game
