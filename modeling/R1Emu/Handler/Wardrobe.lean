import R1Emu.Commander.InventoryIndex
import R1Emu.Game.Equipment
import R1Emu.Handler.OneSession

/-!
# Commanders and what they put on and take off

A commander is created by a handler, loaded from its row or from Redis, or decoded from a
packet. Afterwards items are equipped and unequipped. Only Redis gives items that do not name
their slots; all four give items that cannot be worn where the static data, or the packet, say
so. An item that is equipped is destroyed.
-/
namespace R1Emu.Handler
open R1Emu.Actor R1Emu.Game R1Emu.Lib R1Emu.Lib.Stage R1Emu.Lib.Transition R1Emu.Server
open R1Emu.Packet hiding bind_ok
open R1Emu.Commander (Inventory ItemPtr Store eqSlotCount eqSlots inventoryInit inventoryEquipItem
  inventoryUnequipItem inventoryGetItemByActorId itemHandleNew unequipped setSlot_uid equipped
  inventoryAddItem_taken inventoryUnequipItem_free inventoryUnequipItem_occupied
  inventoryEquipItem_missing inventoryEquipItem_free inventoryEquipItem_occupied found_of_cell)

variable {Key : Type}

/-! ### Commanders that are created -/

section Create
variable {env : Env Key} {n : ℕ}

theorem createDefaultItem_makesFor (hwearable : ∀ slot, Wearable env (defaultEquipment slot))
    (slot : Fin eqSlotCount) : MakesFor (UInt8.ofNat slot) (createDefaultItem env slot) := by
  intro w
  rw [createDefaultItem, sat_bind]
  refine (itemFactoryCreate_restocked env _ 1 w).mono ?_
  rintro r w' ⟨hr, item, rfl, hitem⟩
  rw [then_ok, sat_bind, sat_found]
  rintro i rfl
  obtain ⟨hle, hlt, hcategory, -⟩ := hitem i rfl
  simp only [then_ok, setItemSlot, onHeap, sat_bind, sat_act, sat_pure]
  refine ⟨restocked_setItemSlot hr hle _, _, rfl, ?_⟩
  rintro _ ⟨⟩
  rw [setItemSlot_item]
  exact ⟨hle, hlt, hwearable slot _ hcategory, rfl⟩

theorem tidy_r1emuGenerateRandom : Preserves (TidyWorld n) (@r1emuGenerateRandom Key) := by
  intro w hw
  rw [sat_r1emuGenerateRandom, TidyWorld]
  exact hw

theorem newCommander_clad (hwearable : ∀ slot, Wearable env (defaultEquipment slot)) (packet : ℕ)
    {w : World Key} (hw : TidyWorld n w) :
    (newCommander env packet).Sat w fun r w' => TidyWorld n w' ∧
      ∀ c, r = .ok (.ok c) → Clad w'.heap.toMemory w'.heap.nextItem c.inventory := by
  simp only [newCommander, sat_bind, sat_gets, sat_readString, sat_readU16, sat_readU8, then_ok,
    sat_ite, sat_pure]
  refine ⟨fun _ => ⟨hw, fun _ hc => by cases hc⟩, fun _ =>
    ⟨fun _ => ⟨hw, fun _ hc => by cases hc⟩, fun _ => ?_⟩⟩
  cases commanderClass (UInt16.ofNat (Bytes.leValue (w.memory.read (packet + 66) 2))) with
  | none => exact (sat_pure _ _ _).mpr ⟨hw, fun _ hc => by cases hc⟩
  | some classId =>
    rw [sat_ite]
    refine ⟨fun _ => (sat_pure _ _ _).mpr ⟨hw, fun _ hc => by cases hc⟩, fun _ => ?_⟩
    have hrandom64 : Preserves (TidyWorld n) (@r1emuGenerateRandom64 Key) :=
      tidy_r1emuGenerateRandom.bind fun _ => tidy_r1emuGenerateRandom.bind fun _ =>
        preserves_pure _
    refine (tidy_r1emuGenerateRandom w hw).bind (fun _ _ h => ⟨h, fun _ hc => by cases hc⟩)
      fun pcId w₁ h₁ => ?_
    refine (hrandom64 w₁ h₁).bind (fun _ _ h => ⟨h, fun _ hc => by cases hc⟩)
      fun socialInfoId w₂ h₂ => ?_
    rw [sat_bind]
    refine (equipSlots_worn (createDefaultItem_makesFor hwearable) (List.finRange eqSlotCount)
      h₂.live (worn_none _ _)).mono ?_
    rintro _ w₃ ⟨hr, equippedItems, rfl, hworn⟩
    rw [then_ok, sat_pure]
    refine ⟨h₂.restocked hr, fun c hc => ?_⟩
    obtain rfl := Except.ok.inj (Except.ok.inj hc)
    exact ⟨fun _ => rfl, hworn⟩

theorem commanderDup_tidy {w : World Key} (hw : TidyWorld n w) {c : Commander Key}
    (hc : Clad w.heap.toMemory w.heap.nextItem c.inventory) :
    (commanderDup env (pure c)).Sat w fun _ => TidyWorld n := by
  have hasked : Tidy n { w.heap with attempts := w.heap.attempts + 1 } := hw.aside rfl rfl rfl
  simp only [commanderDup, sat_bind, sat_allocate, then_ok, sat_ite, sat_pure, sat_onHeap]
  exact ⟨fun _ => hasked.newCommander hc, fun _ => hasked⟩

/-- The copy of the new commander wears what it does. -/
theorem barrackHandlerCommanderCreate_tidy
    (hwearable : ∀ slot, Wearable env (defaultEquipment slot)) (packet packetSize : ℕ)
    {w : World Key} (hw : TidyWorld n w) :
    (barrackHandlerCommanderCreate env packet packetSize).Sat w fun _ => TidyWorld n := by
  simp only [barrackHandlerCommanderCreate, sat_bind, sat_checkSize, sat_readU8, sat_gets, then_ok,
    then_error, accountSessionIsCommanderSlotEmpty, sat_ite, sat_pure, sat_commanderSlot,
    sat_require]
  refine ⟨fun _ => ⟨fun _ => ⟨fun h => absurd h Bool.false_ne_true, fun _ => hw⟩,
    fun _ slot hslot => ⟨fun _ => ?_, fun _ => hw⟩⟩, fun _ => hw⟩
  refine (newCommander_clad hwearable packet hw).mono ?_
  rintro r w₁ ⟨h₁, hclad⟩
  rcases r with state | msgType | commander
  · exact h₁
  · simp only [then_ok, sat_bind, sat_send, sat_pure]
    exact h₁
  have hc := hclad commander rfl
  simp only [then_ok, mySqlCommanderInsert, sat_bind, sat_gets, sat_found, sat_perform, sat_pure]
  intro eqSlots _
  split
  case h_1 =>
    rw [sat_pure, TidyWorld, written_heap]
    exact h₁
  case h_2 commanderId hid =>
    have h₂ : TidyWorld n (w₁.written env (.insertCommander (commanderRow commander eqSlots))) := by
      rw [TidyWorld, written_heap]
      exact h₁
    rw [sat_bind]
    refine (commanderDup_tidy h₂ (c := { commander with commanderId := commanderId }) ?_).mono ?_
    · rw [written_heap]
      exact hc
    · rintro (state | _ | dupCommander) w₃ h₃
      · exact h₃
      · exact (sat_pure _ _ _).mpr h₃
      · simp only [then_ok, sat_bind, sat_setCommanderSlot, sat_send, sat_pure]
        exact fun a _ slots _ _ => Tidy.aside h₃ rfl rfl rfl

end Create

/-! ### Where commanders come from -/

/-- A world in which what is allocated next has not been freed. -/
abbrev LiveWorld (Key : Type) := { w : World Key // Live w.heap.toMemory w.heap.nextItem }

/-- The ways in which the program comes by a commander. -/
inductive Production (Key : Type)
  | create (env : Env Key) (w : LiveWorld Key) (packet packetSize : ℕ)
  | rows (env : Env Key) (w : LiveWorld Key) (accountSession : AccountSession) (accountId : UInt64)
  | reply (env : Env Key) (w : LiveWorld Key) (key : RedisGameSessionKey)
  | decode (heapByte : ℕ → UInt8) (w : LiveWorld Key) (bytes : List UInt8)

/-- The inventory of a commander that was not there before. -/
def newStore {α : Type} (w : World Key) (outcome : Option (Except PacketHandlerState α × World Key))
    (p : CommanderPtr) : Option (Store Key) := do
  let (_, w') ← outcome
  if w.heap.commanders.length ≤ p then
    (w'.heap.commander p).map (·.store w'.heap.toMemory)
  else none

def Production.store (p : CommanderPtr) : Production Key → Option (Store Key)
  | .create env w packet packetSize =>
    newStore w.1 (barrackHandlerCommanderCreate env packet packetSize w.1) p
  | .rows env w accountSession accountId =>
    newStore w.1 (mySqlLoadAccountCommanders env accountSession accountId w.1) p
  | .reply env w key => newStore w.1 (redisGetGameSession env key w.1) p
  | .decode heapByte w bytes =>
    match commanderUnserializeSPacket heapByte w.1.heap.toMemory w.1.heap.nextItem
        (PacketStream.packetStreamInit bytes bytes.length) with
    | .ok ((_, _, arena), _) => some arena.toStore
    | .error _ => none

/-- The static data, or the packet, give items that can be worn; nothing comes from Redis. -/
def Production.Suitable : Production Key → Prop
  | .create env _ _ _ => ∀ slot, Wearable env (defaultEquipment slot)
  | .rows env w _ accountId => ∀ rows,
    env.selectCommanders w.1.writes accountId = .success (some rows) →
      ∀ row ∈ rows, ∀ slot, Wearable env (row.2.eqSlots slot)
  | .reply .. => False
  | .decode _ _ bytes => WearableEquipment (inventoryBytes bytes)

theorem tidy_start (w : LiveWorld Key) : TidyWorld w.1.heap.commanders.length w.1 where
  live := w.2
  clad p c hp hc := by
    have hc := Option.join_eq_some_iff.mp hc
    exact absurd (List.getElem?_eq_some_iff.mp hc).1 (not_lt_of_ge hp)

theorem newStore_clad {α : Type} {w : World Key} {m : Handling Key α} {p : CommanderPtr}
    {store : Store Key}
    (hm : m.Sat w fun _ => TidyWorld w.heap.commanders.length)
    (h : newStore w (m w) p = some store) : ∃ nextItem,
      Live store.toMemory nextItem ∧ Clad store.toMemory nextItem store.toInventory := by
  obtain ⟨⟨r, w'⟩, hrun, h⟩ := Option.bind_eq_some_iff.mp h
  have htidy := hm r w' hrun
  dsimp only at h
  split at h
  case isFalse => cases h
  case isTrue hp =>
    obtain ⟨c, hc, rfl⟩ := Option.map_eq_some_iff.mp h
    exact ⟨w'.heap.nextItem, htidy.live, htidy.clad p c hp hc⟩

/-- A suitable production gives a commander that wears items that can be worn. -/
theorem Production.clad {production : Production Key} (hsuitable : production.Suitable)
    {p : CommanderPtr} {store : Store Key} (h : production.store p = some store) : ∃ nextItem,
      Live store.toMemory nextItem ∧ Clad store.toMemory nextItem store.toInventory := by
  cases production with
  | create env w packet packetSize =>
    exact newStore_clad
      (barrackHandlerCommanderCreate_tidy hsuitable packet packetSize (tidy_start w)) h
  | rows env w accountSession accountId =>
    exact newStore_clad
      (tidy_mySqlLoadAccountCommanders accountSession accountId (tidy_start w) hsuitable) h
  | reply env w key => exact hsuitable.elim
  | decode heapByte w bytes =>
    rw [Production.store] at h
    split at h
    case h_1 c arena t hread =>
      cases h
      exact ⟨arena.nextItem, commanderUnserializeSPacket_clad hsuitable w.2 hread⟩
    case h_2 => cases h

/-! ### Putting on and taking off -/

/-- Every slot that is not empty holds an item of an equipable category that names the slot. -/
def Equipped (store : Store Key) : Prop :=
  ∀ slot item, slot.toNat < eqSlotCount → store.equippedItems slot = some item →
    item ∉ store.destroyed ∧ (store.item item).category.equipable = true ∧
      (store.item item).slot = slot

inductive Dressing (Key : Type)
  | produce (production : Production Key) (p : CommanderPtr)
  | equip (actorId : UInt64) (eqSlot : UInt8)
  | unequip (eqSlot : UInt8)

variable [DecidableEq Key] (actorGenKey : UInt64 → Key)

/-- A commander is produced, and then puts items on and takes them off. -/
def wardrobe : System (Option (Store Key)) (Dressing Key) where
  init s := s = none
  step
    | none, .produce production p => (production.store p).map some
    | some store, .equip actorId eqSlot =>
      (inventoryEquipItem actorGenKey store actorId eqSlot).map fun r => some r.2
    | some store, .unequip eqSlot =>
      (inventoryUnequipItem actorGenKey store eqSlot).map fun r => some r.2
    | _, _ => none

omit [DecidableEq Key] in
/-- The item is found, and the slot is free or can be freed. -/
def PutsOn (store : Store Key) (actorId : UInt64) (eqSlot : UInt8) : Prop :=
  (∃ item, store.found actorGenKey actorId = some item) ∧
    ∀ worn, store.equippedItems eqSlot = some worn →
      store.items (actorGenKey (store.item worn).uid) = none

omit [DecidableEq Key] in
/-- The commander is produced with items that can be worn, and puts no other ones on. -/
def KeepsOutfit : Option (Store Key) → Dressing Key → Prop
  | _, .produce production _ => production.Suitable
  | some store, .equip actorId eqSlot => ¬ PutsOn actorGenKey store actorId eqSlot
  | _, _ => True

omit [DecidableEq Key] in
/-- Moreover, what is found in the inventory for a uid has that uid and has not been freed. -/
structure Dressed (store : Store Key) : Prop where
  equipped : Equipped store
  fresh : ∀ handle, store.next ≤ handle → store.cell handle = none
  held : ∀ key handle, store.items key = some handle → ∃ item,
    store.cell handle = some item ∧ actorGenKey (store.item item).uid = key ∧
      item ∉ store.destroyed

section Dressed
variable {actorGenKey} {store : Store Key}

omit [DecidableEq Key] in
theorem dressed_of_clad {nextItem : ItemPtr} (hlive : Live store.toMemory nextItem)
    (hclad : Clad store.toMemory nextItem store.toInventory) : Dressed actorGenKey store where
  equipped slot item _ hitem := (hclad.worn slot item hitem).2
  fresh := hlive.cells
  held key _ hkey := absurd ((hclad.items key).symm.trans hkey) (Option.some_ne_none _).symm

omit [DecidableEq Key] in
/-- A handle that is found is not the next one. -/
theorem Dressed.ne_next (h : Dressed actorGenKey store) {key : Key} {handle : ℕ}
    (hkey : store.items key = some handle) : handle ≠ store.next := by
  rintro rfl
  obtain ⟨item, hcell, -⟩ := h.held key _ hkey
  cases (h.fresh _ le_rfl).symm.trans hcell

omit [DecidableEq Key] in
/-- A handle that is made and left alone. -/
theorem Dressed.handleNew (h : Dressed actorGenKey store) (item : ItemPtr) :
    Dressed actorGenKey (itemHandleNew store item).2 where
  equipped := h.equipped
  fresh handle hhandle := by
    have hne : handle ≠ store.next := fun he => absurd hhandle (he ▸ Nat.not_succ_le_self _)
    exact (Function.update_of_ne hne _ _).trans (h.fresh handle (Nat.le_of_succ_le hhandle))
  held key handle hkey := by
    obtain ⟨i, hcell, huid, halive⟩ := h.held key handle hkey
    exact ⟨i, (Function.update_of_ne (h.ne_next hkey) _ _).trans hcell, huid, halive⟩

/-- An item that is taken off names no slot, and no other slot holds it. -/
theorem Dressed.takeOff (h : Dressed actorGenKey store) {eqSlot : UInt8} {item : ItemPtr}
    (hslot : eqSlot.toNat < eqSlotCount) (hitem : store.equippedItems eqSlot = some item) :
    Dressed actorGenKey (unequipped actorGenKey store item eqSlot) where
  equipped slot i hlt hi := by
    have hslots : (unequipped actorGenKey store item eqSlot).equippedItems =
        Function.update store.equippedItems eqSlot none := rfl
    rw [hslots] at hi
    by_cases heq : slot = eqSlot
    · rw [heq, Function.update_self] at hi
      cases hi
    · rw [Function.update_of_ne heq] at hi
      obtain ⟨halive, hequipable, hnames⟩ := h.equipped slot i hlt hi
      have hne : i ≠ item := by
        rintro rfl
        exact heq (hnames.symm.trans (h.equipped eqSlot i hslot hitem).2.2)
      have hsame : (unequipped actorGenKey store item eqSlot).item i = store.item i :=
        Function.update_of_ne hne _ _
      rw [hsame]
      exact ⟨halive, hequipable, hnames⟩
  fresh := (h.handleNew item).fresh
  held key handle hkey := by
    have huid : ∀ j, ((unequipped actorGenKey store item eqSlot).item j).uid = (store.item j).uid :=
      fun j => setSlot_uid _ item j eqSlotNoSlot
    have hitems : (unequipped actorGenKey store item eqSlot).items =
        Function.update store.items (actorGenKey (store.item item).uid) (some store.next) := rfl
    rw [hitems] at hkey
    by_cases hown : key = actorGenKey (store.item item).uid
    · rw [hown, Function.update_self] at hkey
      cases hkey
      exact ⟨item, Function.update_self .., by rw [huid, hown],
        (h.equipped eqSlot item hslot hitem).1⟩
    · rw [Function.update_of_ne hown] at hkey
      obtain ⟨i, hcell, hi, halive⟩ := h.held key handle hkey
      exact ⟨i, (Function.update_of_ne (h.ne_next hkey) _ _).trans hcell, by rw [huid, hi], halive⟩

/-- Nothing happens when the item's key is taken, but for a handle. -/
theorem inventoryUnequipItem_taken {eqSlot : UInt8} {item : ItemPtr}
    (hslot : eqSlot.toNat < eqSlotCount) (hitem : store.equippedItems eqSlot = some item)
    (halive : item ∉ store.destroyed) (htaken : (store.items (actorGenKey (store.item item).uid)).isSome) :
    inventoryUnequipItem actorGenKey store eqSlot = some (false, (itemHandleNew store item).2) := by
  simp [inventoryUnequipItem, hslot, hitem, inventoryAddItem_taken actorGenKey halive htaken]

theorem Dressed.unequip (h : Dressed actorGenKey store) {eqSlot : UInt8} {r : Bool × Store Key}
    (hrun : inventoryUnequipItem actorGenKey store eqSlot = some r) : Dressed actorGenKey r.2 := by
  by_cases hslot : eqSlot.toNat < eqSlotCount
  · cases hitem : store.equippedItems eqSlot with
    | none =>
      rw [inventoryUnequipItem_free actorGenKey hslot hitem] at hrun
      cases hrun
      exact h
    | some item =>
      have halive := (h.equipped eqSlot item hslot hitem).1
      cases hkey : store.items (actorGenKey (store.item item).uid) with
      | none =>
        rw [inventoryUnequipItem_occupied actorGenKey hslot hitem halive hkey] at hrun
        cases hrun
        exact h.takeOff hslot hitem
      | some handle =>
        rw [inventoryUnequipItem_taken hslot hitem halive (by rw [hkey]; rfl)] at hrun
        cases hrun
        exact h.handleNew item
  · rw [inventoryUnequipItem, if_neg hslot] at hrun
    cases hrun

/-- The slot is not freed, and so the item is not put on. -/
theorem Dressed.equip (h : Dressed actorGenKey store) {actorId : UInt64} {eqSlot : UInt8}
    {r : Bool × Store Key} (hrun : inventoryEquipItem actorGenKey store actorId eqSlot = some r)
    (hnot : ¬ PutsOn actorGenKey store actorId eqSlot) : Dressed actorGenKey r.2 := by
  cases hkey : store.items (actorGenKey actorId) with
  | none =>
    rw [inventoryEquipItem_missing actorGenKey hkey] at hrun
    cases hrun
    exact h
  | some handle =>
    obtain ⟨item, hcell, -⟩ := h.held _ handle hkey
    have hfound := found_of_cell hkey hcell
    obtain ⟨worn, hworn, htaken⟩ : ∃ worn, store.equippedItems eqSlot = some worn ∧
        store.items (actorGenKey (store.item worn).uid) ≠ none := by
      by_contra hall
      refine hnot ⟨⟨item, hfound⟩, fun worn hworn => ?_⟩
      by_contra hsome
      exact hall ⟨worn, hworn, hsome⟩
    by_cases hslot : eqSlot.toNat < eqSlotCount
    · have hkept := inventoryUnequipItem_taken hslot hworn (h.equipped eqSlot worn hslot hworn).1
        (Option.isSome_iff_ne_none.mpr htaken)
      simp only [inventoryEquipItem, inventoryGetItemByActorId, hkey, hcell, Option.map_some,
        Option.bind_eq_bind, Option.bind_some, hslot, if_true, hworn, Option.isSome_some, hkept,
        Bool.false_eq_true, if_false, Option.pure_def, Option.some.injEq] at hrun
      subst hrun
      exact h.handleNew worn
    · simp [inventoryEquipItem, inventoryGetItemByActorId, hkey, hcell, hslot] at hrun

theorem not_equipped_equipped (store : Store Key) (item : ItemPtr) (handle : ℕ) {eqSlot : UInt8}
    (hslot : eqSlot.toNat < eqSlotCount) :
    ¬ Equipped (equipped actorGenKey store item handle eqSlot) := by
  intro h
  have hheld : (equipped actorGenKey store item handle eqSlot).equippedItems eqSlot = some item :=
    Function.update_self ..
  exact (h eqSlot item hslot hheld).1 (List.mem_cons_self ..)

/-- An item that is put on is destroyed, and stays in the slot. -/
theorem Dressed.not_equipped (h : Dressed actorGenKey store) {actorId : UInt64} {eqSlot : UInt8}
    {r : Bool × Store Key} (hrun : inventoryEquipItem actorGenKey store actorId eqSlot = some r)
    (hputs : PutsOn actorGenKey store actorId eqSlot) : ¬ Equipped r.2 := by
  obtain ⟨⟨item, hfound⟩, hfree⟩ := hputs
  obtain ⟨handle, hkey, hcell⟩ := Option.bind_eq_some_iff.mp hfound
  obtain ⟨item', hcell', huid, halive⟩ := h.held _ handle hkey
  obtain rfl := Option.some.inj (hcell.symm.trans hcell')
  rw [← huid] at hkey
  by_cases hslot : eqSlot.toNat < eqSlotCount
  · cases hworn : store.equippedItems eqSlot with
    | none =>
      rw [inventoryEquipItem_free actorGenKey hslot hworn huid.symm hkey hcell halive] at hrun
      cases hrun
      exact not_equipped_equipped store item handle hslot
    | some worn =>
      have hsame : inventoryEquipItem actorGenKey store actorId eqSlot =
          inventoryEquipItem actorGenKey store (store.item item).uid eqSlot := by
        simp only [inventoryEquipItem, inventoryGetItemByActorId, huid]
      obtain ⟨-, -, hequip⟩ := inventoryEquipItem_occupied actorGenKey hslot hworn
        (h.equipped eqSlot worn hslot hworn).1 (hfree worn hworn) (h.fresh _ le_rfl) hkey hcell
        halive
      rw [hsame, hequip] at hrun
      cases hrun
      exact not_equipped_equipped _ item handle hslot
  · rw [huid] at hkey
    simp [inventoryEquipItem, inventoryGetItemByActorId, hkey, hcell, hslot] at hrun

/-! ### Runs -/

theorem dressed_inductive : Inductive (wardrobe actorGenKey) (KeepsOutfit actorGenKey)
    (fun s => ∀ store, s = some store → Dressed actorGenKey store) where
  init s hs store hstore := absurd (hs.symm.trans hstore) (Option.some_ne_none store).symm
  step s a s' h hok hstep store' hstore' := by
    subst hstore'
    cases s with
    | none =>
      cases a with
      | produce production p =>
        obtain ⟨store, hstore, hsome⟩ := Option.map_eq_some_iff.mp hstep
        cases hsome
        obtain ⟨nextItem, hlive, hclad⟩ := Production.clad hok hstore
        exact dressed_of_clad hlive hclad
      | equip actorId eqSlot => cases hstep
      | unequip eqSlot => cases hstep
    | some store =>
      cases a with
      | produce production p => cases hstep
      | equip actorId eqSlot =>
        obtain ⟨r, hrun, hsome⟩ := Option.map_eq_some_iff.mp hstep
        cases hsome
        exact (h store rfl).equip hrun hok
      | unequip eqSlot =>
        obtain ⟨r, hrun, hsome⟩ := Option.map_eq_some_iff.mp hstep
        cases hsome
        exact (h store rfl).unequip hrun

omit [DecidableEq Key] in
/-- The packet of an inventory names the slots that are not empty. -/
theorem Equipped.slots (h : Equipped store) (heapByte : UInt8) :
    store.equipment.map (fun item => equippedSlot heapByte item.slot item.body) =
      eqSlots.filter fun slot => (store.equippedItems slot).isSome := by
  have hslots : ∀ slot ∈ eqSlots, slot.toNat < eqSlotCount := fun slot =>
    R1Emu.Commander.lt_of_mem_eqSlots
  rw [Store.equipment]
  generalize eqSlots = slots at hslots ⊢
  induction slots with
  | nil => rfl
  | cons slot slots ih =>
    obtain ⟨hslot, hslots⟩ := List.forall_mem_cons.mp hslots
    cases hitem : store.equippedItems slot with
    | none => simpa [hitem] using ih hslots
    | some item =>
      obtain ⟨-, hequipable, hnames⟩ := h slot item hslot hitem
      have hnamed : equippedSlot heapByte (store.item item).slot (store.item item).body = slot := by
        rw [equippedSlot]
        exact (if_pos hequipable).trans hnames
      simpa [hitem, hnamed] using ih hslots

variable (actorGenKey) in
/-- A commander that is produced with items that can be worn, not from Redis, and puts no other
item on, wears items that name their slots, which is where a packet has them; an item that is
put on is destroyed. -/
theorem commander_equipped (h : ReachableUnder (wardrobe actorGenKey) (KeepsOutfit actorGenKey)
    (some store)) :
    Equipped store ∧
      (∀ heapByte, store.equipment.map (fun item => equippedSlot heapByte item.slot item.body) =
        eqSlots.filter fun slot => (store.equippedItems slot).isSome) ∧
      ∀ actorId eqSlot r, inventoryEquipItem actorGenKey store actorId eqSlot = some r →
        (Equipped r.2 ↔ ¬ PutsOn actorGenKey store actorId eqSlot) := by
  have hdressed := dressed_inductive.reachable h store rfl
  refine ⟨hdressed.equipped, hdressed.equipped.slots, fun actorId eqSlot r hrun =>
    ⟨fun hequipped hputs => ?_, fun hnot => ?_⟩⟩
  · exact hdressed.not_equipped hrun hputs hequipped
  · exact (hdressed.equip hrun hnot).equipped

end Dressed

/-! ### One commander -/

/-- The world before anything is loaded. -/
def firstWorld : LiveWorld UInt64 :=
  ⟨emptyWorld, ⟨fun _ hitem => absurd hitem List.not_mem_nil, fun _ _ => rfl⟩⟩

/-- The account's commander is loaded from its row. -/
def loadRow (env : Env UInt64) : Dressing UInt64 := .produce (.rows env firstWorld .zero 7) 0

/-- The commander that stands in `store` after the run. -/
def stands (p : Store UInt64 → Bool) (s : Option (Store UInt64)) : Bool := s.any p

/-- What the commander takes off is gone from its slot, and the rest is worn. -/
theorem commander_equipped_undressed :
    ∃ store, (wardrobe oneAccountEnv.actorGenKey).run none
        [loadRow oneAccountEnv, .unequip 3, .equip 99 3] = some (some store) ∧
      store.equippedItems 3 = none ∧ (store.equippedItems 8).isSome ∧ Equipped store := by
  have hbare : ((wardrobe oneAccountEnv.actorGenKey).run none
      [loadRow oneAccountEnv, .unequip 3]).any (stands fun store =>
        (store.found oneAccountEnv.actorGenKey 99).isNone) = true := by decide +kernel
  have hrun : ((wardrobe oneAccountEnv.actorGenKey).run none
      [loadRow oneAccountEnv, .unequip 3, .equip 99 3]).any (stands fun store =>
        (store.equippedItems 3).isNone && (store.equippedItems 8).isSome) = true := by
    decide +kernel
  obtain ⟨s, hs, hs'⟩ := (Option.any_eq_true _ _).mp hrun
  obtain ⟨store, rfl, hslots⟩ := (Option.any_eq_true _ _).mp hs'
  obtain ⟨hempty, hworn⟩ := Bool.and_eq_true_iff.mp hslots
  have hguard : (wardrobe oneAccountEnv.actorGenKey).Guarded
      (KeepsOutfit oneAccountEnv.actorGenKey) none
        [loadRow oneAccountEnv, .unequip 3, .equip 99 3] := by
    refine ⟨?_, fun s₁ hs₁ => ⟨?_, fun s₂ hs₂ => ⟨?_, fun _ _ => trivial⟩⟩⟩
    · rintro rows - row - slot category hcategory
      cases hcategory
      rfl
    · cases s₁ <;> trivial
    · cases s₂ with
      | none => trivial
      | some store =>
        rintro ⟨⟨item, hfound⟩, -⟩
        have hstep : (wardrobe oneAccountEnv.actorGenKey).run none
            [loadRow oneAccountEnv, .unequip 3] = some (some store) :=
          Option.bind_eq_some_iff.mpr ⟨s₁, hs₁, Option.bind_eq_some_iff.mpr ⟨_, hs₂, rfl⟩⟩
        rw [hstep] at hbare
        change (store.found oneAccountEnv.actorGenKey 99).isNone = true at hbare
        rw [hfound] at hbare
        cases hbare
  exact ⟨store, hs, Option.isNone_iff_eq_none.mp hempty, hworn,
    (commander_equipped _ (ReachableUnder.run (.init rfl) _ hguard hs)).1⟩

/-- Redis answers with a commander that was saved with an item in every slot. -/
def savedEnv : Env UInt64 :=
  { oneAccountEnv with
    hmgetGame := fun _ key => .array (some
      { account := { accountName := [], sessionKey := [], privilege := 3, commandersCountMax := 5 }
        commander := commanderFields key (commanderInit : Commander UInt64)
        equipment := fun _ => 2 }) }

/-- The commander that Redis answers with. -/
def loadReply : Dressing UInt64 := .produce (.reply savedEnv firstWorld ⟨1000, undefinedMap, 7⟩) 0

/-- All items are consumed. -/
def potionEnv : Env UInt64 :=
  { oneAccountEnv with staticData := ⟨fun _ => some "Consume", fun _ => none⟩ }

/-- The slot holds what it should not. -/
def misfit (slot : UInt8) (store : Store UInt64) : Bool :=
  (store.equippedItems slot).any fun item => decide (item ∈ store.destroyed) ||
    (!(store.item item).category.equipable || (store.item item).slot != slot)

theorem not_equipped_of_misfit {s : Option (Option (Store UInt64))} {slot : UInt8}
    (hslot : slot.toNat < eqSlotCount) (h : s.any (stands (misfit slot)) = true) :
    ∃ store, s = some (some store) ∧ ¬ Equipped store := by
  obtain ⟨s', hs, hs'⟩ := (Option.any_eq_true _ _).mp h
  obtain ⟨store, rfl, hmisfit⟩ := (Option.any_eq_true _ _).mp hs'
  obtain ⟨item, hitem, hbad⟩ := (Option.any_eq_true _ _).mp hmisfit
  refine ⟨store, hs, fun hequipped => ?_⟩
  obtain ⟨halive, hequipable, hnames⟩ := hequipped slot item hslot hitem
  simp [halive, hequipable, hnames] at hbad

/-- An item that does not name its slot, one that cannot be worn, and one that is destroyed. -/
theorem commander_not_equipped :
    (∃ store, (wardrobe savedEnv.actorGenKey).run none [loadReply] = some (some store) ∧
      ¬ Equipped store) ∧
    (∃ store, (wardrobe potionEnv.actorGenKey).run none [loadRow potionEnv] = some (some store) ∧
      ¬ Equipped store) ∧
    ∃ store, (wardrobe oneAccountEnv.actorGenKey).run none
        [loadRow oneAccountEnv, .unequip 3, .equip 3 3] = some (some store) ∧
      ¬ Equipped store :=
  ⟨@not_equipped_of_misfit _ 0 (by decide) (by decide +kernel),
    @not_equipped_of_misfit _ 0 (by decide) (by decide +kernel),
    @not_equipped_of_misfit _ 3 (by decide) (by decide +kernel)⟩

end R1Emu.Handler
