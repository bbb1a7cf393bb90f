import R1Emu.Game.CommanderTable
import R1Emu.Handler.Wardrobe
import R1Emu.Saving.CommanderRows
import R1Emu.Zone.SavedSession

/-!
# Equipment that is saved and loaded again

The functions that save a commander follow the pointer in every slot of its equipment. A slot is
empty when its item was taken off, or when the item could not be made where the commander was
loaded from its row. There is no other way to empty a slot, and a commander with an item in every
slot is saved, in Redis or in the table, with ids that come back when it is loaded.
-/
namespace R1Emu.Saving
open R1Emu.Actor R1Emu.Game R1Emu.Lib R1Emu.Lib.Stage R1Emu.Lib.Transition R1Emu.Server
open R1Emu.Commander (Inventory ItemPtr Store eqSlotCount inventoryInit inventoryEquipItem
  inventoryUnequipItem itemHandleNew unequipped inventoryUnequipItem_free
  inventoryUnequipItem_occupied inventoryUnequipItem_live inventoryEquipItem_missing)
open R1Emu.Handler (barrackHandlerCommanderCreate newCommander createDefaultItem defaultEquipment
  Production newStore Dressing wardrobe commanderClass emptyWorld firstWorld oneAccountEnv loadRow
  stands)
open R1Emu.Zone (Creatable Loadable Loaded Bears ofNat_slot_injective getRedisEquipment_bears
  redisGetGameSession_loads redisGetGameSession_fault saveAndLoad savedFields
  redisUpdateGameSession_run saveAndLoad_of_loadable equippedIds_of_bears)

variable {Key : Type}

/-! ### An item in every slot -/

/-- Every slot holds an item that has not been freed. -/
def Outfitted (store : Store Key) : Prop :=
  ∀ slot, slot.toNat < eqSlotCount →
    ∃ item, store.equippedItems slot = some item ∧ item ∉ store.destroyed

/-- Moreover, nothing is carried. -/
structure Kitted (store : Store Key) : Prop where
  items : ∀ key, store.items key = none
  outfitted : Outfitted store

theorem toNat_ofNat_slot (slot : Fin eqSlotCount) : (UInt8.ofNat slot).toNat < eqSlotCount := by
  rw [UInt8.toNat_ofNat']
  exact (Nat.mod_le _ _).trans_lt slot.2

/-- The slot holds an item that is none of the first `n`. -/
def HoldsNew (n : ItemPtr) (equippedItems : UInt8 → Option ItemPtr) (slot : Fin eqSlotCount) :
    Prop :=
  ∃ i, equippedItems (UInt8.ofNat slot) = some i ∧ n ≤ i

theorem HoldsNew.update {n : ItemPtr} {equippedItems : UInt8 → Option ItemPtr}
    {slot other : Fin eqSlotCount} {i : ItemPtr} (hi : n ≤ i)
    (hothers : slot ≠ other → HoldsNew n equippedItems slot) :
    HoldsNew n (Function.update equippedItems (UInt8.ofNat other) (some i)) slot := by
  by_cases heq : slot = other
  · subst heq
    exact ⟨i, Function.update_self .., hi⟩
  · obtain ⟨j, hj, hge⟩ := hothers heq
    refine ⟨j, ?_, hge⟩
    rw [Function.update_of_ne fun hslot => heq (ofNat_slot_injective hslot), hj]

theorem kitted_of_holdsNew {h₀ h : Heap Key} (hlive : Live h₀.toMemory h₀.nextItem)
    (hdestroyed : h.destroyed = h₀.destroyed) {inventory : Inventory Key}
    (hitems : ∀ key, inventory.items key = none)
    (hnew : ∀ slot, HoldsNew h₀.nextItem inventory.equippedItems slot) :
    Kitted (h.store inventory) where
  items := hitems
  outfitted slot hslot := by
    obtain ⟨i, hi, hge⟩ := hnew ⟨slot.toNat, hslot⟩
    rw [UInt8.ofNat_toNat] at hi
    refine ⟨i, hi, fun hfreed => ?_⟩
    have hfreed : i ∈ h₀.destroyed := hdestroyed ▸ hfreed
    exact absurd (hlive.items i hfreed) (not_lt_of_ge hge)

/-- The commanders behind the first `n` are kitted. -/
def KittedSince (n : ℕ) (h : Heap Key) : Prop :=
  ∀ p c, n ≤ p → h.commander p = some c → Kitted (h.store c.inventory)

theorem kittedSince_start (h : Heap Key) : KittedSince h.commanders.length h := by
  intro p c hp hc
  have hp' := (List.getElem?_eq_some_iff.mp (Option.join_eq_some_iff.mp hc)).1
  exact absurd hp' (not_lt_of_ge hp)

/-- What is done to the heap apart from the commanders and the items that have been freed. -/
theorem KittedSince.aside {n : ℕ} {h h' : Heap Key} (hk : KittedSince n h)
    (hdestroyed : h'.destroyed = h.destroyed) (hcommanders : h'.commanders = h.commanders) :
    KittedSince n h' := by
  intro p c hp hc
  rw [Heap.commander, hcommanders] at hc
  obtain ⟨hitems, houtfitted⟩ := hk p c hp hc
  refine ⟨hitems, fun slot hslot => ?_⟩
  obtain ⟨i, hi, halive⟩ := houtfitted slot hslot
  exact ⟨i, hi, fun hfreed => halive (hdestroyed ▸ hfreed)⟩

theorem KittedSince.newCommander {n : ℕ} {h : Heap Key} (hk : KittedSince n h)
    {c : Commander Key} (hc : Kitted (h.store c.inventory)) :
    KittedSince n (h.newCommander c).2 := by
  intro p d hp hd
  have hd : (h.commanders ++ [some c])[p]? = some (some d) := Option.join_eq_some_iff.mp hd
  rcases lt_or_ge p h.commanders.length with hlt | hge
  · rw [List.getElem?_append_left hlt] at hd
    exact hk p d hp (Option.join_eq_some_iff.mpr hd)
  · rw [List.getElem?_append_right hge] at hd
    obtain rfl := Option.some.inj (List.mem_singleton.mp (List.mem_of_getElem? hd))
    exact hc

/-! ### Commanders that are created -/

section Create
variable {env : Env Key} {n : ItemPtr}

/-- A default item that cannot be made ends the program. -/
theorem createDefaultItem_holdsNew (slot : Fin eqSlotCount) {w : World Key}
    (hn : n ≤ w.heap.nextItem) :
    (createDefaultItem env slot).Sat w fun r w' => Restocked w.heap w'.heap ∧
      ∃ i, r = .ok (some i) ∧ n ≤ i := by
  rw [createDefaultItem, sat_bind]
  refine (itemFactoryCreate_restocked env _ 1 w).mono ?_
  rintro _ w' ⟨hr, item, rfl, hitem⟩
  rw [then_ok, sat_bind, sat_found]
  rintro i rfl
  obtain ⟨hle, -⟩ := hitem i rfl
  simp only [then_ok, setItemSlot, onHeap, sat_bind, sat_act, sat_pure]
  exact ⟨restocked_setItemSlot hr hle _, i, rfl, hn.trans hle⟩

theorem createDefaultItems_holdsNew (slots : List (Fin eqSlotCount))
    {equippedItems : UInt8 → Option ItemPtr} {w : World Key} (hn : n ≤ w.heap.nextItem)
    (hothers : ∀ slot ∉ slots, HoldsNew n equippedItems slot) :
    (equipSlots (createDefaultItem env) slots equippedItems).Sat w fun r w' =>
      Restocked w.heap w'.heap ∧ ∃ equippedItems, r = .ok equippedItems ∧
        ∀ slot, HoldsNew n equippedItems slot := by
  induction slots generalizing w equippedItems with
  | nil =>
    exact (sat_pure _ _ _).mpr ⟨.refl _, _, rfl, fun slot => hothers slot List.not_mem_nil⟩
  | cons slot slots ih =>
    rw [equipSlots, sat_bind]
    refine (createDefaultItem_holdsNew slot hn).mono ?_
    rintro _ w₁ ⟨hr, i, rfl, hi⟩
    rw [then_ok]
    refine (ih (hn.trans hr.items) fun slot' hslot' => .update hi fun hne =>
      hothers slot' (by simp [hne, hslot'])).mono ?_
    rintro _ w₂ ⟨hr₂, hequipped⟩
    exact ⟨hr.trans hr₂, hequipped⟩

theorem newCommander_kitted (packet : ℕ) {w : World Key}
    (hlive : Live w.heap.toMemory w.heap.nextItem) :
    (newCommander env packet).Sat w fun r w' => Restocked w.heap w'.heap ∧
      ∀ c, r = .ok (.ok c) → Kitted (w'.heap.store c.inventory) := by
  have hnone : ∀ e : BcMessageType, Restocked w.heap w.heap ∧ ∀ c : Commander Key,
      (Except.ok (.error e) : Except PacketHandlerState (Except BcMessageType (Commander Key))) =
        .ok (.ok c) → Kitted (w.heap.store c.inventory) :=
    fun e => ⟨.refl _, fun c hc => by cases hc⟩
  simp only [newCommander, sat_bind, sat_gets, sat_readString, sat_readU16, sat_readU8, then_ok,
    sat_ite, sat_pure]
  refine ⟨fun _ => hnone _, fun _ => ⟨fun _ => hnone _, fun _ => ?_⟩⟩
  cases commanderClass (UInt16.ofNat (Bytes.leValue (w.memory.read (packet + 66) 2))) with
  | none => exact (sat_pure _ _ _).mpr (hnone _)
  | some classId =>
    simp only [sat_ite, sat_pure, sat_bind, sat_r1emuGenerateRandom, r1emuGenerateRandom64, then_ok]
    refine ⟨fun _ => hnone _, fun _ => ?_⟩
    refine (createDefaultItems_holdsNew (List.finRange eqSlotCount) le_rfl
      fun slot hslot => absurd (List.mem_finRange slot) hslot).mono ?_
    rintro _ w₁ ⟨hr, equippedItems, rfl, hnew⟩
    rw [then_ok, sat_pure]
    refine ⟨hr, fun c hc => ?_⟩
    obtain rfl := Except.ok.inj (Except.ok.inj hc)
    exact kitted_of_holdsNew hlive hr.destroyed (fun _ => rfl) hnew

/-- The copy of the new commander is kitted as it is. -/
theorem barrackHandlerCommanderCreate_kitted (packet packetSize : ℕ) {w : World Key}
    (hlive : Live w.heap.toMemory w.heap.nextItem) :
    (barrackHandlerCommanderCreate env packet packetSize).Sat w fun _ w' =>
      KittedSince w.heap.commanders.length w'.heap := by
  have hstart := kittedSince_start w.heap
  simp only [barrackHandlerCommanderCreate, sat_bind, sat_checkSize, sat_readU8, sat_gets, then_ok,
    then_error, Handler.accountSessionIsCommanderSlotEmpty, sat_ite, sat_pure, sat_commanderSlot,
    sat_require]
  refine ⟨fun _ => ⟨fun _ => ⟨fun h => absurd h Bool.false_ne_true, fun _ => hstart⟩,
    fun _ slot hslot => ⟨fun _ => ?_, fun _ => hstart⟩⟩, fun _ => hstart⟩
  refine (newCommander_kitted packet hlive).mono ?_
  rintro r w₁ ⟨hr, hkitted⟩
  have h₁ : KittedSince w.heap.commanders.length w₁.heap := hstart.aside hr.destroyed hr.commanders
  rcases r with state | msgType | commander
  · exact h₁
  · simp only [then_ok, sat_bind, sat_send, sat_pure]
    exact h₁
  have hc := hkitted commander rfl
  simp only [then_ok, mySqlCommanderInsert, sat_bind, sat_gets, sat_found, sat_perform, sat_pure]
  intro eqSlots _
  split
  case h_1 =>
    rw [sat_pure, written_heap]
    exact h₁
  case h_2 commanderId hid =>
    simp only [commanderDup, sat_bind, sat_allocate, then_ok, sat_ite, sat_pure, sat_onHeap,
      sat_setCommanderSlot, sat_send, written_heap]
    have hasked : KittedSince w.heap.commanders.length
        { w₁.heap with attempts := w₁.heap.attempts + 1 } := h₁.aside rfl rfl
    refine ⟨fun _ a _ slots _ _ => ?_, fun _ => hasked⟩
    exact (hasked.newCommander (c := { commander with commanderId }) hc).aside rfl rfl

end Create

/-! ### Commanders that are loaded -/

section Load
variable {env : Env Key}

/-- There are static data for all the items in the rows, and enough memory to load them. -/
def RowsLoadable (env : Env Key) (attempts : ℕ) (rows : List (UInt64 × CommanderRow)) : Prop :=
  (∀ row ∈ rows, ∀ slot, Creatable env (row.2.eqSlots slot)) ∧
    ∀ k < 1 + (1 + eqSlotCount) * rows.length, env.allocates (attempts + k) = true

/-- The commander of a row has an item with the id of the row in each slot. -/
theorem OfRow.bears {familyName : Chars 64} {h₀ h : Heap Key} {p : CommanderPtr}
    {row : UInt64 × CommanderRow} (hrow : OfRow env familyName h₀ h p row)
    (hcreatable : ∀ slot, Creatable env (row.2.eqSlots slot))
    (hmemory : ∀ k, h₀.attempts ≤ k → k < h.attempts → env.allocates k = true) :
    ∃ equippedItems,
      h.commander p = some (row.2.toCommander row.1 familyName (env.rand p) equippedItems) ∧
        ∀ slot, Bears h row.2.eqSlots equippedItems slot ∧
          HoldsNew h₀.nextItem equippedItems slot := by
  obtain ⟨equippedItems, hcommander, hfurnished⟩ := hrow
  exact ⟨equippedItems, hcommander, fun slot => (hfurnished slot).bears (hcreatable slot) hmemory⟩

/-- Where the rows can be loaded, each of them is in the end that of a new commander, and there
are no other new commanders. -/
theorem RowsLoaded.bears {accountSession : AccountSession} {rows : List (UInt64 × CommanderRow)}
    {w : World Key} {loaded : AccountSession × ℕ} {h : Heap Key}
    (hloaded : RowsLoaded env accountSession rows w loaded h)
    (hloadable : RowsLoadable env w.heap.attempts rows) :
    List.Forall₂ (fun p row => ∃ equippedItems,
      h.commander p = some (row.2.toCommander row.1 accountSession.familyName (env.rand p)
        equippedItems) ∧
          ∀ slot, Bears h row.2.eqSlots equippedItems slot ∧
            HoldsNew w.heap.nextItem equippedItems slot) (newCommanders w rows) rows := by
  have hmemory : ∀ k, w.heap.attempts ≤ k → k < h.attempts → env.allocates k = true := by
    intro k hge hlt
    have hle := hloaded.attempts
    have hk := hloadable.2 (k - w.heap.attempts) (by omega)
    rwa [Nat.add_sub_cancel' hge] at hk
  have hrows := hloaded.ofRows
  have hcreatable := hloadable.1
  clear hloaded hloadable
  generalize newCommanders w rows = ps at hrows ⊢
  induction hrows with
  | nil => exact .nil
  | cons hrow _ ih =>
    obtain ⟨hfirst, hrest⟩ := List.forall_mem_cons.mp hcreatable
    exact .cons (hrow.bears hfirst hmemory) (ih hrest)

/-- The loading of rows that can be loaded does not fail. -/
theorem rowsLoaded_of_run {accountSession : AccountSession} {accountId : UInt64} {w : World Key}
    {rows : List (UInt64 × CommanderRow)}
    (hselect : env.selectCommanders w.writes accountId = .success (some rows))
    (hloadable : RowsLoadable env w.heap.attempts rows)
    {r : Except PacketHandlerState (Option (AccountSession × ℕ))} {w' : World Key}
    (hrun : mySqlLoadAccountCommanders env accountSession accountId w = some (r, w')) :
    ∃ loaded, r = .ok (some loaded) ∧ RowsLoaded env accountSession rows w loaded w'.heap := by
  have hmemory : env.allocates w.heap.attempts = true := hloadable.2 0 (by omega)
  obtain ⟨loaded, rfl, hfails⟩ :=
    mySqlLoadAccountCommanders_sat env accountSession accountId w r w' hrun
  cases loaded with
  | none =>
    have hfails := hfails rfl
    simp only [LoadFails, hselect, hmemory, if_true] at hfails
    obtain ⟨-, k, hk, hlacking⟩ := hfails
    have hk' : k < eqSlotCount * rows.length + rows.length := Nat.lt_add_left _ hk
    have hallocates := hloadable.2 (1 + k) (by rw [Nat.add_mul]; omega)
    rw [← Nat.add_assoc] at hallocates
    cases hallocates.symm.trans hlacking
  | some loaded =>
    exact ⟨loaded, rfl, (mySqlLoadAccountCommanders_loaded accountSession hselect _ w' hrun).2 _ rfl⟩

theorem mySqlLoadAccountCommanders_kitted (accountSession : AccountSession) {accountId : UInt64}
    {w : World Key} (hlive : Live w.heap.toMemory w.heap.nextItem)
    (hloadable : ∀ rows, env.selectCommanders w.writes accountId = .success (some rows) →
      RowsLoadable env w.heap.attempts rows) :
    (mySqlLoadAccountCommanders env accountSession accountId).Sat w fun _ w' =>
      KittedSince w.heap.commanders.length w'.heap := by
  rcases hselect : env.selectCommanders w.writes accountId with _ | _ | rows
  · simpa [mySqlLoadAccountCommanders, mySqlRequestCommandersByAccountId, hselect]
      using kittedSince_start w.heap
  · simp [mySqlLoadAccountCommanders, mySqlRequestCommandersByAccountId, hselect]
  · have hloadable := hloadable rows hselect
    intro r w' hrun
    have hkept := (preserves_mySqlLoadAccountCommanders env accountSession accountId w (.refl w) r w'
      hrun).heap
    obtain ⟨loaded, rfl, hloaded⟩ := rowsLoaded_of_run hselect hloadable hrun
    intro p c hp hc
    have hlt := (List.getElem?_eq_some_iff.mp (Option.join_eq_some_iff.mp hc)).1
    rw [hloaded.commanders] at hlt
    have hmem : p ∈ newCommanders w rows := List.mem_range'_1.mpr ⟨hp, hlt⟩
    obtain ⟨i, hi, rfl⟩ := List.getElem_of_mem hmem
    obtain ⟨equippedItems, hcommander, hslots⟩ := (hloaded.bears hloadable).get hi
      (by rwa [length_newCommanders] at hi)
    obtain rfl := Option.some.inj (hc.symm.trans hcommander)
    exact kitted_of_holdsNew hlive hkept.destroyed (fun _ => rfl) fun slot => (hslots slot).2

/-- The items that are loaded from Redis are all new. -/
theorem getRedisEquipment_holdsNew {n : ItemPtr} (equipment : Fin eqSlotCount → UInt32)
    (slots : List (Fin eqSlotCount)) {equippedItems : UInt8 → Option ItemPtr} {w : World Key}
    (hn : n ≤ w.heap.nextItem) (hothers : ∀ slot ∉ slots, HoldsNew n equippedItems slot) :
    (getRedisEquipment env equipment slots equippedItems).Sat w fun r w' =>
      Restocked w.heap w'.heap ∧ ∀ loaded, r = .ok (some loaded) → ∀ slot, HoldsNew n loaded slot := by
  induction slots generalizing w equippedItems with
  | nil =>
    refine (sat_pure _ _ _).mpr ⟨.refl _, ?_⟩
    rintro _ ⟨⟩ slot
    exact hothers slot List.not_mem_nil
  | cons slot slots ih =>
    rw [getRedisEquipment, sat_bind]
    refine (itemFactoryCreate_restocked env _ 1 w).mono ?_
    rintro _ w₁ ⟨hr, item, rfl, hitem⟩
    rw [then_ok]
    cases item with
    | none => exact (sat_pure _ _ _).mpr ⟨hr, fun _ hnone => by cases hnone⟩
    | some i =>
      have hi : n ≤ i := hn.trans (hitem i rfl).1
      refine (ih (hn.trans hr.items) fun slot' hslot' => .update hi fun hne =>
        hothers slot' (by simp [hne, hslot'])).mono ?_
      rintro _ w₂ ⟨hr₂, hequipped⟩
      exact ⟨hr.trans hr₂, hequipped⟩

theorem redisGetGameSession_kitted {key : RedisGameSessionKey} {w : World Key}
    (hlive : Live w.heap.toMemory w.heap.nextItem)
    (hloadable : ∀ fields, env.hmgetGame w.writes key = .array (some fields) →
      Loadable env w.heap.attempts fields.equipment) :
    (redisGetGameSession env key).Sat w fun _ w' =>
      KittedSince w.heap.commanders.length w'.heap := by
  have hstart := kittedSince_start w.heap
  rw [redisGetGameSession, sat_bind, sat_gets, then_ok]
  rcases hread : env.hmgetGame w.writes key with _ | _ | _ | _ | _
  case array fields =>
    cases fields with
    | none => exact (sat_pure _ _ _).mpr hstart
    | some fields =>
      obtain ⟨hmemory, hitems⟩ := hloadable fields hread
      simp only [commanderNew, sat_bind, sat_allocate, hmemory, then_ok, if_true, sat_onHeap,
        sat_pure, sat_found, Heap.newCommander, Option.some.injEq, forall_eq']
      intro r w₁ hrun
      obtain ⟨hr, hnew⟩ := getRedisEquipment_holdsNew fields.equipment (List.finRange eqSlotCount)
        le_rfl (fun slot hslot => absurd (List.mem_finRange slot) hslot) r w₁ hrun
      obtain ⟨-, loaded, rfl, hsome⟩ :=
        Zone.getRedisEquipment_sat env fields.equipment (List.finRange eqSlotCount) _ _ r w₁ hrun
      rw [then_ok]
      cases loaded with
      | none =>
        have hall := hsome.mpr fun i hi => by
          rw [List.getElem_finRange]
          exact hitems _
        cases hall
      | some equippedItems =>
        simp only [sat_bind, sat_setCommander, then_ok, sat_pure]
        have hlength : w₁.heap.commanders.length = w.heap.commanders.length + 1 := by
          rw [hr.commanders]
          simp
        intro p c hp hc
        have hlt := (List.getElem?_eq_some_iff.mp (Option.join_eq_some_iff.mp hc)).1
        rw [Heap.setCommander, List.length_set, hlength] at hlt
        obtain rfl : p = w.heap.commanders.length := le_antisymm (Nat.le_of_lt_succ hlt) hp
        rw [setCommander_commander w₁.heap (hlength ▸ Nat.lt_succ_self _)] at hc
        obtain rfl := Option.some.inj hc
        exact kitted_of_holdsNew hlive hr.destroyed (fun _ => rfl) (hnew _ rfl)
  all_goals exact (sat_pure _ _ _).mpr hstart

end Load

/-! ### Productions -/

/-- The item factory makes all the items of a commander that is loaded. A commander that is
decoded from a packet is no commander of a run. -/
def Furnishes : Production Key → Prop
  | .create .. => True
  | .rows env w _ accountId => ∀ rows,
    env.selectCommanders w.1.writes accountId = .success (some rows) →
      RowsLoadable env w.1.heap.attempts rows
  | .reply env w key => ∀ fields, env.hmgetGame w.1.writes key = .array (some fields) →
    Loadable env w.1.heap.attempts fields.equipment
  | .decode .. => False

theorem newStore_kitted {α : Type} {w : World Key} {m : Handling Key α} {p : CommanderPtr}
    {store : Store Key} (hm : m.Sat w fun _ w' => KittedSince w.heap.commanders.length w'.heap)
    (h : newStore w (m w) p = some store) : Kitted store := by
  obtain ⟨⟨r, w'⟩, hrun, h⟩ := Option.bind_eq_some_iff.mp h
  dsimp only at h
  split at h
  case isFalse => cases h
  case isTrue hp =>
    obtain ⟨c, hc, rfl⟩ := Option.map_eq_some_iff.mp h
    exact hm r w' hrun p c hp hc

theorem production_kitted {production : Production Key} (hfurnishes : Furnishes production)
    {p : CommanderPtr} {store : Store Key} (h : production.store p = some store) :
    Kitted store := by
  cases production with
  | create env w packet packetSize =>
    exact newStore_kitted (barrackHandlerCommanderCreate_kitted packet packetSize w.2) h
  | rows env w accountSession accountId =>
    exact newStore_kitted (mySqlLoadAccountCommanders_kitted accountSession w.2 hfurnishes) h
  | reply env w key => exact newStore_kitted (redisGetGameSession_kitted w.2 hfurnishes) h
  | decode heapByte w bytes => exact hfurnishes.elim

/-! ### Putting on and taking off -/

section Run
variable (actorGenKey : UInt64 → Key)

/-- The slot has an item, which goes into the inventory. -/
def TakesOff (store : Store Key) (eqSlot : UInt8) : Prop :=
  ∃ item, store.equippedItems eqSlot = some item ∧
    store.items (actorGenKey (store.item item).uid) = none

/-- Every commander is produced with an item in each slot, and none is taken off. -/
def KeepsEquipment : Option (Store Key) → Dressing Key → Prop
  | _, .produce production _ => Furnishes production
  | some store, .unequip eqSlot => ¬ TakesOff actorGenKey store eqSlot
  | _, _ => True

variable {actorGenKey} [DecidableEq Key] {store : Store Key}

/-- Nothing is put on that is not carried. -/
theorem Kitted.equip (h : Kitted store) {actorId : UInt64} {eqSlot : UInt8} {r : Bool × Store Key}
    (hrun : inventoryEquipItem actorGenKey store actorId eqSlot = some r) : Kitted r.2 := by
  rw [inventoryEquipItem_missing actorGenKey (h.items _)] at hrun
  obtain rfl := Option.some.inj hrun
  exact h

/-- Whatever is taken off leaves an empty slot. -/
theorem Kitted.unequip (h : Kitted store) {eqSlot : UInt8} {r : Bool × Store Key}
    (hrun : inventoryUnequipItem actorGenKey store eqSlot = some r) :
    TakesOff actorGenKey store eqSlot ∧ ¬ Outfitted r.2 := by
  by_cases hslot : eqSlot.toNat < eqSlotCount
  · obtain ⟨item, hitem, -⟩ := h.outfitted eqSlot hslot
    refine ⟨⟨item, hitem, h.items _⟩, fun houtfitted => ?_⟩
    have halive := inventoryUnequipItem_live actorGenKey hitem hrun
    rw [inventoryUnequipItem_occupied actorGenKey hslot hitem halive (h.items _)] at hrun
    obtain rfl := Option.some.inj hrun
    obtain ⟨i, hi, -⟩ := houtfitted eqSlot hslot
    have hempty : (unequipped actorGenKey store item eqSlot).equippedItems eqSlot = none :=
      Function.update_self ..
    cases hempty.symm.trans hi
  · rw [inventoryUnequipItem, if_neg hslot] at hrun
    cases hrun

theorem kitted_inductive : Inductive (wardrobe actorGenKey) (KeepsEquipment actorGenKey)
    (fun s => ∀ store, s = some store → Kitted store) where
  init s hs store hstore := absurd (hs.symm.trans hstore) (Option.some_ne_none store).symm
  step s a s' h hok hstep store' hstore' := by
    subst hstore'
    cases s with
    | none =>
      cases a with
      | produce production p =>
        obtain ⟨store, hstore, hsome⟩ := Option.map_eq_some_iff.mp hstep
        cases hsome
        exact production_kitted hok hstore
      | equip actorId eqSlot => cases hstep
      | unequip eqSlot => cases hstep
    | some store =>
      cases a with
      | produce production p => cases hstep
      | equip actorId eqSlot =>
        obtain ⟨r, hrun, hsome⟩ := Option.map_eq_some_iff.mp hstep
        cases hsome
        exact (h store rfl).equip hrun
      | unequip eqSlot =>
        obtain ⟨r, hrun, hsome⟩ := Option.map_eq_some_iff.mp hstep
        exact absurd ((h store rfl).unequip hrun).1 hok

end Run

/-! ### Saving -/

section Save
variable {env : Env Key} {store : Store Key} {w : World Key} {p : CommanderPtr} {c : Commander Key}
  {ids : Fin eqSlotCount → UInt32}

/-- The commander at `p` has the inventory of the store, with its items. -/
structure StandsIn (store : Store Key) (w : World Key) (p : CommanderPtr) (c : Commander Key) :
    Prop where
  commander : w.heap.commander p = some c
  store : w.heap.store c.inventory = store

theorem StandsIn.equippedIds (h : StandsIn store w p c) (houtfitted : Outfitted store) :
    ∃ ids, equippedIds w.heap c.inventory = some ids := by
  obtain ⟨-, rfl⟩ := h
  refine ⟨_, if_pos fun slot => ?_⟩
  obtain ⟨item, hitem, -⟩ := houtfitted _ (toNat_ofNat_slot slot)
  have hitem : c.inventory.equippedItems (UInt8.ofNat slot) = some item := hitem
  rw [hitem, Option.isSome_some]

theorem mySqlCommanderInsert_run (env : Env Key)
    (hids : equippedIds w.heap c.inventory = some ids) :
    mySqlCommanderInsert env c w =
      some (.ok (if (env.write w.writes (.insertCommander (commanderRow c ids))).done then
          some (env.write w.writes (.insertCommander (commanderRow c ids))).insertId else none),
        w.written env (.insertCommander (commanderRow c ids))) := by
  have hfound : (found (Game.equippedIds w.heap c.inventory) : Handling Key _) w =
      some (.ok ids, w) := by
    rw [hids]
    rfl
  rw [mySqlCommanderInsert, bind_ok rfl, bind_ok hfound]
  rfl

theorem mySqlCommanderUpdate_run (env : Env Key) (commanderId : UInt64)
    (hids : equippedIds w.heap c.inventory = some ids) :
    mySqlCommanderUpdate env commanderId c w =
      some (.ok (env.write w.writes (.updateCommander commanderId (commanderRow c ids))).done,
        w.written env (.updateCommander commanderId (commanderRow c ids))) := by
  have hfound : (found (Game.equippedIds w.heap c.inventory) : Handling Key _) w =
      some (.ok ids, w) := by
    rw [hids]
    rfl
  rw [mySqlCommanderUpdate, bind_ok rfl, bind_ok hfound]
  rfl

/-- None of the functions that save the commander follows a pointer that is not there. -/
structure Saves (env : Env Key) (w : World Key) (p : CommanderPtr) (c : Commander Key) : Prop where
  redis : ∀ key socketId gameSession, gameSession.commanderSession.currentCommander = some p →
    redisUpdateGameSession env key socketId gameSession w ≠ none
  insert : mySqlCommanderInsert env c w ≠ none
  update : ∀ commanderId, mySqlCommanderUpdate env commanderId c w ≠ none

theorem saves_of_equippedIds (env : Env Key) (hc : w.heap.commander p = some c)
    (hids : equippedIds w.heap c.inventory = some ids) : Saves env w p c where
  redis key socketId gameSession hp := by
    rw [redisUpdateGameSession_run env key socketId hp hc hids]
    exact Option.some_ne_none _
  insert := by
    rw [mySqlCommanderInsert_run env hids]
    exact Option.some_ne_none _
  update commanderId := by
    rw [mySqlCommanderUpdate_run env commanderId hids]
    exact Option.some_ne_none _

/-! ### Redis -/

/-- The commander that is played has items with these ids. -/
def PlaysWith (h : Heap Key) (gameSession : GameSession) (ids : Fin eqSlotCount → UInt32) : Prop :=
  ∃ c, gameSession.commanderSession.currentCommander.bind h.commander = some c ∧
    equippedIds h c.inventory = some ids

/-- A game session that is loaded from Redis after the commander was saved plays with items of
the same ids. It is loaded when the texts can be sent and the items can be made. -/
structure RedisReturns (env : Env Key) (strtof : CFormat.Text → UInt32) (w : World Key)
    (p : CommanderPtr) (c : Commander Key) (ids : Fin eqSlotCount → UInt32) : Prop where
  same : ∀ key socketId gameSession, gameSession.commanderSession.currentCommander = some p →
    (saveAndLoad (env.withRedisText strtof) key socketId gameSession).Sat w fun r w' =>
      ∀ saved gameSession', r = .ok (saved, some gameSession') →
        PlaysWith w'.heap gameSession' ids
  loaded : ∀ key socketId gameSession, gameSession.commanderSession.currentCommander = some p →
    (savedFields key socketId gameSession c ids).Sendable →
      Loadable env w.heap.attempts ids → ∃ gameSession' w',
        saveAndLoad (env.withRedisText strtof) key socketId gameSession w =
          some (.ok (true, some gameSession'), w')

/-- The last of the commands that save a game session is executed. -/
theorem sent_gameCommands_writes (env : Env Key) (strtof : CFormat.Text → UInt32) (w : World Key)
    (key : RedisGameSessionKey) (fields : GameFields) : ∃ log,
    (w.sent (env.withRedisText strtof) ((gameCommands key fields).map Prod.fst)).writes =
      log ++ [.hmsetEquipment key fields.equipment] := by
  let w₂ := (w.written (env.withRedisText strtof) (.hmsetAccount key fields.account)).written
    (env.withRedisText strtof) (.hmsetCommander key fields.commander)
  have happlied : ((env.withRedisText strtof).write w₂.writes
      (.hmsetEquipment key fields.equipment)).applied = true := by
    change ((textStoreOf w₂.writes).sent (.hmsetEquipment key fields.equipment)).isSome = true
    rw [sent_equipment, Option.isSome_some]
  refine ⟨w₂.writes, ?_⟩
  change (w₂.written (env.withRedisText strtof) (.hmsetEquipment key fields.equipment)).writes = _
  rw [written_writes, if_pos happlied]

theorem redisGetGameSession_playsWith {key : RedisGameSessionKey} {read : Option GameFields}
    (hread : env.hmgetGame w.writes key = .array read)
    (hsame : ∀ fields, read = some fields → fields.equipment = ids) :
    (redisGetGameSession env key).Sat w fun r w' => ∀ gameSession,
      r = .ok (some gameSession) → PlaysWith w'.heap gameSession ids := by
  cases read with
  | none =>
    rw [redisGetGameSession, sat_bind, sat_gets, then_ok, hread]
    exact (sat_pure _ _ _).mpr fun _ hnone => by cases hnone
  | some fields =>
    obtain rfl := hsame fields rfl
    cases hmemory : env.allocates w.heap.attempts with
    | false =>
      intro r w' hrun
      cases (redisGetGameSession_fault hread hmemory).symm.trans hrun
    | true =>
      refine (redisGetGameSession_loads hread hmemory).sat.mono ?_
      rintro _ w' ⟨-, game, rfl, -, hloaded⟩ gameSession hgame
      obtain rfl := Except.ok.inj hgame
      obtain ⟨equippedItems, hcommander, hbears⟩ := (hloaded gameSession rfl).commander
      exact ⟨_, hcommander, equippedIds_of_bears hbears⟩

theorem redisReturns_of_equippedIds (env : Env Key) (strtof : CFormat.Text → UInt32)
    (hc : w.heap.commander p = some c) (hids : equippedIds w.heap c.inventory = some ids) :
    RedisReturns env strtof w p c ids where
  same key socketId gameSession hp := by
    have hsaved := redisUpdateGameSession_run (env.withRedisText strtof) key socketId hp hc hids
    obtain ⟨log, hlog⟩ := sent_gameCommands_writes env strtof w key
      (savedFields key socketId gameSession c ids)
    obtain ⟨read, hread, hsame⟩ := hmgetGame_equipment env strtof log key
      (savedFields key socketId gameSession c ids)
    rw [← hlog] at hread
    have hplays : ∀ done : Bool,
        (do return (done, ← redisGetGameSession (env.withRedisText strtof) key) :
          Handling Key (Bool × Option GameSession)).Sat (w.sent (env.withRedisText strtof)
            ((gameCommands key (savedFields key socketId gameSession c ids)).map Prod.fst))
              fun r w' => ∀ saved gameSession', r = .ok (saved, some gameSession') →
                PlaysWith w'.heap gameSession' ids := by
      intro done
      refine (redisGetGameSession_playsWith hread hsame).bind (fun _ _ _ => ?_)
        fun loaded w₂ h₂ => ?_
      · rintro _ _ ⟨⟩
      · refine (sat_pure _ _ _).mpr ?_
        rintro _ _ ⟨⟩
        exact h₂ _ rfl
    intro r w' hrun
    exact hplays _ r w' ((bind_ok hsaved _).symm.trans hrun)
  loaded key socketId gameSession hp hsend hloadable :=
    saveAndLoad_of_loadable hp hc hids hsend hloadable

/-! ### The table -/

def insertAndLoad (env : Env Key) (c : Commander Key) (accountSession : AccountSession) :
    Handling Key (Option UInt64 × Option (AccountSession × ℕ)) := do
  let commanderId ← mySqlCommanderInsert env c
  let loaded ← mySqlLoadAccountCommanders env accountSession c.accountId
  return (commanderId, loaded)

def updateAndLoad (env : Env Key) (commanderId : UInt64) (c : Commander Key)
    (accountSession : AccountSession) : Handling Key (Bool × Option (AccountSession × ℕ)) := do
  let saved ← mySqlCommanderUpdate env commanderId c
  let loaded ← mySqlLoadAccountCommanders env accountSession c.accountId
  return (saved, loaded)

/-- One of the account's commanders has the id, and items with these ids. -/
def Appears (h : Heap Key) (accountSession : AccountSession) (commanderId : UInt64)
    (ids : Fin eqSlotCount → UInt32) : Prop :=
  ∃ (i : ℕ) (p : CommanderPtr) (c : Commander Key),
    h.slot accountSession.commanders i = some (some p) ∧ h.commander p = some c ∧
      c.commanderId = commanderId ∧ equippedIds h c.inventory = some ids

/-- The account's rows after a statement. -/
def rowsAfter (w : World Key) (statement : Write) (accountId : UInt64) :
    List (UInt64 × CommanderRow) :=
  (tableOf (w.writes ++ [statement])).ofAccount accountId

/-- The row fits, and afterwards the account's commanders can be loaded: there are at most five of
them, and their items can be made. -/
structure Storable (env : Env Key) (w : World Key) (c : Commander Key)
    (ids : Fin eqSlotCount → UInt32) (statement : Write) : Prop where
  fits : (commanderRow c ids).Fits
  length : (rowsAfter w statement c.accountId).length ≤ 5
  loadable : RowsLoadable env w.heap.attempts (rowsAfter w statement c.accountId)

/-- When the account's commanders are loaded after the commander was saved, they have it among
them with the same ids. -/
structure TableReturns (env : Env Key) (w : World Key) (c : Commander Key)
    (ids : Fin eqSlotCount → UInt32) : Prop where
  inserted : Storable env w c ids (.insertCommander (commanderRow c ids)) → ∀ accountSession,
    ∃ commanderId s count w', insertAndLoad env.withTable c accountSession w =
      some (.ok (some commanderId, some (s, count)), w') ∧ Appears w'.heap s commanderId ids
  updated : ∀ commanderId, (∃ row, (commanderId, row) ∈ (tableOf w.writes).rows) →
    Storable env w c ids (.updateCommander commanderId (commanderRow c ids)) → ∀ accountSession,
      ∃ s count w', updateAndLoad env.withTable commanderId c accountSession w =
        some (.ok (true, some (s, count)), w') ∧ Appears w'.heap s commanderId ids

/-- A row that is loaded appears. -/
theorem mySqlLoadAccountCommanders_appears (accountSession : AccountSession)
    {accountId commanderId : UInt64} {rows : List (UInt64 × CommanderRow)} {row : CommanderRow}
    (hselect : env.selectCommanders w.writes accountId = .success (some rows))
    (hlength : rows.length ≤ 5) (hloadable : RowsLoadable env w.heap.attempts rows)
    (hrow : (commanderId, row) ∈ rows) : ∃ s count w',
      mySqlLoadAccountCommanders env accountSession accountId w = some (.ok (some (s, count)), w') ∧
        Appears w'.heap s commanderId row.eqSlots := by
  have hmemory : env.allocates w.heap.attempts = true := hloadable.2 0 (by omega)
  have hends := mySqlLoadAccountCommanders_ends accountSession hselect (.inr ⟨hmemory, hlength⟩)
  obtain ⟨⟨r, w'⟩, hrun⟩ := Option.ne_none_iff_exists'.mp hends
  obtain ⟨loaded, rfl, hloaded⟩ := rowsLoaded_of_run hselect hloadable hrun
  obtain ⟨i, hi, hrow⟩ := List.getElem_of_mem hrow
  have hi' : i < (newCommanders w rows).length := by rwa [length_newCommanders]
  obtain ⟨equippedItems, hcommander, hslots⟩ := (hloaded.bears hloadable).get hi' hi
  rw [List.get_eq_getElem, List.get_eq_getElem, hrow] at hcommander
  refine ⟨loaded.1, loaded.2, w', hrun, i, _, _, ?_, hcommander, rfl,
    equippedIds_of_bears fun slot => ?_⟩
  · rw [hloaded.session]
    simp [Heap.slot, hloaded.array, slotsOf_getElem? 5 hi']
  · have hbears := (hslots slot).1
    rwa [List.get_eq_getElem, hrow] at hbears

/-- A row that a statement has put into the table is loaded after it. -/
theorem load_after_statement (accountSession : AccountSession) {statement : Write}
    {commanderId : UInt64}
    (happlied : (env.withTable.write w.writes statement).applied = true)
    (h : Storable env w c ids statement)
    (hrow : (commanderId, commanderRow c ids) ∈ rowsAfter w statement c.accountId) :
    ∃ s count w', mySqlLoadAccountCommanders env.withTable accountSession c.accountId
        (w.written env.withTable statement) = some (.ok (some (s, count)), w') ∧
      Appears w'.heap s commanderId ids := by
  have hwrites : (w.written env.withTable statement).writes = w.writes ++ [statement] :=
    (written_writes w env.withTable statement).trans (if_pos happlied)
  have hselect : env.withTable.selectCommanders (w.written env.withTable statement).writes
      c.accountId = .success (some (rowsAfter w statement c.accountId)) := by
    rw [hwrites]
    rfl
  refine mySqlLoadAccountCommanders_appears accountSession hselect h.length ?_ hrow
  rw [written_heap]
  exact h.loadable

/-- A commander that was saved in the table appears when the table is loaded. -/
theorem tableReturns_of_equippedIds (env : Env Key)
    (hids : equippedIds w.heap c.inventory = some ids) : TableReturns env w c ids where
  inserted h accountSession := by
    have hrow := (tableOf w.writes).mem_ofAccount_insert h.fits
    rw [← tableOf_concat] at hrow
    obtain ⟨s, count, w', hload, happears⟩ := load_after_statement accountSession rfl h hrow
    refine ⟨_, s, count, w', ?_, happears⟩
    exact (bind_ok (mySqlCommanderInsert_run env.withTable hids) _).trans (bind_ok hload _)
  updated commanderId hold h accountSession := by
    obtain ⟨old, hold⟩ := hold
    have hrow := CommanderTable.mem_ofAccount_update hold h.fits
    rw [← tableOf_concat] at hrow
    obtain ⟨s, count, w', hload, happears⟩ := load_after_statement accountSession rfl h hrow
    refine ⟨s, count, w', ?_, happears⟩
    exact (bind_ok (mySqlCommanderUpdate_run env.withTable commanderId hids) _).trans
      (bind_ok hload _)

/-! ### Every commander of a run -/

/-- The commander in the store has an item in every slot. Wherever it stands, it is saved without
following a pointer that is not there, and the ids come back from Redis and from the table. -/
structure EquipmentSaved (store : Store Key) : Prop where
  outfitted : Outfitted store
  saved : ∀ (env : Env Key) w p c, StandsIn store w p c → ∃ ids,
    equippedIds w.heap c.inventory = some ids ∧ Saves env w p c ∧
      (∀ strtof, RedisReturns env strtof w p c ids) ∧ TableReturns env w c ids

theorem Outfitted.equipmentSaved (h : Outfitted store) : EquipmentSaved store where
  outfitted := h
  saved env w p c hstands := by
    obtain ⟨ids, hids⟩ := hstands.equippedIds h
    exact ⟨ids, hids, saves_of_equippedIds env hstands.commander hids,
      fun strtof => redisReturns_of_equippedIds env strtof hstands.commander hids,
      tableReturns_of_equippedIds env hids⟩

variable {actorGenKey : UInt64 → Key} [DecidableEq Key]

/-- In every run in which all commanders are produced with their items, and none is taken off,
the equipment can be saved, and comes back; whatever is taken off leaves a slot that cannot be
saved. -/
theorem equipment_saved (h : ReachableUnder (wardrobe actorGenKey) (KeepsEquipment actorGenKey)
    (some store)) :
    EquipmentSaved store ∧
      ∀ eqSlot r, inventoryUnequipItem actorGenKey store eqSlot = some r →
        (EquipmentSaved r.2 ↔ ¬ TakesOff actorGenKey store eqSlot) := by
  have hkitted := kitted_inductive.reachable h store rfl
  refine ⟨hkitted.outfitted.equipmentSaved, fun eqSlot r hrun => ?_⟩
  obtain ⟨htakes, hnot⟩ := hkitted.unequip hrun
  exact iff_of_false (fun hsaved => hnot hsaved.outfitted) (not_not_intro htakes)

end Save

/-! ### Commanders that can be saved, and commanders that cannot -/

/-- The account's commander, as its row has it. -/
theorem equipment_saved_of_row :
    ∃ store, (wardrobe oneAccountEnv.actorGenKey).run none [loadRow oneAccountEnv] =
      some (some store) ∧ EquipmentSaved store := by
  have hrun : ((wardrobe oneAccountEnv.actorGenKey).run none [loadRow oneAccountEnv]).any
      (stands fun _ => true) = true := by decide +kernel
  obtain ⟨s, hs, hs'⟩ := (Option.any_eq_true _ _).mp hrun
  obtain ⟨store, rfl, -⟩ := (Option.any_eq_true _ _).mp hs'
  have hguard : (wardrobe oneAccountEnv.actorGenKey).Guarded
      (KeepsEquipment oneAccountEnv.actorGenKey) none [loadRow oneAccountEnv] := by
    refine ⟨fun rows hrows => ?_, fun _ _ => trivial⟩
    cases hrows
    exact ⟨fun _ _ _ => rfl, fun _ _ => rfl⟩
  exact ⟨store, hs, (equipment_saved (ReachableUnder.run (.init rfl) _ hguard hs)).1⟩

/-- The commander stands in a world in which all that would save it follow a null pointer. -/
def CannotSave (store : Store Key) : Prop :=
  ∃ (w : World Key) (p : CommanderPtr) (c : Commander Key), StandsIn store w p c ∧
    ∀ env : Env Key, mySqlCommanderInsert env c w = none ∧
      (∀ commanderId, mySqlCommanderUpdate env commanderId c w = none) ∧
      ∀ key socketId gameSession, gameSession.commanderSession.currentCommander = some p →
        redisUpdateGameSession env key socketId gameSession w = none

theorem eq_none_of_sat {α : Type} {m : Handling Key α} {w : World Key}
    (h : m.Sat w fun _ _ => False) : m w = none := by
  cases hrun : m w with
  | none => rfl
  | some r => exact (h r.1 r.2 hrun).elim

/-- An empty slot is enough. -/
theorem cannotSave_of_empty {store : Store UInt64} (slot : Fin eqSlotCount)
    (hempty : store.equippedItems (UInt8.ofNat slot) = none) : CannotSave store := by
  let c : Commander UInt64 := { (commanderInit : Commander UInt64) with
    inventory := store.toInventory }
  let w : World UInt64 := { emptyWorld with heap := { emptyWorld.heap with
    toMemory := store.toMemory, commanders := [some c] } }
  have hids : equippedIds w.heap c.inventory = none := by
    refine if_neg fun hall => ?_
    have hsome := hall slot
    change (store.equippedItems (UInt8.ofNat slot)).isSome = true at hsome
    rw [hempty] at hsome
    cases hsome
  refine ⟨w, 0, c, ⟨rfl, rfl⟩, fun env => ⟨eq_none_of_sat ?_, fun commanderId => eq_none_of_sat ?_,
    fun key socketId gameSession hp => eq_none_of_sat ?_⟩⟩
  · simp [mySqlCommanderInsert, hids]
  · simp [mySqlCommanderUpdate, hids]
  · have hc : (some 0).bind w.heap.commander = some c := rfl
    simp only [redisUpdateGameSession, hp, sat_bind, sat_perform, then_ok, sat_commanderAt, sat_gets,
      sat_found, written_heap, hc, hids, Option.some.injEq, forall_eq']
    simp

theorem not_equipmentSaved_of_empty {store : Store UInt64} (slot : Fin eqSlotCount)
    (hempty : store.equippedItems (UInt8.ofNat slot) = none) : ¬ EquipmentSaved store := by
  intro h
  obtain ⟨item, hitem, -⟩ := h.outfitted _ (toNat_ofNat_slot slot)
  cases hempty.symm.trans hitem

/-- There are no static data for the item in the row. -/
def noDataEnv : Env UInt64 :=
  { oneAccountEnv with staticData := ⟨fun _ => none, fun _ => none⟩ }

/-- The slot is empty, in the state that a run leaves behind. -/
theorem cannotSave_of_run {s : Option (Option (Store UInt64))} (slot : Fin eqSlotCount)
    (h : s.any (stands fun store => (store.equippedItems (UInt8.ofNat slot)).isNone) = true) :
    ∃ store, s = some (some store) ∧ ¬ EquipmentSaved store ∧ CannotSave store := by
  obtain ⟨s', hs, hs'⟩ := (Option.any_eq_true _ _).mp h
  obtain ⟨store, rfl, hempty⟩ := (Option.any_eq_true _ _).mp hs'
  have hempty := Option.isNone_iff_eq_none.mp hempty
  exact ⟨store, hs, not_equipmentSaved_of_empty slot hempty, cannotSave_of_empty slot hempty⟩

/-- A commander who has taken the armor off, one whose item could not be made, and one who has
taken the armor off and put it on again: the slot holds an item that has been freed. -/
theorem equipment_not_saved :
    (∃ store, (wardrobe oneAccountEnv.actorGenKey).run none [loadRow oneAccountEnv, .unequip 3] =
      some (some store) ∧ ¬ EquipmentSaved store ∧ CannotSave store) ∧
    (∃ store, (wardrobe noDataEnv.actorGenKey).run none [loadRow noDataEnv] =
      some (some store) ∧ ¬ EquipmentSaved store ∧ CannotSave store) ∧
    ∃ store, (wardrobe oneAccountEnv.actorGenKey).run none
        [loadRow oneAccountEnv, .unequip 3, .equip 3 3] = some (some store) ∧
      ¬ EquipmentSaved store := by
  refine ⟨cannotSave_of_run ⟨3, by decide⟩ (by decide +kernel),
    cannotSave_of_run ⟨3, by decide⟩ (by decide +kernel), ?_⟩
  have hrun : ((wardrobe oneAccountEnv.actorGenKey).run none
      [loadRow oneAccountEnv, .unequip 3, .equip 3 3]).any (stands fun store =>
        (store.equippedItems 3).any fun item => decide (item ∈ store.destroyed)) = true := by
    decide +kernel
  obtain ⟨s, hs, hs'⟩ := (Option.any_eq_true _ _).mp hrun
  obtain ⟨store, rfl, hfreed⟩ := (Option.any_eq_true _ _).mp hs'
  obtain ⟨item, hitem, hfreed⟩ := (Option.any_eq_true _ _).mp hfreed
  refine ⟨store, hs, fun hsaved => ?_⟩
  obtain ⟨item', hitem', halive⟩ := hsaved.outfitted 3 (by decide)
  obtain rfl := Option.some.inj (hitem.symm.trans hitem')
  exact halive (of_decide_eq_true hfreed)

end R1Emu.Saving
