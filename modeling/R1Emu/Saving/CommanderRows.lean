import R1Emu.Game.Loading
import R1Emu.Zone.Disconnect

/-!
# The commanders of an account and their slots

The array of an account's commanders has five slots. As many of them are filled with new
commanders as the query has rows, and then each commander is loaded from its row, item by item.
An item that cannot be made leaves a slot of the equipment empty.
-/
namespace R1Emu.Saving
open R1Emu.Actor R1Emu.Game R1Emu.Lib R1Emu.Lib.Stage R1Emu.Server
open R1Emu.Commander (ItemPtr eqSlotCount)
open R1Emu.Handler (deafEnv emptyWorld)
open R1Emu.Zone (Creatable Bears ofNat_slot_injective)

variable {Key : Type}

/-! ### Where the items come from -/

/-- More has been allocated, in so many attempts at most, and the commanders other than `qs` are
as they were. -/
structure Grown (qs : List CommanderPtr) (attempts : ℕ) (h h' : Heap Key) : Prop extends
    Stocked h.toMemory h.nextItem h'.toMemory h'.nextItem where
  arrays : h'.arrays = h.arrays
  length : h'.commanders.length = h.commanders.length
  commander : ∀ p ∉ qs, h'.commander p = h.commander p
  attempts_ge : h.attempts ≤ h'.attempts
  attempts_le : h'.attempts ≤ h.attempts + attempts

section Grown
variable {h h' h'' : Heap Key} {qs qs' : List CommanderPtr} {m n : ℕ}

theorem Grown.refl (h : Heap Key) : Grown [] 0 h h :=
  ⟨.refl _ _, rfl, rfl, fun _ _ => rfl, le_rfl, le_rfl⟩

theorem Grown.trans (hg : Grown qs m h h') (hg' : Grown qs' n h' h'') :
    Grown (qs ++ qs') (m + n) h h'' where
  toStocked := hg.toStocked.trans hg'.toStocked
  arrays := hg'.arrays.trans hg.arrays
  length := hg'.length.trans hg.length
  commander p hp := by
    rw [List.mem_append, not_or] at hp
    exact (hg'.commander p hp.2).trans (hg.commander p hp.1)
  attempts_ge := hg.attempts_ge.trans hg'.attempts_ge
  attempts_le := hg'.attempts_le.trans (by have := hg.attempts_le; omega)

theorem Grown.mono (hg : Grown qs m h h') (hmn : m ≤ n) : Grown qs n h h' :=
  { hg with attempts_le := hg.attempts_le.trans (Nat.add_le_add_left hmn _) }

theorem grown_setCommander (h : Heap Key) (p : CommanderPtr) (c : Option (Commander Key)) :
    Grown [p] 0 h (h.setCommander p c) where
  toStocked := .refl _ _
  arrays := rfl
  length := List.length_set
  commander q hq := by
    have hne : p ≠ q := fun hpq => hq (hpq ▸ List.mem_singleton_self p)
    rw [Heap.commander, Heap.setCommander, List.getElem?_set_ne hne]
    rfl
  attempts_ge := le_rfl
  attempts_le := le_rfl

end Grown

/-- An item that cannot be made although there are static data for it has lacked memory. -/
theorem itemFactoryCreate_grown (env : Env Key) (id : UInt32) (w : World Key) :
    (itemFactoryCreate env id 1).Sat w fun r w' => Grown [] 1 w.heap w'.heap ∧
      ∃ item, r = .ok item ∧
        (∀ i, item = some i → w.heap.nextItem ≤ i ∧ i < w'.heap.nextItem ∧
          (w'.heap.item i).id = id) ∧
        (item = none → Creatable env id →
          env.allocates w.heap.attempts = false ∧ w.heap.attempts < w'.heap.attempts) := by
  rw [itemFactoryCreate, Creatable]
  cases hcategory : itemFactoryGetCategoryFromId env.staticData id with
  | none =>
    simpa using (Grown.refl w.heap).mono (Nat.zero_le 1)
  | some category =>
    have hcounted : Grown [] 1 w.heap { w.heap with
        actorId := w.heap.actorId + 1, attempts := w.heap.attempts + 1 } :=
      ⟨⟨le_rfl, fun _ _ => rfl, rfl, rfl, rfl⟩, rfl, rfl, fun _ _ => rfl, Nat.le_succ _, le_rfl⟩
    simp only [sat_bind, onHeap, sat_act, then_ok, sat_allocate, sat_ite, sat_pure]
    refine ⟨fun _ => ?_, fun hallocates => ⟨hcounted, none, rfl, by simp, fun _ _ =>
      ⟨by simpa using hallocates, Nat.lt_succ_self _⟩⟩⟩
    cases hinit : itemInit w.heap.actorId category id 1 with
    | none =>
      refine (sat_pure _ _ _).mpr ⟨hcounted, none, rfl, by simp, fun _ hbody => ?_⟩
      rw [itemInit, Option.map_eq_none_iff] at hinit
      simp [hinit] at hbody
    | some item =>
      simp only [sat_bind, sat_act, then_ok, sat_pure, Heap.newItem]
      refine ⟨⟨stocked_new _ _ item, rfl, rfl, fun _ _ => rfl, Nat.le_succ _, le_rfl⟩, _, rfl, ?_,
        by simp⟩
      rintro _ ⟨⟩
      rw [Function.update_self]
      exact ⟨le_rfl, Nat.lt_succ_self _, itemInit_id hinit⟩

/-- So has one that is made for a slot. -/
theorem itemFactoryCreateEquipable_grown (env : Env Key) (id : UInt32) (slot : UInt8)
    (w : World Key) :
    (itemFactoryCreateEquipable env id 1 slot).Sat w fun r w' => Grown [] 1 w.heap w'.heap ∧
      ∃ item, r = .ok item ∧
        (∀ i, item = some i → w.heap.nextItem ≤ i ∧ i < w'.heap.nextItem ∧
          (w'.heap.item i).id = id) ∧
        (item = none → Creatable env id →
          env.allocates w.heap.attempts = false ∧ w.heap.attempts < w'.heap.attempts) := by
  rw [itemFactoryCreateEquipable, sat_bind]
  refine (itemFactoryCreate_grown env id w).mono ?_
  rintro _ w' ⟨hg, item, rfl, hitem, hnone⟩
  rw [then_ok]
  cases item with
  | none => exact (sat_pure _ _ _).mpr ⟨hg, none, rfl, by simp, hnone⟩
  | some i =>
    obtain ⟨hge, hlt, hid⟩ := hitem i rfl
    simp only [setItemSlot, onHeap, sat_bind, sat_act, then_ok, sat_pure]
    refine ⟨?_, some i, rfl, ?_, by simp⟩
    · exact { hg with
        item := fun p hp =>
          (Function.update_of_ne (hp.trans_le hge).ne _ _).trans (hg.item p hp) }
    · rintro _ ⟨⟩
      rw [setItemSlot_item]
      exact ⟨hge, hlt, hid⟩

/-- The slot has a new item with the id. There is none only if there are no static data for the
id, or when memory was lacking. -/
def Furnished (env : Env Key) (h₀ h : Heap Key) (ids : Fin eqSlotCount → UInt32)
    (equippedItems : UInt8 → Option ItemPtr) (slot : Fin eqSlotCount) : Prop :=
  match equippedItems (UInt8.ofNat slot) with
  | some i => h₀.nextItem ≤ i ∧ i < h.nextItem ∧ (h.item i).id = ids slot
  | none => Creatable env (ids slot) →
    ∃ k, h₀.attempts ≤ k ∧ k < h.attempts ∧ env.allocates k = false

section Furnished
variable {env : Env Key} {h₀ h h' : Heap Key} {ids : Fin eqSlotCount → UInt32}
  {equippedItems : UInt8 → Option ItemPtr} {slot : Fin eqSlotCount}

theorem Furnished.grown (hslot : Furnished env h₀ h ids equippedItems slot)
    {qs : List CommanderPtr} {m : ℕ} (hg : Grown qs m h h') :
    Furnished env h₀ h' ids equippedItems slot := by
  unfold Furnished at hslot ⊢
  cases hitem : equippedItems (UInt8.ofNat slot) with
  | none =>
    rw [hitem] at hslot
    intro hcreatable
    obtain ⟨k, hge, hlt, hallocates⟩ := hslot hcreatable
    exact ⟨k, hge, hlt.trans_le hg.attempts_ge, hallocates⟩
  | some i =>
    rw [hitem] at hslot
    obtain ⟨hge, hlt, hid⟩ := hslot
    exact ⟨hge, hlt.trans_le hg.items, (congrArg Item.id (hg.item i hlt)).trans hid⟩

/-- A slot that is left alone. -/
theorem Furnished.update_of_ne (hslot : Furnished env h₀ h ids equippedItems slot)
    {other : Fin eqSlotCount} (hne : slot ≠ other) (item : Option ItemPtr) :
    Furnished env h₀ h ids (Function.update equippedItems (UInt8.ofNat other) item) slot := by
  have hsame : Function.update equippedItems (UInt8.ofNat other) item (UInt8.ofNat slot) =
      equippedItems (UInt8.ofNat slot) :=
    Function.update_of_ne (fun heq => hne (ofNat_slot_injective heq)) _ _
  unfold Furnished at hslot ⊢
  rwa [hsame]

/-- A slot that is furnished has an item when there are static data and enough memory. -/
theorem Furnished.bears (hslot : Furnished env h₀ h ids equippedItems slot)
    (hcreatable : Creatable env (ids slot))
    (hmemory : ∀ k, h₀.attempts ≤ k → k < h.attempts → env.allocates k = true) :
    Bears h ids equippedItems slot ∧
      ∃ i, equippedItems (UInt8.ofNat slot) = some i ∧ h₀.nextItem ≤ i := by
  unfold Furnished at hslot
  cases hitem : equippedItems (UInt8.ofNat slot) with
  | none =>
    rw [hitem] at hslot
    obtain ⟨k, hge, hlt, hallocates⟩ := hslot hcreatable
    exact absurd ((hmemory k hge hlt).symm.trans hallocates) (Bool.false_ne_true ·.symm)
  | some i =>
    rw [hitem] at hslot
    exact ⟨⟨i, hitem, hslot.2⟩, i, rfl, hslot.1⟩

end Furnished

/-- Items are made, and memory is asked for, after what was made in `h₀`. -/
structure After (h₀ h : Heap Key) : Prop where
  items : h₀.nextItem ≤ h.nextItem
  attempts : h₀.attempts ≤ h.attempts

theorem After.grown {h₀ h h' : Heap Key} (h₁ : After h₀ h) {qs : List CommanderPtr} {m : ℕ}
    (hg : Grown qs m h h') : After h₀ h' :=
  ⟨h₁.items.trans hg.items, h₁.attempts.trans hg.attempts_ge⟩

/-- The slots are furnished one after the other. -/
theorem equipSlots_furnished (env : Env Key) {h₀ : Heap Key} (ids : Fin eqSlotCount → UInt32)
    (slots : List (Fin eqSlotCount)) {equippedItems : UInt8 → Option ItemPtr} {w : World Key}
    (hafter : After h₀ w.heap)
    (hothers : ∀ slot ∉ slots, Furnished env h₀ w.heap ids equippedItems slot) :
    (equipSlots (fun slot => itemFactoryCreateEquipable env (ids slot) 1 (UInt8.ofNat slot)) slots
      equippedItems).Sat w fun r w' => Grown [] slots.length w.heap w'.heap ∧
        ∃ equippedItems, r = .ok equippedItems ∧
          ∀ slot, Furnished env h₀ w'.heap ids equippedItems slot := by
  induction slots generalizing equippedItems w with
  | nil =>
    exact (sat_pure _ _ _).mpr ⟨.refl _, _, rfl, fun slot => hothers slot List.not_mem_nil⟩
  | cons slot slots ih =>
    rw [equipSlots, sat_bind]
    refine (itemFactoryCreateEquipable_grown env (ids slot) (UInt8.ofNat slot) w).mono ?_
    rintro _ w₁ ⟨hg, item, rfl, hitem, hnone⟩
    rw [then_ok]
    have hfurnished : ∀ slot' ∉ slots, Furnished env h₀ w₁.heap ids
        (Function.update equippedItems (UInt8.ofNat slot) item) slot' := by
      intro slot' hslot'
      by_cases heq : slot' = slot
      · subst heq
        rw [Furnished, Function.update_self]
        cases item with
        | none =>
          intro hcreatable
          obtain ⟨hallocates, hlt⟩ := hnone rfl hcreatable
          exact ⟨w.heap.attempts, hafter.attempts, hlt, hallocates⟩
        | some i =>
          obtain ⟨hge, hlt, hid⟩ := hitem i rfl
          exact ⟨hafter.items.trans hge, hlt, hid⟩
      · exact ((hothers slot' (by simp [heq, hslot'])).grown hg).update_of_ne heq item
    refine (ih (hafter.grown hg) hfurnished).mono ?_
    rintro _ w₂ ⟨hg₂, hequipped⟩
    refine ⟨?_, hequipped⟩
    rw [List.length_cons, Nat.add_comm]
    exact hg.trans hg₂

/-! ### Filling the slots -/

/-- The slots of an array that holds these commanders, and then nothing. -/
def slotsOf (capacity : ℕ) (ps : List CommanderPtr) : List (Option CommanderPtr) :=
  ps.map some ++ List.replicate (capacity - ps.length) none

theorem length_slotsOf {capacity : ℕ} {ps : List CommanderPtr} (h : ps.length ≤ capacity) :
    (slotsOf capacity ps).length = capacity := by
  rw [slotsOf, List.length_append, List.length_map, List.length_replicate]
  omega

theorem slotsOf_set {capacity : ℕ} {ps : List CommanderPtr} (h : ps.length < capacity)
    (p : CommanderPtr) :
    (slotsOf capacity ps).set ps.length (some p) = slotsOf capacity (ps ++ [p]) := by
  obtain ⟨k, hk⟩ : ∃ k, capacity - ps.length = k + 1 := ⟨capacity - ps.length - 1, by omega⟩
  have hrest : capacity - (ps ++ [p]).length = k := by
    rw [List.length_append, List.length_singleton]
    omega
  rw [slotsOf, slotsOf, hk, hrest, List.replicate_succ, List.set_append_right _ _ (by simp)]
  simp

theorem slotsOf_getElem? (capacity : ℕ) {ps : List CommanderPtr} {i : ℕ} (hi : i < ps.length) :
    (slotsOf capacity ps)[i]? = some (some ps[i]) := by
  rw [slotsOf, List.getElem?_append_left (by rwa [List.length_map]), List.getElem?_map,
    List.getElem?_eq_getElem hi, Option.map_some]

theorem countP_slotsOf (capacity : ℕ) (ps : List CommanderPtr) :
    (slotsOf capacity ps).countP (·.isSome) = ps.length := by
  simp [slotsOf, List.countP_append, List.countP_map, List.countP_replicate, Function.comp_def]

/-- The heap when the slots behind `ps` have been filled with new commanders. -/
def filledHeap (h : Heap Key) (a : CommandersPtr) (capacity : ℕ) (ps : List CommanderPtr)
    (count : ℕ) : Heap Key :=
  { h with
    commanders := h.commanders ++ List.replicate count (some commanderInit)
    arrays := h.arrays.set a
      (slotsOf capacity (ps ++ List.range' h.commanders.length count))
    attempts := h.attempts + count }

/-- When the slots are all filled there are enough of them. -/
theorem fillSlots_filled (env : Env Key) {a : CommandersPtr} {capacity : ℕ}
    {ps : List CommanderPtr} {w : World Key} (count : ℕ)
    (hslots : w.heap.arrays[a]? = some (slotsOf capacity ps)) (hps : ps.length ≤ capacity) :
    (fillSlots env (some a) ps.length count).Sat w fun r w' => r = .ok true →
      ps.length + count ≤ capacity ∧ w'.heap = filledHeap w.heap a capacity ps count := by
  induction count generalizing ps w with
  | zero =>
    rw [fillSlots, sat_pure]
    intro _
    have ha := List.getElem?_eq_some_iff.mp hslots
    refine ⟨hps, ?_⟩
    simp [filledHeap, ← ha.2]
  | succ count ih =>
    have ha := (List.getElem?_eq_some_iff.mp hslots).1
    cases hallocates : env.allocates w.heap.attempts with
    | false =>
      simp [fillSlots, commanderNew, hallocates]
    | true =>
      simp only [fillSlots, commanderNew, sat_bind, sat_allocate, hallocates, sat_ite, sat_pure,
        sat_onHeap, Heap.newCommander, sat_setCommanderSlot, then_ok, hslots, Option.some.injEq,
        forall_eq', false_implies, true_implies, not_true_eq_false, and_true, Option.isSome_some,
        length_slotsOf hps]
      intro hlt
      rw [slotsOf_set hlt]
      have hlength : (ps ++ [w.heap.commanders.length]).length = ps.length + 1 := by simp
      have hrest := @ih (ps ++ [w.heap.commanders.length]) { w with heap :=
        { w.heap with
          commanders := w.heap.commanders ++ [some commanderInit]
          arrays := w.heap.arrays.set a (slotsOf capacity (ps ++ [w.heap.commanders.length]))
          attempts := w.heap.attempts + 1 } } (List.getElem?_set_self ha) (by omega)
      rw [hlength] at hrest
      refine hrest.mono fun r w' hw' hr => ?_
      obtain ⟨hle, hheap⟩ := hw' hr
      refine ⟨by omega, hheap.trans ?_⟩
      simp [filledHeap, List.range'_succ, List.replicate_succ, Nat.add_comm 1 count,
        Nat.add_assoc]

/-! ### Loading the rows -/

/-- The commander of a row, furnished with the items of the row. -/
def OfRow (env : Env Key) (familyName : Chars 64) (h₀ h : Heap Key) (p : CommanderPtr)
    (row : UInt64 × CommanderRow) : Prop :=
  ∃ equippedItems,
    h.commander p = some (row.2.toCommander row.1 familyName (env.rand p) equippedItems) ∧
      ∀ slot, Furnished env h₀ h row.2.eqSlots equippedItems slot

theorem OfRow.grown {env : Env Key} {familyName : Chars 64} {m : ℕ} {h₀ h h' : Heap Key}
    {qs : List CommanderPtr} {p : CommanderPtr} {row : UInt64 × CommanderRow}
    (hrow : OfRow env familyName h₀ h p row) (hg : Grown qs m h h') (hp : p ∉ qs) :
    OfRow env familyName h₀ h' p row := by
  obtain ⟨equippedItems, hcommander, hfurnished⟩ := hrow
  exact ⟨equippedItems, (hg.commander p hp).trans hcommander,
    fun slot => (hfurnished slot).grown hg⟩

theorem setCommander_commander (h : Heap Key) {p : CommanderPtr} (hp : p < h.commanders.length)
    (c : Commander Key) : (h.setCommander p (some c)).commander p = some c := by
  rw [Heap.commander, Heap.setCommander, List.getElem?_set_self hp, Option.join_some]

/-- Each commander is loaded from its row, and those that have been loaded stay as they are. -/
theorem mySqlGetCommanders_ofRows (env : Env Key) (familyName : Chars 64) {a : CommandersPtr}
    {capacity : ℕ} {h₀ : Heap Key} (ps qs : List CommanderPtr)
    (rows : List (UInt64 × CommanderRow)) {w : World Key} (hafter : After h₀ w.heap)
    (hslots : w.heap.arrays[a]? = some (slotsOf capacity (ps ++ qs)))
    (hlength : qs.length = rows.length) (hnodup : qs.Nodup)
    (hlt : ∀ q ∈ qs, q < w.heap.commanders.length) :
    (mySqlGetCommanders env familyName (some a) rows ps.length).Sat w fun r w' => r = .ok () ∧
      Grown qs (eqSlotCount * rows.length) w.heap w'.heap ∧
        List.Forall₂ (OfRow env familyName h₀ w'.heap) qs rows := by
  induction rows generalizing ps qs w with
  | nil =>
    obtain rfl := List.length_eq_zero_iff.mp hlength
    exact (sat_pure _ _ _).mpr ⟨rfl, .refl _, .nil⟩
  | cons row rows ih =>
    obtain ⟨q, qs, rfl⟩ := List.exists_cons_of_length_eq_add_one hlength
    obtain ⟨hq, hnodup⟩ := List.nodup_cons.mp hnodup
    have hslot : w.heap.slot (some a) ps.length = some (some q) := by
      have hi : ps.length < (ps ++ q :: qs).length := by simp
      simp [Heap.slot, hslots, slotsOf_getElem? capacity hi]
    simp only [mySqlGetCommanders, sat_bind, sat_commanderSlot, then_ok, sat_found, sat_commanderAt,
      hslot, Option.some.injEq, forall_eq']
    intro _ _
    refine (equipSlots_furnished env row.2.eqSlots (List.finRange eqSlotCount) hafter
      (fun slot hslot => absurd (List.mem_finRange slot) hslot)).mono ?_
    rintro _ w₁ ⟨hg, equippedItems, rfl, hfurnished⟩
    simp only [then_ok, sat_bind, sat_setCommander]
    have hset := grown_setCommander w₁.heap q
      (some (row.2.toCommander row.1 familyName (env.rand q) equippedItems))
    have hq₁ : q < w₁.heap.commanders.length := hg.length ▸ hlt q List.mem_cons_self
    have hg₁ := hg.trans hset
    rw [List.length_finRange, Nat.add_zero, List.nil_append] at hg₁
    have hrow : OfRow env familyName h₀ (w₁.heap.setCommander q
        (some (row.2.toCommander row.1 familyName (env.rand q) equippedItems))) q row :=
      ⟨equippedItems, setCommander_commander _ hq₁ _, fun slot => (hfurnished slot).grown hset⟩
    have hps : (ps ++ [q]).length = ps.length + 1 := by simp
    rw [← hps]
    refine (@ih (ps ++ [q]) qs
      { w₁ with
        heap := w₁.heap.setCommander q
          (some (row.2.toCommander row.1 familyName (env.rand q) equippedItems)) }
      (hafter.grown hg₁) ?_ (Nat.succ.inj hlength) hnodup ?_).mono ?_
    · rw [List.append_assoc, List.singleton_append, hg₁.arrays, hslots]
    · intro p hp
      rw [hg₁.length]
      exact hlt p (List.mem_cons_of_mem q hp)
    · rintro _ w₂ ⟨rfl, hg₂, hrows⟩
      refine ⟨rfl, ?_, .cons (hrow.grown hg₂ hq) hrows⟩
      have hg₃ := hg₁.trans hg₂
      rw [List.singleton_append] at hg₃
      refine hg₃.mono (le_of_eq ?_)
      rw [List.length_cons, Nat.mul_succ, Nat.add_comm]

/-! ### The account session with its commanders -/

/-- The commanders that are allocated for the rows. -/
def newCommanders (w : World Key) (rows : List (UInt64 × CommanderRow)) : List CommanderPtr :=
  List.range' w.heap.commanders.length rows.length

theorem length_newCommanders (w : World Key) (rows : List (UInt64 × CommanderRow)) :
    (newCommanders w rows).length = rows.length := List.length_range'

/-- What loading the rows leaves behind. -/
structure RowsLoaded (env : Env Key) (accountSession : AccountSession)
    (rows : List (UInt64 × CommanderRow)) (w : World Key)
    (loaded : AccountSession × ℕ) (h : Heap Key) : Prop where
  session : loaded.1 = { accountSession with
    commandersCountMax := 5, commanders := some w.heap.arrays.length }
  count : loaded.2 = rows.length
  array : h.arrays[w.heap.arrays.length]? = some (slotsOf 5 (newCommanders w rows))
  commanders : h.commanders.length = w.heap.commanders.length + rows.length
  ofRows : List.Forall₂ (OfRow env accountSession.familyName w.heap h)
    (newCommanders w rows) rows
  attempts : h.attempts ≤ w.heap.attempts + (1 + (1 + eqSlotCount) * rows.length)

/-- When the loading of rows comes to an end there were slots for them. -/
theorem mySqlLoadAccountCommanders_loaded {env : Env Key} (accountSession : AccountSession)
    {accountId : UInt64} {w : World Key} {rows : List (UInt64 × CommanderRow)}
    (hselect : env.selectCommanders w.writes accountId = .success (some rows)) :
    (mySqlLoadAccountCommanders env accountSession accountId).Sat w fun r w' =>
      (rows = [] ∨ env.allocates w.heap.attempts = true ∧ rows.length ≤ 5) ∧
        ∀ loaded, r = .ok (some loaded) →
          RowsLoaded env accountSession rows w loaded w'.heap := by
  simp only [mySqlLoadAccountCommanders, mySqlRequestCommandersByAccountId, sat_bind, sat_gets,
    then_ok, hselect, sat_pure, accountSessionCommandersInit, sat_allocate]
  cases hallocates : env.allocates w.heap.attempts with
  | false =>
    simp only [Bool.false_eq_true, if_false, sat_ite, sat_pure, sat_fault, then_ok]
    exact ⟨fun hrows => ⟨.inl (List.length_eq_zero_iff.mp hrows), by simp⟩, fun _ => trivial⟩
  | true =>
    simp only [if_true, sat_bind, sat_onHeap, then_ok, Heap.newArray]
    have hslots : (w.heap.arrays ++ [List.replicate 5 none])[w.heap.arrays.length]? =
        some (slotsOf 5 []) := List.getElem?_concat_length
    have hfill := @fillSlots_filled Key env w.heap.arrays.length 5 []
      { w with heap := { w.heap with
          arrays := w.heap.arrays ++ [List.replicate 5 none]
          attempts := w.heap.attempts + 1 } } rows.length hslots (Nat.zero_le 5)
    have hkeeps := @fillSlots_sat Key env w.heap.arrays.length _ 0 rows.length
      { w with heap := { w.heap with
          arrays := w.heap.arrays ++ [List.replicate 5 none]
          attempts := w.heap.attempts + 1 } } hslots
    intro r w₁ hrun
    obtain ⟨⟨slots, hslots₁, hlength⟩, filled, rfl, -⟩ := hkeeps r w₁ hrun
    cases filled with
    | false =>
      simp only [then_ok, Bool.false_eq_true, if_false, sat_bind]
      refine (destroySlots_sat 0 rows.length hslots₁).mono ?_
      rintro _ w₂ ⟨rfl, hroom⟩
      rw [hlength, length_slotsOf (Nat.zero_le 5), Nat.zero_add] at hroom
      simp only [then_ok, sat_pure]
      refine ⟨?_, by simp⟩
      rcases List.eq_nil_or_concat rows with rfl | ⟨_, _, rfl⟩
      · exact .inl rfl
      · exact .inr ⟨trivial, hroom (by simp)⟩
    | true =>
      obtain ⟨hroom, hheap⟩ := hfill _ w₁ hrun rfl
      rw [List.length_nil, Nat.zero_add] at hroom
      simp only [then_ok, if_true, sat_pure, sat_bind]
      have harray : w₁.heap.arrays[w.heap.arrays.length]? =
          some (slotsOf 5 ([] ++ newCommanders w rows)) := by
        rw [hheap]
        exact List.getElem?_set_self (by simp)
      have hcommanders : w₁.heap.commanders.length = w.heap.commanders.length + rows.length := by
        rw [hheap]
        simp [filledHeap]
      have hattempts : w₁.heap.attempts = w.heap.attempts + 1 + rows.length := by
        rw [hheap]
        rfl
      have hafter : After w.heap w₁.heap := ⟨by rw [hheap]; exact le_rfl, by omega⟩
      refine (mySqlGetCommanders_ofRows env accountSession.familyName [] (newCommanders w rows) rows
        hafter harray (length_newCommanders w rows) List.nodup_range'
        fun q hq => ?_).mono ?_
      · rw [newCommanders, List.mem_range'_1] at hq
        exact hcommanders ▸ hq.2
      · rintro _ w₂ ⟨rfl, hg, hrows⟩
        simp only [then_ok, sat_pure]
        refine ⟨.inr ⟨trivial, hroom⟩, fun loaded hloaded => ?_⟩
        obtain rfl := Option.some.inj (Except.ok.inj hloaded)
        exact
          { session := rfl
            count := rfl
            array := by rw [hg.arrays, harray, List.nil_append]
            commanders := hg.length.trans hcommanders
            ofRows := hrows
            attempts := by
              have hle := hg.attempts_le
              rw [Nat.add_mul, Nat.one_mul]
              omega }

/-- The array has as many slots as the session counts. The first of them hold the commanders of
the rows, each one of its own, in the order of the rows; the others are empty. -/
def SlotsFilled (env : Env Key) (h₀ : Heap Key) (rows : List (UInt64 × CommanderRow))
    (accountSession : AccountSession) (count : ℕ) (h : Heap Key) : Prop :=
  ∃ a slots ps, accountSession.commanders = some a ∧ h.arrays[a]? = some slots ∧
    slots.length = accountSession.commandersCountMax ∧
    slots = slotsOf accountSession.commandersCountMax ps ∧ ps.Nodup ∧
    List.Forall₂ (OfRow env accountSession.familyName h₀ h) ps rows ∧
    count = slots.countP (·.isSome)

/-- The commanders are loaded without touching anything but the slots of a new array, and they
are in it if they are loaded at all. -/
def LoadsSlots (env : Env Key) (accountSession : AccountSession) (accountId : UInt64)
    (rows : List (UInt64 × CommanderRow)) (w : World Key) : Prop :=
  ∃ loaded w', mySqlLoadAccountCommanders env accountSession accountId w =
      some (.ok loaded, w') ∧ w.Untouched w' ∧
    ∀ s count, loaded = some (s, count) → SlotsFilled env w.heap rows s count w'.heap

theorem RowsLoaded.slotsFilled {env : Env Key} {accountSession : AccountSession}
    {rows : List (UInt64 × CommanderRow)} {w : World Key} {s : AccountSession} {count : ℕ}
    {h : Heap Key} (hloaded : RowsLoaded env accountSession rows w (s, count) h)
    (hrows : rows.length ≤ 5) : SlotsFilled env w.heap rows s count h := by
  obtain ⟨rfl : s = _, rfl : count = _, harray, -, hofRows, -⟩ := hloaded
  refine ⟨_, _, _, rfl, harray, length_slotsOf ?_, rfl, List.nodup_range', hofRows, ?_⟩
  · rwa [length_newCommanders]
  · rw [countP_slotsOf, length_newCommanders]

/-- The commanders of an account are loaded into slots that there are, each from its row,
exactly when the account has at most five of them, and there is memory for the array if it has
any. -/
theorem commander_slots_iff {env : Env Key} (accountSession : AccountSession) {accountId : UInt64}
    {w : World Key} {rows : List (UInt64 × CommanderRow)}
    (hselect : env.selectCommanders w.writes accountId = .success (some rows)) :
    LoadsSlots env accountSession accountId rows w ↔
      rows = [] ∨ env.allocates w.heap.attempts = true ∧ rows.length ≤ 5 := by
  constructor
  · rintro ⟨loaded, w', hrun, -⟩
    exact (mySqlLoadAccountCommanders_loaded accountSession hselect _ w' hrun).1
  · intro hrows
    have hends := mySqlLoadAccountCommanders_ends accountSession hselect hrows
    obtain ⟨⟨r, w'⟩, hrun⟩ := Option.ne_none_iff_exists'.mp hends
    obtain ⟨loaded, rfl, -⟩ :=
      mySqlLoadAccountCommanders_sat env accountSession accountId w r w' hrun
    refine ⟨loaded, w', hrun, ?_, ?_⟩
    · exact preserves_mySqlLoadAccountCommanders env accountSession accountId w (.refl w) _ w' hrun
    · rintro s count rfl
      have hloaded := (mySqlLoadAccountCommanders_loaded accountSession hselect _ w' hrun).2 _ rfl
      refine hloaded.slotsFilled ?_
      rcases hrows with rfl | ⟨-, hle⟩
      · exact Nat.zero_le 5
      · exact hle

/-! ### One commander too many -/

/-- The database answers with these rows. -/
def rowsEnv (rows : List (UInt64 × CommanderRow)) : Env UInt64 :=
  { deafEnv with selectCommanders := fun _ _ => .success (some rows) }

/-- Commanders of the account 7. -/
def plainRows (n : ℕ) : List (UInt64 × CommanderRow) :=
  List.replicate n (1,
    { accountId := 7, commanderName := [], level := 1, exp := 0, gender := 1, jobId := 0,
      classId := 0, hairId := 0, mapId := 1021, position := startPosition,
      barrackPosition := startPosition, hp := 1, mp := 1, eqSlots := fun _ => 2 })

theorem commander_slots_of_five :
    LoadsSlots (rowsEnv (plainRows 5)) .zero 7 (plainRows 5) emptyWorld :=
  (commander_slots_iff .zero rfl).mpr (.inr ⟨rfl, le_rfl⟩)

/-- The sixth commander is written behind the array. -/
theorem commander_slots_overrun :
    mySqlLoadAccountCommanders (rowsEnv (plainRows 6)) .zero 7 emptyWorld = none ∧
      ¬ LoadsSlots (rowsEnv (plainRows 6)) .zero 7 (plainRows 6) emptyWorld := by
  have hfault : (mySqlLoadAccountCommanders (rowsEnv (plainRows 6)) .zero 7 emptyWorld).isNone =
      true := by decide +kernel
  have hnone := Option.isNone_iff_eq_none.mp hfault
  refine ⟨hnone, ?_⟩
  rintro ⟨loaded, w', hrun, -⟩
  exact (Option.some_ne_none _).symm (hnone.symm.trans hrun)

end R1Emu.Saving
