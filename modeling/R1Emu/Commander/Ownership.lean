import R1Emu.Commander.InventoryIndex

/-!
# The ownership of items

An item belongs to the inventory from its addition to its removal by the user. Equipping
takes the item out of the inventory with the operation that also destroys it, and a removal
destroys the item that is found for a uid, whichever it is. The items are safe exactly until
the first one is equipped or removed in the place of another.
-/
namespace R1Emu.Commander
open R1Emu.Actor R1Emu.Lib R1Emu.Lib.Transition

variable {Key : Type} [DecidableEq Key] {actorGenKey : UInt64 → Key}

/-- Every item the user owns is in one place, once, and nothing destroyed can be reached. -/
structure Owned (s : Ledger Key) : Prop where
  placed : ∀ i ∈ s.owned, ∃ p, ∀ q, s.occurrences i q = if q = p then 1 else 0
  alive : s.Alive

/-- Nothing but additions, removals, equipping and unequipping. -/
def Operation.Moves : Operation → Prop
  | .swapItems .. => False
  | _ => True

variable (actorGenKey) in
/-- Another item is found for the uid of the item to remove. -/
def RemovesOther (self : Ledger Key) : Operation → Prop
  | .removeItem item =>
    ∃ i, self.toStore.found actorGenKey (self.item item).uid = some i ∧ i ≠ item
  | _ => False

variable (actorGenKey) in
/-- No item is equipped, or removed in the place of another. -/
def Safe (self : Ledger Key) (op : Operation) : Prop :=
  ¬ Equips actorGenKey self op ∧ ¬ RemovesOther actorGenKey self op

variable (actorGenKey) in
/-- What adding and removing keep: nothing is equipped, the user owns what is found, and that
has not been destroyed. -/
structure Kept (s : Ledger Key) : Prop where
  agree : s.indexes.Agree (s.entry actorGenKey)
  fresh : ∀ handle, s.next ≤ handle → s.cell handle = none
  free : ∀ slot, s.equippedItems slot = none
  owned : ∀ i, i ∈ s.owned ↔ s.Hashed i
  alive : ∀ i, s.Hashed i → i ∉ s.destroyed

section Kept
variable {self s' : Ledger Key} {item : ItemPtr}

omit [DecidableEq Key] in
theorem kept_start (item : ItemPtr → Item) : Kept actorGenKey (Ledger.start item) where
  agree := KeyedBags.agree_empty
  fresh _ _ := rfl
  free _ := rfl
  owned i := by
    constructor
    · exact fun hi => absurd hi List.not_mem_nil
    · rintro ⟨key, handle, hkey, -⟩
      cases hkey
  alive _ _ := List.not_mem_nil

omit [DecidableEq Key] in
theorem Kept.owned_all (h : Kept actorGenKey self) : Owned self := by
  constructor
  · intro i hi
    refine ⟨.bag (self.item i).category, fun q => ?_⟩
    cases q with
    | bag c =>
      rw [occurrences_of_hashed h.agree ((h.owned i).mp hi)]
      simp
    | slot eqSlot => simp [Store.occurrences, h.free]
  · exact alive_of_free h.agree h.free h.alive

omit [DecidableEq Key] in
/-- A handle in the hash holds an item. -/
theorem Kept.cell_ne_none (h : Kept actorGenKey self) (key : Key) (handle : ItemHandle)
    (hkey : self.items key = some handle) : self.cell handle ≠ none := by
  obtain ⟨i, hi, -⟩ := cell_of_listed h.agree hkey
  rw [hi]
  exact Option.some_ne_none i

theorem Kept.add (h : Kept actorGenKey self)
    (hrun : perform actorGenKey self (.addItem item) = some s') : Kept actorGenKey s' := by
  obtain ⟨⟨r, store⟩, hadd, hrun⟩ := Option.bind_eq_some_iff.mp hrun
  have halive := inventoryAddItem_live actorGenKey hadd
  cases hkey : self.items (actorGenKey (self.item item).uid) with
  | none =>
    rw [inventoryAddItem_new actorGenKey halive hkey] at hadd
    cases hadd
    cases hrun
    have hfresh := h.fresh _ (le_refl _)
    have hhashed := shelve_hashed hfresh hkey
    refine ⟨shelve_agree h.agree hfresh hkey, shelve_fresh actorGenKey h.fresh, h.free, ?_, ?_⟩
    · intro i
      refine Iff.trans ?_ (hhashed i).symm
      rw [← h.owned i, or_comm]
      exact List.mem_cons
    · intro i hi
      rcases (hhashed i).mp hi with hi | rfl
      · exact h.alive i hi
      · exact halive
  | some handle =>
    rw [inventoryAddItem_taken actorGenKey halive (by rw [hkey]; rfl)] at hadd
    cases hadd
    cases hrun
    -- the new handle is listed nowhere
    have hunlisted : ∀ key, self.items key ≠ some self.next := by
      intro key hnext
      obtain ⟨i, hi, -⟩ := cell_of_listed h.agree hnext
      rw [h.fresh _ (le_refl _)] at hi
      cases hi
    have hcell : ∀ handle, handle ≠ self.next →
        (itemHandleNew self.toStore item).2.cell handle = self.cell handle := by
      intro handle hne
      simp [itemHandleNew, hne]
    have hhashed : ∀ i, (itemHandleNew self.toStore item).2.Hashed i ↔ self.Hashed i := by
      intro i
      constructor <;>
        rintro ⟨key, handle, hlisted, hi⟩ <;>
        have hne : handle ≠ self.next := fun he => hunlisted key (he ▸ hlisted)
      · exact ⟨key, handle, hlisted, hcell handle hne ▸ hi⟩
      · exact ⟨key, handle, hlisted, (hcell handle hne).trans hi⟩
    refine ⟨?_, ?_, h.free, fun i => (h.owned i).trans (hhashed i).symm,
      fun i hi => h.alive i ((hhashed i).mp hi)⟩
    · apply h.agree.of_unlisted hunlisted
      intro handle hne
      rw [Store.entry, hcell handle hne]
      rfl
    · intro handle hle
      have hne : handle ≠ self.next := by
        rintro rfl
        exact absurd hle (Nat.not_succ_le_self _)
      exact (hcell handle hne).trans (h.fresh handle ((Nat.le_succ _).trans hle))

/-- What a removal does: nothing when the uid is not found, and otherwise the item found for it
is destroyed. -/
theorem Kept.remove_cases (h : Kept actorGenKey self)
    (hrun : perform actorGenKey self (.removeItem item) = some s') :
    (self.items (actorGenKey (self.item item).uid) = none ∧
        s' = { self with owned := self.owned.filter (· != item) }) ∨
      ∃ handle held, self.items (actorGenKey (self.item item).uid) = some handle ∧
        self.cell handle = some held ∧
        s' = { self with
          toStore := unshelve actorGenKey self.toStore item handle held
          owned := self.owned.filter (· != item) } := by
  obtain ⟨_, hremove, -⟩ := Option.bind_eq_some_iff.mp hrun
  have halive := inventoryRemoveItem_live actorGenKey hremove
  cases hkey : self.items (actorGenKey (self.item item).uid) with
  | none =>
    rw [perform_removeItem_missing halive hkey] at hrun
    exact .inl ⟨rfl, (Option.some.inj hrun).symm⟩
  | some handle =>
    obtain ⟨held, hcell, -⟩ := cell_of_listed h.agree hkey
    have hheld := h.alive held ⟨_, handle, hkey, hcell⟩
    rw [perform_removeItem_found halive hkey hcell hheld] at hrun
    exact .inr ⟨handle, held, rfl, hcell, (Option.some.inj hrun).symm⟩

theorem Kept.remove (h : Kept actorGenKey self)
    (hother : ¬ RemovesOther actorGenKey self (.removeItem item))
    (hrun : perform actorGenKey self (.removeItem item) = some s') : Kept actorGenKey s' := by
  have hkeep : ∀ i, i ∈ self.owned.filter (· != item) ↔ i ∈ self.owned ∧ i ≠ item := by
    intro i
    simp [List.mem_filter]
  rcases h.remove_cases hrun with ⟨hkey, rfl⟩ | ⟨handle, i, hkey, hcell, rfl⟩
  · refine ⟨h.agree, h.fresh, h.free, fun i => ?_, h.alive⟩
    -- an item whose uid is not found is not there
    have hout : self.Hashed i → i ≠ item := by
      rintro hin rfl
      obtain ⟨handle, hfound, -⟩ := (hashed_iff h.agree).mp hin
      cases hkey.symm.trans hfound
    exact ((hkeep i).trans (and_congr_left' (h.owned i))).trans (and_iff_left_of_imp hout)
  · obtain rfl : i = item := by
      by_contra hne
      exact hother ⟨i, found_of_cell hkey hcell, hne⟩
    have hhashed := unshelve_hashed i h.agree hkey hcell
    refine ⟨unshelve_agree h.agree hkey hcell, unshelve_fresh h.fresh, h.free, fun j => ?_, ?_⟩
    · exact ((hkeep j).trans (and_congr_left' (h.owned j))).trans (hhashed j).symm
    · intro j hj hdestroyed
      obtain ⟨hj, hne⟩ := (hhashed j).mp hj
      rcases List.mem_cons.mp hdestroyed with he | hdestroyed
      · exact hne he
      · exact h.alive j hj hdestroyed

/-- The item that is removed in the place of another is lost to the user. -/
theorem Kept.removes_other (h : Kept actorGenKey self) {op : Operation}
    (hother : RemovesOther actorGenKey self op) (hrun : perform actorGenKey self op = some s') :
    ¬ Owned s' := by
  cases op with
  | removeItem item =>
    obtain ⟨i, hfound, hne⟩ := hother
    obtain ⟨handle, hkey, hcell⟩ := Option.bind_eq_some_iff.mp hfound
    rcases h.remove_cases hrun with ⟨hmissing, -⟩ | ⟨handle', held, hkey', hcell', rfl⟩
    · cases hmissing.symm.trans hkey
    · obtain rfl := Option.some.inj (hkey.symm.trans hkey')
      obtain rfl := Option.some.inj (hcell.symm.trans hcell')
      intro howned
      have hmem : i ∈ self.owned.filter (· != item) := by
        simpa [List.mem_filter, hne] using (h.owned i).mpr ⟨_, handle, hkey, hcell⟩
      obtain ⟨p, hp⟩ := howned.placed i hmem
      have hzero := (howned.alive i (List.mem_cons_self ..)).2 p
      rw [hp p, if_pos rfl] at hzero
      exact absurd hzero (Nat.one_ne_zero)
  | _ => exact absurd hother id

theorem Kept.step (h : Kept actorGenKey self) {op : Operation} (hmoves : op.Moves)
    (hsafe : Safe actorGenKey self op) (hrun : perform actorGenKey self op = some s') :
    Kept actorGenKey s' := by
  cases op with
  | addItem item => exact h.add hrun
  | removeItem item => exact h.remove hsafe.2 hrun
  | swapItems actorId1 actorId2 => exact absurd hmoves id
  | equipItem actorId eqSlot =>
    rw [perform_equipItem_missing (missing_of_not_equips h.cell_ne_none hsafe.1)] at hrun
    rwa [← Option.some.inj hrun]
  | unequipItem eqSlot => rwa [perform_unequipItem_eq h.free hrun]

/-- The item that is equipped is destroyed, and the slot goes on pointing to it. -/
theorem Kept.equip_destroys (h : Kept actorGenKey self) {op : Operation}
    (hequips : Equips actorGenKey self op) (hrun : perform actorGenKey self op = some s') :
    ¬ Owned s' := by
  cases op with
  | equipItem actorId eqSlot =>
    obtain ⟨i, hi⟩ := hequips
    obtain ⟨handle, hkey, hcell⟩ := Option.bind_eq_some_iff.mp hi
    obtain ⟨j, hj, hgen⟩ := cell_of_listed h.agree hkey
    obtain rfl := Option.some.inj (hcell.symm.trans hj)
    intro howned
    exact equip_frees h.free hkey hcell (h.alive i ⟨_, handle, hkey, hcell⟩) hgen hrun howned.alive
  | _ => exact absurd hequips id

variable (actorGenKey) in
/-- The items are safe in every run in which no item is equipped, or removed in the place of
another one with its uid. The first item that is equipped is destroyed in its slot, and the first
one that is removed in the place of another is lost. -/
theorem inventory_owned
    (h : ReachableUnder (inventorySystem actorGenKey)
      (fun s op => op.Moves ∧ Safe actorGenKey s op) self) :
    Owned self ∧ ∀ op s', op.Moves → perform actorGenKey self op = some s' →
      (Safe actorGenKey self op ↔ Owned s') := by
  have hinv : Inductive (inventorySystem actorGenKey)
      (fun s op => op.Moves ∧ Safe actorGenKey s op) (Kept actorGenKey) := by
    constructor
    · rintro s ⟨item, rfl⟩
      exact kept_start item
    · exact fun s op s' hs hok hrun => hs.step hok.1 hok.2 hrun
  have hkept := hinv.reachable h
  refine ⟨hkept.owned_all, fun op s' hmoves hrun => ⟨fun hsafe => ?_, fun howned => ⟨?_, ?_⟩⟩⟩
  · exact (hkept.step hmoves hsafe hrun).owned_all
  · exact fun hequips => hkept.equip_destroys hequips hrun howned
  · exact fun hother => hkept.removes_other hother hrun howned

end Kept

theorem inventory_owned_two_items :
    ∃ s, (inventorySystem hexKey).run (Ledger.start consumables)
        [.addItem 0, .addItem 1, .removeItem 0] = some s ∧ Owned s := by
  refine ⟨_, rfl, (inventory_owned hexKey (ReachableUnder.run
    (.init ⟨consumables, rfl⟩) [.addItem 0, .addItem 1, .removeItem 0] ?_ rfl)).1⟩
  refine ⟨⟨trivial, id, id⟩, fun s hs => ?_⟩
  cases hs
  refine ⟨⟨trivial, id, id⟩, fun s hs => ?_⟩
  cases hs
  refine ⟨⟨trivial, id, ?_⟩, fun _ _ => trivial⟩
  rintro ⟨i, hi, hne⟩
  exact hne (Option.some.inj (hi.symm.trans (show _ = some 0 by decide +kernel)))

/-- Two consumables with the uid 1. -/
def twins (_ : ItemPtr) : Item := ⟨1, 0, 1, eqSlotNoSlot, .consumable {}⟩

/-- An item is equipped in a free slot: it is destroyed and stays in the slot. An item that could
not be added is removed: the one with its uid is destroyed. -/
theorem inventory_owned_equipped :
    (∃ s, ReachableUnder (inventorySystem hexKey) (fun _ op => op.Moves) s ∧ ¬ Owned s) ∧
      ∃ s, (inventorySystem hexKey).run (Ledger.start twins)
        [.addItem 0, .addItem 1, .removeItem 1] = some s ∧ ¬ Owned s := by
  constructor
  · refine ⟨_, ReachableUnder.run (.init ⟨consumables, rfl⟩)
      [.addItem 0, .equipItem 1 8] ?_ rfl, fun h => ?_⟩
    · exact ⟨trivial, fun _ _ => ⟨trivial, fun _ _ => trivial⟩⟩
    · have hzero := (h.alive 0 (by decide +kernel)).2 (.slot 8)
      exact absurd hzero (by decide +kernel)
  · refine ⟨_, rfl, fun h => ?_⟩
    obtain ⟨p, hp⟩ := h.placed 0 (by decide +kernel)
    have hzero := (h.alive 0 (by decide +kernel)).2 p
    rw [hp p, if_pos rfl] at hzero
    exact absurd hzero Nat.one_ne_zero

end R1Emu.Commander
