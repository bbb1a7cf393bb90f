import R1Emu.Handler.ErrorDefects
import R1Emu.Commander.InventoryIndex

/-!
# The deletion of an item

The handler removes the item it finds from the inventory, and the item is freed with its
handle. The answer is made of the uid and the amount of the item afterwards. A deletion
therefore does what it should only where there is nothing to delete, or where the memory of
a freed item keeps its contents.
-/
namespace R1Emu.Handler
open R1Emu.Actor R1Emu.Game R1Emu.Lib R1Emu.Lib.Stage R1Emu.Lib.Bytes R1Emu.Lib.Transition
open R1Emu.Packet hiding bind_ok bind_error
open R1Emu.Server (PacketHandlerState)
open R1Emu.Commander hiding Memory perform

variable {Key : Type}

/-- The fields of an item, whatever has become of it. -/
def keptItem (self : Store Key) (item : ItemPtr) : Option Item := some (self.item item)

/-- The item is in the hash or in a bag. -/
def HoldsItem (self : Store Key) (item : ItemPtr) : Prop :=
  self.Hashed item ∨ ∃ category, item ∈ self.bagged category

/-- The item is gone from its bag, its uid is not found, and everything else is as it was. -/
structure Removed (actorGenKey : UInt64 → Key) (self self' : Store Key) (item : ItemPtr) :
    Prop where
  bagged : ∀ category, self'.bagged category = (self.bagged category).filter (· != item)
  gone : self'.found actorGenKey (self.item item).uid = none
  others : ∀ actorId, actorId ≠ (self.item item).uid →
    self'.found actorGenKey actorId = self.found actorGenKey actorId
  equipped : self'.equippedItems = self.equippedItems
  contents : self'.item = self.item

/-- What a deletion should do: the item with the uid is removed, the answer carries its uid
and its amount, and where there is no such item there is an error and nothing changes. -/
structure DeletesItem (actorGenKey : UInt64 → Key) (delete : Handling Key PacketHandlerState)
    (w : World Key) (p : CommanderPtr) (c : Commander Key) (actorId : UInt64) : Prop where
  held : ∀ item, HoldsItem (w.heap.store c.inventory) item →
    ((w.heap.store c.inventory).item item).uid = actorId →
      ∃ inventory removed, delete.run w = some (.ok, { w with
          heap := w.heap.setStore p c inventory
          reply := w.reply ++
            [.itemRemove removed inventoryRemovalDestroyed inventoryTypeCommander] }) ∧
        Removed actorGenKey (w.heap.store c.inventory) inventory item ∧
        removed.uid = actorId ∧ removed.amount = ((w.heap.store c.inventory).item item).amount
  absent : (∀ item, HoldsItem (w.heap.store c.inventory) item →
    ((w.heap.store c.inventory).item item).uid ≠ actorId) → delete.run w = some (.error, w)

variable [DecidableEq Key]

/-- The handler, by how the fields of items are read: first those that the removal needs, then
those that the answer needs. -/
def itemDelete (read : Store Key → ItemPtr → Option Item) : Handler Key :=
  fun env packet packetSize => do
    checkSize .czItemDelete 22 packetSize
    let itemId ← readU64 (packet + 6)
    let (p, c, inventory) ← currentStore
    match ← found (inventoryGetItemByActorId env.actorGenKey inventory itemId) with
    | none => return .error
    | some item =>
      let _ ← found (read inventory item)
      let (_, inventory) ← found (inventoryRemoveItem env.actorGenKey inventory item)
      setStore p c inventory
      let removed ← found (read inventory item)
      send (.itemRemove removed inventoryRemovalDestroyed inventoryTypeCommander)
      return .ok

theorem zoneHandlerItemDelete_eq :
    (zoneHandlerItemDelete : Handler Key) = itemDelete keptItem := by
  funext env packet packetSize
  rfl

section Run
variable {env : Env Key} {w : World Key} {packet packetSize : ℕ} {p : CommanderPtr}
  {c : Commander Key} {read : Store Key → ItemPtr → Option Item}

/-- The uid in the packet. -/
def deletedId (w : World Key) (packet : ℕ) : UInt64 :=
  UInt64.ofNat (leValue (w.memory.read (packet + 6) 8))

/-- The packet of a deletion, and the commander it is for. -/
structure Deleting (w : World Key) (packetSize : ℕ) (p : CommanderPtr) (c : Commander Key) :
    Prop where
  size : checkClientPacketSize PacketType.czItemDelete.size 22 packetSize = true
  current : w.session.game.commanderSession.currentCommander = some p
  commander : w.heap.commander p = some c

omit [DecidableEq Key] in
theorem currentStore_of (hcurrent : w.session.game.commanderSession.currentCommander = some p)
    (hcommander : w.heap.commander p = some c) :
    currentStore w = some (.ok (p, c, w.heap.store c.inventory), w) := by
  have hat : (commanderAt (some p) : Handling Key _) w = some (.ok c, w) := by
    have hgets : (gets (·.heap) : Handling Key _) w = some (.ok w.heap, w) := rfl
    refine (bind_ok hgets _).trans ?_
    rw [Option.bind_some, hcommander]
    rfl
  have hgets : (gets (·.session.game.commanderSession.currentCommander) : Handling Key _) w =
      some (.ok (some p), w) := by
    rw [← hcurrent]
    rfl
  refine (bind_ok hgets _).trans ?_
  have hfound : (found (some p) : Handling Key _) w = some (.ok p, w) := rfl
  refine (bind_ok hfound _).trans ?_
  exact (bind_ok hat _).trans rfl

/-- The deletion of an item that is found. -/
def deleteItem (read : Store Key → ItemPtr → Option Item) (env : Env Key) (w : World Key)
    (p : CommanderPtr) (c : Commander Key) (item : ItemPtr) :
    Option (PacketHandlerState × World Key) := do
  let _ ← read (w.heap.store c.inventory) item
  let removal ← inventoryRemoveItem env.actorGenKey (w.heap.store c.inventory) item
  let removed ← read removal.2 item
  return (.ok, { w with
    heap := w.heap.setStore p c removal.2
    reply := w.reply ++
      [.itemRemove removed inventoryRemovalDestroyed inventoryTypeCommander] })

/-- Behind the checks, a deletion is a matter of the inventory. -/
theorem Deleting.run_eq (h : Deleting w packetSize p c) :
    (itemDelete read env packet packetSize).run w =
      (inventoryGetItemByActorId env.actorGenKey (w.heap.store c.inventory)
        (deletedId w packet)).bind fun r =>
          r.elim (some (.error, w)) (deleteItem read env w p c) := by
  have hsize : (checkSize .czItemDelete 22 packetSize : Handling Key Unit) w =
      some (.ok PUnit.unit, w) := by
    rw [checkSize, h.size]
    rfl
  have hid : (readU64 (packet + 6) : Handling Key _) w = some (.ok (deletedId w packet), w) := rfl
  have hrun : itemDelete read env packet packetSize w = _ :=
    ((bind_ok hsize _).trans (bind_ok hid _)).trans
      (bind_ok (currentStore_of h.current h.commander) _)
  rw [Stage.run, hrun]
  refine (congrArg _ (found_bind _ _ _)).trans ?_
  rw [Option.map_bind]
  congr 1
  funext r
  cases r with
  | none => rfl
  | some item =>
    refine (congrArg _ (found_bind _ _ _)).trans ?_
    rw [Option.map_bind]
    congr 1
    funext fields
    refine (congrArg _ (found_bind _ _ _)).trans ?_
    rw [Option.map_bind]
    congr 1
    funext removal
    have hset : setStore p c removal.2 w =
        some (.ok (), { w with heap := w.heap.setStore p c removal.2 }) := rfl
    refine (congrArg _ ((bind_ok hset _).trans (found_bind _ _ _))).trans ?_
    rw [Option.map_bind]
    cases read removal.2 item with
    | none => rfl
    | some removed => rfl

theorem Deleting.run_missing (h : Deleting w packetSize p c)
    (hmissing : (w.heap.store c.inventory).items (env.actorGenKey (deletedId w packet)) = none) :
    (itemDelete read env packet packetSize).run w = some (.error, w) := by
  rw [h.run_eq, inventoryGetItemByActorId, hmissing]
  rfl

/-- A removal writes no item. -/
theorem inventoryRemoveItem_item {actorGenKey : UInt64 → Key} {self self' : Store Key} {r : Bool}
    {item : ItemPtr} (h : inventoryRemoveItem actorGenKey self item = some (r, self')) :
    self'.item = self.item := by
  have halive := inventoryRemoveItem_live actorGenKey h
  cases hfound : self.items (actorGenKey (self.item item).uid) with
  | none =>
    rw [inventoryRemoveItem_missing actorGenKey halive hfound] at h
    cases h
    rfl
  | some handle =>
    cases hcell : self.cell handle with
    | none => simp [inventoryRemoveItem, itemHandleDestroy, liveItem_eq halive, hfound, hcell] at h
    | some held =>
      by_cases hheld : held ∈ self.destroyed
      · simp [inventoryRemoveItem, itemHandleDestroy, liveItem, halive, hheld, hfound, hcell] at h
      · rw [inventoryRemoveItem_found actorGenKey halive hfound hcell hheld] at h
        cases h
        rfl

/-- No answer is made from an item that has been freed. So the item found has another uid. -/
theorem Deleting.run_live (h : Deleting w packetSize p c) {handle : ItemHandle}
    (hfound : (w.heap.store c.inventory).items (env.actorGenKey (deletedId w packet)) =
      some handle) {state : PacketHandlerState} {w' : World Key}
    (hrun : (itemDelete liveItem env packet packetSize).run w = some (state, w')) :
    state = .ok ∧ ∃ item, (w.heap.store c.inventory).cell handle = some item ∧
      ((w.heap.store c.inventory).item item).uid ≠ deletedId w packet ∧
      w'.reply = w.reply ++ [.itemRemove ((w.heap.store c.inventory).item item)
        inventoryRemovalDestroyed inventoryTypeCommander] := by
  rw [h.run_eq, inventoryGetItemByActorId, hfound] at hrun
  obtain ⟨r, hget, hrun⟩ := Option.bind_eq_some_iff.mp hrun
  obtain ⟨item, hcell, rfl⟩ := Option.map_eq_some_iff.mp hget
  obtain ⟨fields, -, hrun⟩ := Option.bind_eq_some_iff.mp hrun
  obtain ⟨⟨done, inventory⟩, hremove, hrun⟩ := Option.bind_eq_some_iff.mp hrun
  obtain ⟨removed, hread, hrun⟩ := Option.bind_eq_some_iff.mp hrun
  obtain ⟨rfl, rfl⟩ := Prod.mk.inj (Option.some.inj hrun)
  obtain ⟨hlive, rfl⟩ := liveItem_eq_some hread
  refine ⟨rfl, item, hcell, ?_, ?_⟩
  · intro huid
    rw [← huid] at hfound
    have halive := inventoryRemoveItem_live env.actorGenKey hremove
    rw [inventoryRemoveItem_found env.actorGenKey halive hfound hcell halive] at hremove
    cases hremove
    exact hlive List.mem_cons_self
  · rw [inventoryRemoveItem_item hremove]

variable (env packet) in
/-- A deletion does what it should exactly where there is nothing to delete. -/
theorem Deleting.live_iff (h : Deleting w packetSize p c) :
    DeletesItem env.actorGenKey (itemDelete liveItem env packet packetSize) w p c
        (deletedId w packet) ↔
      (w.heap.store c.inventory).items (env.actorGenKey (deletedId w packet)) = none ∧
        ∀ item, HoldsItem (w.heap.store c.inventory) item →
          ((w.heap.store c.inventory).item item).uid ≠ deletedId w packet := by
  constructor
  · intro hdeletes
    have hmissing :
        (w.heap.store c.inventory).items (env.actorGenKey (deletedId w packet)) = none := by
      by_contra hne
      obtain ⟨handle, hfound⟩ := Option.ne_none_iff_exists'.mp hne
      by_cases habsent : ∀ item, HoldsItem (w.heap.store c.inventory) item →
          ((w.heap.store c.inventory).item item).uid ≠ deletedId w packet
      · have hok := (h.run_live hfound (hdeletes.absent habsent)).1
        cases hok
      · push Not at habsent
        obtain ⟨item, hholds, huid⟩ := habsent
        obtain ⟨inventory, removed, hrun, -, huid, -⟩ := hdeletes.held item hholds huid
        obtain ⟨-, other, -, hne, hreply⟩ := h.run_live hfound hrun
        have hsame := List.append_cancel_left hreply
        cases hsame
        exact hne huid
    refine ⟨hmissing, fun item hholds huid => ?_⟩
    obtain ⟨inventory, removed, hrun, -⟩ := hdeletes.held item hholds huid
    cases hrun.symm.trans (h.run_missing hmissing)
  · rintro ⟨hmissing, habsent⟩
    exact ⟨fun item hholds huid => absurd huid (habsent item hholds),
      fun _ => h.run_missing hmissing⟩

end Run

section Sound
variable {actorGenKey : UInt64 → Key} {self : Store Key} {added : List ItemPtr} {item : ItemPtr}
  {handle : ItemHandle}

omit [DecidableEq Key] in
theorem filterMap_erase {α β : Type} [DecidableEq α] {f : α → Option β} {x : α} (hx : f x = none)
    (list : List α) : (list.erase x).filterMap f = list.filterMap f := by
  induction list with
  | nil => rfl
  | cons y list ih =>
    by_cases hy : y = x
    · rw [hy, List.erase_cons_head, List.filterMap_cons_none hx]
    · rw [List.erase_cons_tail (by simpa using hy)]
      cases hfy : f y with
      | none => rw [List.filterMap_cons_none hfy, List.filterMap_cons_none hfy, ih]
      | some b => rw [List.filterMap_cons_some hfy, List.filterMap_cons_some hfy, ih]

/-- The item leaves its bag, where the others keep their order. -/
theorem unshelve_bagged (h : self.indexes.Agree (self.entry actorGenKey))
    (hfound : self.items (actorGenKey (self.item item).uid) = some handle)
    (hcell : self.cell handle = some item) (category : ItemCategory) :
    (unshelve actorGenKey self item handle item).bagged category =
      (self.bagged category).filter (· != item) := by
  have herase : ((unshelve actorGenKey self item handle item).bags category).filterMap
      (unshelve actorGenKey self item handle item).cell =
        (self.bags category).filterMap (Function.update self.cell handle none) := by
    by_cases hcategory : category = (self.item item).category
    · subst hcategory
      simp only [unshelve, Function.update_self]
      exact filterMap_erase (Function.update_self ..) _
    · simp only [unshelve, Function.update_of_ne hcategory]
  rw [Store.bagged, herase, Store.bagged, List.filter_filterMap]
  refine List.filterMap_congr fun other hother => ?_
  by_cases he : other = handle
  · rw [he, Function.update_self, hcell]
    rw [Option.filter_some]
    simp
  · rw [Function.update_of_ne he]
    cases hheld : self.cell other with
    | none => rfl
    | some i =>
      -- the handle that is found for the item is the only one that holds it
      have hne : i ≠ item := by
        rintro rfl
        obtain ⟨k, hk, -⟩ := (h.mem_bag category other).mp hother
        rw [entry_of_cell hheld] at hk
        cases hk
        exact he (h.key_injective hother (h.mem_of_index hfound (entry_of_cell hcell))
          (entry_of_cell hheld) (entry_of_cell hcell))
      rw [Option.filter_some, if_pos (by simpa using hne)]

/-- An item that is found is removed, and nothing else changes. -/
theorem removed_unshelve (h : Sound actorGenKey self added)
    (hgen : Function.Injective actorGenKey)
    (hfound : self.items (actorGenKey (self.item item).uid) = some handle)
    (hcell : self.cell handle = some item) :
    Removed actorGenKey self (unshelve actorGenKey self item handle item) item where
  bagged := unshelve_bagged h.agree hfound hcell
  gone := by simp [Store.found, unshelve]
  others := by
    intro actorId hne
    have hkey : actorGenKey actorId ≠ actorGenKey (self.item item).uid := fun he => hne (hgen he)
    simp only [Store.found, unshelve, Function.update_of_ne hkey]
    cases hother : self.items (actorGenKey actorId) with
    | none => rfl
    | some other =>
      have hhandle : other ≠ handle := by
        rintro rfl
        exact hkey (found_handle h.agree hother hcell)
      rw [Option.bind_some, Option.bind_some, Function.update_of_ne hhandle]
  equipped := rfl
  contents := rfl

omit [DecidableEq Key] in
theorem hashed_of_holds (h : Sound actorGenKey self added) (hholds : HoldsItem self item) :
    self.Hashed item := by
  rcases hholds with hhashed | ⟨category, hmem⟩
  · exact hhashed
  · exact ((hashed_iff_bagged h.agree category).mp hmem).1

/-- Where freed items keep their contents, deletions do what they should. -/
theorem Deleting.kept_deletes {env : Env Key} {w : World Key} {packet packetSize : ℕ}
    {p : CommanderPtr} {c : Commander Key} (h : Deleting w packetSize p c)
    (hsound : Sound env.actorGenKey (w.heap.store c.inventory) added)
    (hgen : Function.Injective env.actorGenKey) :
    DeletesItem env.actorGenKey (zoneHandlerItemDelete env packet packetSize) w p c
      (deletedId w packet) := by
  rw [zoneHandlerItemDelete_eq]
  constructor
  · intro item hholds huid
    have hhashed := hashed_of_holds hsound hholds
    have halive := hsound.alive item hhashed
    obtain ⟨handle, hfound, hcell⟩ := hsound.handle_of_hashed hhashed
    refine ⟨_, _, ?_, removed_unshelve hsound hgen hfound hcell, huid, rfl⟩
    rw [h.run_eq, inventoryGetItemByActorId, ← huid, hfound]
    dsimp only
    rw [hcell]
    simp only [Option.map_some, Option.bind_some, Option.elim_some, deleteItem, keptItem,
      inventoryRemoveItem_found env.actorGenKey halive hfound hcell halive]
    rfl
  · intro habsent
    exact h.run_missing (hsound.not_found hgen fun j hj => habsent j (.inl hj))

/-- For every session and every uid that its client sends, the handler does what it should
exactly where the inventory holds no item with the uid. The only defect is that the answer is
made of a freed item, as long as no two items have changed places. -/
theorem item_delete_iff (env : Env Key) (packet : ℕ) {w : World Key} {packetSize : ℕ}
    {p : CommanderPtr} {c : Commander Key} (h : Deleting w packetSize p c) :
    (DeletesItem env.actorGenKey (itemDelete liveItem env packet packetSize) w p c
        (deletedId w packet) ↔
      (w.heap.store c.inventory).items (env.actorGenKey (deletedId w packet)) = none ∧
        ∀ item, HoldsItem (w.heap.store c.inventory) item →
          ((w.heap.store c.inventory).item item).uid ≠ deletedId w packet) ∧
    ∀ self : Ledger Key, self.toStore = w.heap.store c.inventory →
      Function.Injective env.actorGenKey →
      ReachableUnder (inventorySystem env.actorGenKey)
        (fun s op => Permitted env.actorGenKey s op ∧ ¬ Exchanges env.actorGenKey s op) self →
      DeletesItem env.actorGenKey (zoneHandlerItemDelete env packet packetSize) w p c
        (deletedId w packet) := by
  refine ⟨h.live_iff env packet, fun self hself hgen hreach => ?_⟩
  have hsound := sound_of_reachable hgen hreach
  rw [hself] at hsound
  exact h.kept_deletes hsound hgen

end Sound

/-! ### A consumable with the uid 1 -/

def owner (self : Store UInt64) : Commander UInt64 :=
  { (commanderInit : Commander UInt64) with inventory := self.toInventory }

/-- The inventory of the commander that is played, and a packet with the uid. -/
def holdingWorld (self : Store UInt64) (actorId : UInt8) : World UInt64 :=
  { emptyWorld with
    session := { emptyWorld.session with
      game := { emptyWorld.session.game with commanderSession := ⟨some 0⟩ } }
    heap := { emptyWorld.heap with
      toMemory := self.toMemory
      commanders := [some (owner self)] }
    memory := fun i => if i = 6 then actorId else 0 }

def stocked : Ledger UInt64 :=
  { (Ledger.start consumables : Ledger UInt64) with
    toStore := shelve id (Ledger.start consumables : Ledger UInt64).toStore 0
    added := [0]
    owned := [0] }

theorem stocked_reachable : ReachableUnder (inventorySystem id)
    (fun s op => Permitted id s op ∧ ¬ Exchanges id s op) stocked :=
  .step (a := .addItem 0) (.init ⟨consumables, rfl⟩)
    ⟨fun _ hj => absurd hj List.not_mem_nil, id⟩ rfl

theorem deleting_holdingWorld (self : Store UInt64) (actorId : UInt8) :
    Deleting (holdingWorld self actorId) 22 0 (owner self) :=
  ⟨by decide, rfl, rfl⟩

/-- Deleting the uid 2 is an error. Deleting the uid 1 deletes the consumable as long as its
memory keeps its contents. -/
theorem item_delete_absent :
    DeletesItem id (itemDelete liveItem deafEnv 0 22) (holdingWorld stocked.toStore 2) 0
        (owner stocked.toStore) 2 ∧
      DeletesItem id (zoneHandlerItemDelete deafEnv 0 22) (holdingWorld stocked.toStore 1) 0
        (owner stocked.toStore) 1 := by
  constructor
  · have hlaw := item_delete_iff deafEnv 0 (deleting_holdingWorld stocked.toStore 2)
    refine hlaw.1.mpr ⟨by decide +kernel, fun item hholds => ?_⟩
    have hsound := sound_of_reachable Function.injective_id stocked_reachable
    have hzero : item = 0 := List.mem_singleton.mp
      (hsound.hashed_added item (hashed_of_holds hsound hholds))
    subst hzero
    decide +kernel
  · have hlaw := item_delete_iff deafEnv 0 (deleting_holdingWorld stocked.toStore 1)
    exact hlaw.2 stocked rfl Function.injective_id stocked_reachable

/-- The consumable is freed before the answer is made of it. -/
theorem item_delete_reads_freed :
    ¬ DeletesItem id (itemDelete liveItem deafEnv 0 22) (holdingWorld stocked.toStore 1) 0
      (owner stocked.toStore) 1 := by
  intro h
  have hmissing := ((deleting_holdingWorld stocked.toStore 1).live_iff deafEnv 0).mp h
  exact absurd hmissing.1 (by decide +kernel)

end R1Emu.Handler
