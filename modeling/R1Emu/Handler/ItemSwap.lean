import R1Emu.Commander.Exchange
import R1Emu.Handler.ItemDelete

/-!
# The exchange of two items

The handler fails for equal indexes, and otherwise hands the uids of the client on to the
inventory, which follows whatever it finds for them.
-/
namespace R1Emu.Handler
open R1Emu.Actor R1Emu.Game R1Emu.Lib R1Emu.Lib.Stage R1Emu.Lib.Bytes R1Emu.Lib.Transition
open R1Emu.Packet hiding bind_ok bind_error
open R1Emu.Server (PacketHandlerState)
open R1Emu.Commander hiding Memory perform

variable {Key : Type}

/-! ### The packet -/

def swapId1 (w : World Key) (packet : ℕ) : UInt64 :=
  UInt64.ofNat (leValue (w.memory.read (packet + 1) 8))

def swapIndex1 (w : World Key) (packet : ℕ) : UInt32 :=
  UInt32.ofNat (leValue (w.memory.read (packet + 9) 4))

def swapId2 (w : World Key) (packet : ℕ) : UInt64 :=
  UInt64.ofNat (leValue (w.memory.read (packet + 13) 8))

def swapIndex2 (w : World Key) (packet : ℕ) : UInt32 :=
  UInt32.ofNat (leValue (w.memory.read (packet + 21) 4))

/-- The size of the packet and the indexes in it let the uids through. -/
def AsksSwap (w : World Key) (packet packetSize : ℕ) : Prop :=
  checkClientPacketSize PacketType.czSwapEtcInvChangeIndex.size 25 packetSize = true ∧
    swapIndex1 w packet ≠ swapIndex2 w packet

/-- The commander that is played. -/
structure Playing (w : World Key) (p : CommanderPtr) (c : Commander Key) : Prop where
  current : w.session.game.commanderSession.currentCommander = some p
  commander : w.heap.commander p = some c

section Heap
variable {h : Heap Key} {p : CommanderPtr} {c : Commander Key}

theorem setStore_commander (hc : h.commander p = some c) (s : Store Key) :
    (h.setStore p c s).commander p = some { c with inventory := s.toInventory } := by
  have hp : h.commanders[p]? = some (some c) := Option.join_eq_some_iff.mp hc
  obtain ⟨hlt, -⟩ := List.getElem?_eq_some_iff.mp hp
  change (((h.commanders.set p (some { c with inventory := s.toInventory }))[p]?).join) = _
  rw [List.getElem?_set_self hlt]
  rfl

/-- Putting one inventory after another is putting the last one. -/
theorem setStore_setStore (s s' : Store Key) : (h.setStore p c s).setStore p
    { c with inventory := s.toInventory } s' = h.setStore p c s' := by
  simp only [Heap.setStore, List.set_set]

end Heap

/-- What the handler should do: it ends, it fails and changes nothing or two items change places,
and the same packet again restores what was there. -/
def SwapsHandled (env : Env Key) (w : World Key) (packet packetSize : ℕ)
    (p : CommanderPtr) (c : Commander Key) : Prop :=
  ∃ state w', (zoneHandlerSwapEtcInvChangeIndex env packet packetSize).run w = some (state, w') ∧
    (state ≠ .ok → w' = w) ∧
    (state = .ok → w' = { w with heap := w'.heap } ∧ ∃ c', w'.heap.commander p = some c' ∧
      ChangePlaces (w.heap.store c.inventory) (w'.heap.store c'.inventory) (swapId1 w packet)
        (swapId2 w packet)) ∧
    (zoneHandlerSwapEtcInvChangeIndex env packet packetSize).run w' = some (state, w)

section Run
variable {env : Env Key} {w : World Key} {packet packetSize : ℕ} {p : CommanderPtr}
  {c : Commander Key}

/-- Behind the size check, the packet is read. -/
theorem swap_reads
    (hsize : checkClientPacketSize PacketType.czSwapEtcInvChangeIndex.size 25 packetSize = true) :
    zoneHandlerSwapEtcInvChangeIndex env packet packetSize w =
      (require (swapIndex1 w packet ≠ swapIndex2 w packet) .error >>= fun _ =>
        currentStore >>= fun (p, c, inventory) =>
          found (inventorySwapItems env.actorGenKey inventory (swapId1 w packet)
            (swapId2 w packet)) >>= fun (swapped, inventory) =>
              setStore p c inventory >>= fun _ => require swapped .error >>= fun _ =>
                pure PacketHandlerState.ok) w := by
  have hcheck : (checkSize .czSwapEtcInvChangeIndex 25 packetSize : Handling Key Unit) w =
      some (.ok PUnit.unit, w) := by
    rw [checkSize, hsize]
    rfl
  exact (bind_ok hcheck _).trans rfl

variable (env) in
/-- A packet that does not get through is an error. -/
theorem swap_run_rejected (h : ¬ AsksSwap w packet packetSize) :
    (zoneHandlerSwapEtcInvChangeIndex env packet packetSize).run w = some (.error, w) := by
  cases hsize : checkClientPacketSize PacketType.czSwapEtcInvChangeIndex.size 25 packetSize with
  | false =>
    have hcheck : (checkSize .czSwapEtcInvChangeIndex 25 packetSize : Handling Key Unit) w =
        some (.error .error, w) := by
      rw [checkSize, hsize]
      rfl
    rw [Stage.run, zoneHandlerSwapEtcInvChangeIndex, bind_error hcheck]
    rfl
  | true =>
    have hindexes : swapIndex1 w packet = swapIndex2 w packet :=
      not_not.mp fun hne => h ⟨hsize, hne⟩
    rw [Stage.run, swap_reads hsize, bind_error]
    · rfl
    · rw [hindexes, decide_eq_false (not_not.mpr rfl)]
      rfl

variable (env) in
/-- Behind the checks, a swap is a matter of the inventory. -/
theorem swap_run_eq (hplaying : Playing w p c) (h : AsksSwap w packet packetSize) :
    (zoneHandlerSwapEtcInvChangeIndex env packet packetSize).run w =
      (inventorySwapItems env.actorGenKey (w.heap.store c.inventory) (swapId1 w packet)
        (swapId2 w packet)).map fun (swapped, inventory) =>
          (if swapped then .ok else .error, { w with heap := w.heap.setStore p c inventory }) := by
  have hrequire : (require (swapIndex1 w packet ≠ swapIndex2 w packet) .error :
      Handling Key PUnit) w = some (.ok PUnit.unit, w) := by
    rw [decide_eq_true h.2]
    rfl
  rw [Stage.run, swap_reads h.1, bind_ok hrequire,
    bind_ok (currentStore_of hplaying.current hplaying.commander)]
  refine (congrArg _ (found_bind _ _ _)).trans ?_
  rcases inventorySwapItems env.actorGenKey (w.heap.store c.inventory) (swapId1 w packet)
    (swapId2 w packet) with _ | ⟨_ | _, inventory⟩
  · rfl
  · rfl
  · rfl

/-- The handler does what it should exactly where it asks the inventory for nothing, or for two
items that can be swapped. -/
theorem swaps_handled_iff {made : ItemHandle → Option ItemPtr} {added : List ItemPtr}
    (hplaying : Playing w p c)
    (hshuffled : Shuffled env.actorGenKey (w.heap.store c.inventory) made added)
    (hgen : Function.Injective env.actorGenKey) :
    SwapsHandled env w packet packetSize p c ↔ (AsksSwap w packet packetSize →
      Swappable env.actorGenKey (w.heap.store c.inventory) (swapId1 w packet)
        (swapId2 w packet)) := by
  have hstore : ∀ inventory : Store Key, (w.heap.setStore p c inventory).store
      ({ c with inventory := inventory.toInventory } : Commander Key).inventory = inventory :=
    fun _ => rfl
  have hcommander := setStore_commander hplaying.commander
  constructor
  · rintro ⟨state, w', hrun, -, hplaces, -⟩ hasks
    rw [swap_run_eq env hplaying hasks] at hrun
    obtain ⟨⟨swapped, inventory⟩, hswap, hend⟩ := Option.map_eq_some_iff.mp hrun
    obtain ⟨hstate, rfl⟩ := Prod.mk.inj hend
    refine hshuffled.swappable hgen hswap fun htrue => ?_
    obtain ⟨-, c', hc', hchange⟩ := hplaces (hstate.symm.trans (if_pos htrue))
    obtain rfl := Option.some.inj ((hcommander inventory).symm.trans hc')
    exact hchange
  · intro hswappable
    by_cases hasks : AsksSwap w packet packetSize
    · obtain ⟨swapped, inventory, hswap, hfails, hplaces, hback⟩ :=
        (hshuffled.swaps_iff hgen _ _).mpr (hswappable hasks)
      have hrun := swap_run_eq env hplaying hasks
      rw [hswap, Option.map_some] at hrun
      cases swapped with
      | false =>
        obtain rfl := hfails rfl
        dsimp only at hrun
        rw [setStore_store hplaying.commander] at hrun
        exact ⟨.error, w, hrun, fun _ => rfl, fun hok => (by cases hok), hrun⟩
      | true =>
        refine ⟨.ok, _, hrun, fun hne => absurd rfl hne,
          fun _ => ⟨rfl, _, hcommander inventory, hplaces rfl⟩, ?_⟩
        -- the same packet finds the commander with the new inventory
        have hplaying' : Playing { w with heap := w.heap.setStore p c inventory } p
            { c with inventory := inventory.toInventory } :=
          ⟨hplaying.current, hcommander inventory⟩
        have hasks' : AsksSwap { w with heap := w.heap.setStore p c inventory } packet
            packetSize := hasks
        refine (swap_run_eq env hplaying' hasks').trans ?_
        have hback' := (congrArg (fun s => inventorySwapItems env.actorGenKey s (swapId1 w packet)
          (swapId2 w packet)) (hstore inventory)).trans hback
        refine (congrArg _ hback').trans ?_
        have hheap : (w.heap.setStore p c inventory).setStore p
            { c with inventory := inventory.toInventory } (w.heap.store c.inventory) = w.heap := by
          rw [setStore_setStore, setStore_store hplaying.commander]
        simp only [Option.map_some, hheap, if_true]
    · have hrun := swap_run_rejected env hasks
      exact ⟨.error, w, hrun, fun _ => rfl, fun hok => (by cases hok), hrun⟩

end Run

/-- In every inventory that items have been added to, removed from and exchanged in, in any order and
without any being equipped, a swap of any two uids does what it should exactly where the items with
the uids are found, and the handler exactly where it does not ask for any other swap. -/
theorem swap_items_iff [DecidableEq Key] {actorGenKey : UInt64 → Key}
    (hgen : Function.Injective actorGenKey) {self : Ledger Key}
    (h : ReachableUnder (inventorySystem actorGenKey) (Steady actorGenKey) self) :
    (∀ actorId1 actorId2, Swaps actorGenKey self.toStore actorId1 actorId2 ↔
      Swappable actorGenKey self.toStore actorId1 actorId2) ∧
    ∀ (env : Env Key) (w : World Key) (packet packetSize : ℕ) (p : CommanderPtr)
      (c : Commander Key), env.actorGenKey = actorGenKey → Playing w p c →
      w.heap.store c.inventory = self.toStore →
      (SwapsHandled env w packet packetSize p c ↔ (AsksSwap w packet packetSize →
        Swappable actorGenKey self.toStore (swapId1 w packet) (swapId2 w packet))) := by
  obtain ⟨made, hshuffled⟩ := shuffled_of_reachable hgen h
  refine ⟨hshuffled.swaps_iff hgen, ?_⟩
  rintro env w packet packetSize p c rfl hplaying hstore
  rw [← hstore] at hshuffled ⊢
  exact swaps_handled_iff hplaying hshuffled hgen

/-! ### Consumables with the uids 1, 2 and 3 -/

theorem steady_add {self : Ledger UInt64} {item : ItemPtr}
    (h : ∀ j ∈ self.added, (self.item j).uid ≠ (self.item item).uid) :
    Steady id self (.addItem item) :=
  ⟨h, id⟩

theorem steady_swap {self : Ledger UInt64} {actorId1 actorId2 : UInt64}
    (h1 : self.items actorId1 ≠ none) (h2 : self.items actorId2 ≠ none) :
    Steady id self (.swapItems actorId1 actorId2) :=
  ⟨⟨h1, h2⟩, id⟩

theorem steady_start :
    ReachableUnder (inventorySystem id) (Steady id) (Ledger.start consumables : Ledger UInt64) :=
  .init ⟨consumables, rfl⟩

/-- Two items change places. -/
theorem swap_items_two : ∃ self, (inventorySystem id).run (Ledger.start consumables)
      [.addItem 0, .addItem 1] = some self ∧
    self.toStore.bagged .consumable = [0, 1] ∧ Swaps id self.toStore 1 2 := by
  have hguarded : (inventorySystem id).Guarded (Steady id) (Ledger.start consumables)
      [.addItem 0, .addItem 1] := by
    refine ⟨steady_add (by decide +kernel), fun s hs => ?_⟩
    cases hs
    exact ⟨steady_add (by decide +kernel), fun _ _ => trivial⟩
  have hreach := steady_start.run _ hguarded rfl
  refine ⟨_, rfl, by decide +kernel, ((swap_items_iff Function.injective_id hreach).1 1 2).mpr ?_⟩
  exact ⟨0, 1, by decide +kernel, by decide +kernel, .inr (.inr (.inl (by decide +kernel)))⟩

/-- The two uids behind different indexes. -/
def swapWorld (self : Store UInt64) (actorId1 actorId2 : UInt8) : World UInt64 :=
  { holdingWorld self 0 with
    memory := fun i => if i = 1 then actorId1 else if i = 13 then actorId2
      else if i = 21 then 1 else 0 }

/-- The null pointer found for a uid that the inventory does not hold is followed. After two
items have changed places, a third one changes places with the wrong one of them. -/
theorem swap_items_wrong :
    (¬ Swaps id stocked.toStore 1 2 ∧
      ¬ SwapsHandled deafEnv (swapWorld stocked.toStore 1 2) 0 25 0 (owner stocked.toStore)) ∧
    ∃ self, (inventorySystem id).run (Ledger.start consumables)
        [.addItem 0, .addItem 1, .addItem 2, .swapItems 1 2] = some self ∧
      self.toStore.bagged .consumable = [1, 0, 2] ∧ ¬ Swaps id self.toStore 1 3 := by
  refine ⟨⟨?_, ?_⟩, ?_⟩
  · rintro ⟨swapped, self', hrun, -⟩
    cases hrun
  · rintro ⟨state, w', hrun, -⟩
    have hplaying : Playing (swapWorld stocked.toStore 1 2) 0 (owner stocked.toStore) := ⟨rfl, rfl⟩
    have hasks : AsksSwap (swapWorld stocked.toStore 1 2) 0 25 :=
      ⟨by decide +kernel, by decide +kernel⟩
    have hnone : inventorySwapItems id stocked.toStore 1 2 = none := rfl
    have hids : swapId1 (swapWorld stocked.toStore 1 2) 0 = 1 ∧
      swapId2 (swapWorld stocked.toStore 1 2) 0 = 2 := ⟨by decide +kernel, by decide +kernel⟩
    rw [swap_run_eq deafEnv hplaying hasks, hids.1, hids.2] at hrun
    cases (congrArg _ hnone).symm.trans hrun
  · have hguarded : (inventorySystem id).Guarded (Steady id) (Ledger.start consumables)
        [.addItem 0, .addItem 1, .addItem 2, .swapItems 1 2] := by
      refine ⟨steady_add (by decide +kernel), fun s hs => ?_⟩
      cases hs
      refine ⟨steady_add (by decide +kernel), fun s hs => ?_⟩
      cases hs
      refine ⟨steady_add (by decide +kernel), fun s hs => ?_⟩
      cases hs
      exact ⟨steady_swap (by decide +kernel) (by decide +kernel), fun _ _ => trivial⟩
    have hreach := steady_start.run _ hguarded rfl
    obtain ⟨made, hshuffled⟩ := shuffled_of_reachable Function.injective_id hreach
    refine ⟨_, rfl, by decide +kernel, fun hswaps => ?_⟩
    obtain ⟨item1, item2, hitem1, hitem2, hcases⟩ :=
      (hshuffled.swaps_iff Function.injective_id 1 3).mp hswaps
    obtain rfl : 1 = item1 := Option.some.inj (Eq.trans (by decide +kernel) hitem1)
    obtain rfl : 2 = item2 := Option.some.inj (Eq.trans (by decide +kernel) hitem2)
    rcases hcases with hcategory | ⟨hids, -⟩ | ⟨huid, -⟩ | ⟨-, huid⟩
    · exact hcategory (by decide +kernel)
    · exact absurd hids (by decide)
    · exact absurd huid (by decide +kernel)
    · exact absurd huid (by decide +kernel)

end R1Emu.Handler
