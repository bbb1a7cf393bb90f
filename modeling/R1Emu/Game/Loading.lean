import R1Emu.Game.Database

/-!
# When the commanders of an account cannot be loaded

The array of commanders has five slots. Each commander is allocated in turn, and when one of
them cannot be, those before it are destroyed, over as many slots as there are commanders.
-/
namespace R1Emu.Game
open R1Emu.Actor R1Emu.Lib R1Emu.Lib.Stage R1Emu.Server
open R1Emu.Commander (ItemPtr eqSlotCount)

variable {Key : Type}

/-- The commanders of an account cannot be selected, or the memory runs out: for the array
when there are none of them, or for one of those that the array has a slot for. -/
def LoadFails (env : Env Key) (w : World Key) (accountId : UInt64) : Prop :=
  match env.selectCommanders w.writes accountId with
  | .error => True
  | .success none => False
  | .success (some rows) =>
    if env.allocates w.heap.attempts then
      rows.length ≤ 5 ∧ ∃ k < rows.length, env.allocates (w.heap.attempts + 1 + k) = false
    else rows = []

/-- Filling the slots fails when one of the allocations does. -/
theorem fillSlots_false {env : Env Key} {a : CommandersPtr} {slots : List (Option CommanderPtr)}
    {i count : ℕ} {w : World Key} {Q : Except PacketHandlerState Bool → World Key → Prop}
    (hslots : w.heap.arrays[a]? = some slots) (hlen : i + count ≤ slots.length)
    (hfails : ∃ k < count, env.allocates (w.heap.attempts + k) = false)
    (h : (fillSlots env (some a) i count).Sat w Q) :
    ∃ w' slots', w'.heap.arrays[a]? = some slots' ∧ slots'.length = slots.length ∧
      Q (.ok false) w' := by
  obtain ⟨k, hk, hfails⟩ := hfails
  induction count generalizing i k w slots with
  | zero => omega
  | succ count ih =>
    have ha := (List.getElem?_eq_some_iff.mp hslots).1
    cases hallocates : env.allocates w.heap.attempts with
    | false =>
      simp only [fillSlots, commanderNew, sat_bind, sat_allocate, hallocates, sat_ite, sat_pure,
        sat_setCommanderSlot, then_ok, hslots, Option.some.injEq, forall_eq', Bool.false_eq_true,
        false_implies, not_false_eq_true, true_implies, true_and, Option.isSome_none] at h
      exact ⟨_, slots.set i none, List.getElem?_set_self ha, List.length_set, h (by omega)⟩
    | true =>
      simp only [fillSlots, commanderNew, sat_bind, sat_allocate, hallocates, sat_ite, sat_pure,
        sat_onHeap, Heap.newCommander, sat_setCommanderSlot, then_ok, hslots, Option.some.injEq,
        forall_eq', false_implies, true_implies, not_true_eq_false, and_true,
        Option.isSome_some] at h
      cases k with
      | zero =>
        rw [Nat.add_zero, hallocates] at hfails
        cases hfails
      | succ k =>
        have hnext : env.allocates (w.heap.attempts + 1 + k) = false := by
          rwa [Nat.add_assoc, Nat.add_comm 1]
        obtain ⟨w', slots', hslots', hlen', hQ⟩ := ih (List.getElem?_set_self ha)
          (by rw [List.length_set]; omega) (h (by omega)) k (by omega) hnext
        exact ⟨w', slots', hslots', by rw [hlen', List.length_set], hQ⟩

/-- Destroying the slots comes to an end. -/
theorem destroySlots_ends {a : CommandersPtr} {slots : List (Option CommanderPtr)} {i count : ℕ}
    {w : World Key} {Q : Except PacketHandlerState Unit → World Key → Prop}
    (hslots : w.heap.arrays[a]? = some slots) (hlen : i + count ≤ slots.length)
    (h : (destroySlots (some a) i count).Sat w Q) : ∃ w', Q (.ok ()) w' := by
  induction count generalizing i w slots with
  | zero => exact ⟨w, (sat_pure _ _ _).mp h⟩
  | succ count ih =>
    have ha := (List.getElem?_eq_some_iff.mp hslots).1
    have hi : i < slots.length := by omega
    have hslot : w.heap.slot (some a) i = some slots[i] := by simp [Heap.slot, hslots, hi]
    simp only [destroySlots, destroySlot, sat_bind, sat_commanderSlot, then_ok] at h
    have hrest := h _ hslot
    cases hp : slots[i] with
    | none =>
      rw [hp, sat_pure] at hrest
      exact ih hslots (by omega) hrest
    | some p =>
      rw [hp] at hrest
      simp only [sat_bind, sat_setCommander, then_ok, sat_setCommanderSlot] at hrest
      exact ih (List.getElem?_set_self ha) (by rw [List.length_set]; omega)
        (hrest a rfl slots hslots hi)

/-- Conversely, when the slots are not filled an allocation has failed. -/
theorem fillSlots_sat (env : Env Key) {a : CommandersPtr} {slots : List (Option CommanderPtr)}
    (i count : ℕ) {w : World Key} (hslots : w.heap.arrays[a]? = some slots) :
    (fillSlots env (some a) i count).Sat w fun r w' =>
      (∃ slots', w'.heap.arrays[a]? = some slots' ∧ slots'.length = slots.length) ∧
        ∃ filled, r = .ok filled ∧
          (filled = false → ∃ k < count, env.allocates (w.heap.attempts + k) = false) := by
  induction count generalizing i w slots with
  | zero => simp [fillSlots, hslots]
  | succ count ih =>
    have ha := (List.getElem?_eq_some_iff.mp hslots).1
    cases hallocates : env.allocates w.heap.attempts with
    | false =>
      simp only [fillSlots, commanderNew, sat_bind, sat_allocate, hallocates, sat_ite, sat_pure,
        sat_setCommanderSlot, then_ok, hslots, Option.some.injEq, forall_eq', Bool.false_eq_true,
        false_implies, not_false_eq_true, true_implies, true_and, Option.isSome_none]
      exact fun _ => ⟨⟨slots.set i none, List.getElem?_set_self ha, List.length_set⟩, false, rfl,
        fun _ => ⟨0, by omega, hallocates⟩⟩
    | true =>
      simp only [fillSlots, commanderNew, sat_bind, sat_allocate, hallocates, sat_ite, sat_pure,
        sat_onHeap, Heap.newCommander, sat_setCommanderSlot, then_ok, hslots, Option.some.injEq,
        forall_eq', false_implies, true_implies, not_true_eq_false, and_true, Option.isSome_some]
      refine fun _ => (ih (i + 1) (List.getElem?_set_self ha)).mono ?_
      rintro r w' ⟨⟨slots', hslots', hlen'⟩, filled, rfl, hfilled⟩
      refine ⟨⟨slots', hslots', by rw [hlen', List.length_set]⟩, filled, rfl, fun hfalse => ?_⟩
      obtain ⟨k, hk, hfails⟩ := hfilled hfalse
      refine ⟨k + 1, by omega, ?_⟩
      rwa [← Nat.add_comm 1, ← Nat.add_assoc]

/-- And when destroying them comes to an end there were no more than the array has. -/
theorem destroySlots_sat {a : CommandersPtr} {slots : List (Option CommanderPtr)} (i count : ℕ)
    {w : World Key} (hslots : w.heap.arrays[a]? = some slots) :
    (destroySlots (some a) i count).Sat w fun r _ =>
      r = .ok () ∧ (0 < count → i + count ≤ slots.length) := by
  induction count generalizing i w slots with
  | zero => simp [destroySlots]
  | succ count ih =>
    have ha := (List.getElem?_eq_some_iff.mp hslots).1
    simp only [destroySlots, destroySlot, sat_bind, sat_commanderSlot, then_ok]
    intro slot hslot
    have hi : i < slots.length := by
      simp only [Heap.slot, Option.bind_some, hslots, Int.toNat_natCast] at hslot
      split at hslot
      · exact (List.getElem?_eq_some_iff.mp hslot).1
      · cases hslot
    cases slot with
    | none =>
      refine (sat_pure _ _ _).mpr ((ih (i + 1) hslots).mono ?_)
      rintro _ _ ⟨rfl, hlen⟩
      exact ⟨rfl, fun _ => by omega⟩
    | some p =>
      simp only [sat_bind, sat_setCommander, then_ok, sat_setCommanderSlot]
      rintro _ ⟨⟩ slots' hslots' _
      cases hslots.symm.trans hslots'
      refine (ih (i + 1) (List.getElem?_set_self ha)).mono ?_
      rintro _ _ ⟨rfl, hlen⟩
      rw [List.length_set] at hlen
      exact ⟨rfl, fun _ => by omega⟩

theorem stays_itemFactoryCreateEquipable (env : Env Key) (id amount : UInt32) (slot : UInt8) :
    Stays (itemFactoryCreateEquipable env id amount slot) := by
  have hcreate : Stays (itemFactoryCreate env id amount) := by
    unfold itemFactoryCreate
    cases itemFactoryGetCategoryFromId env.staticData id with
    | none => exact stays_pure _
    | some category =>
      refine (stays_act _).bind fun uid => (stays_act _).bind fun allocated =>
        .ite ?_ (stays_pure _)
      cases itemInit uid category id amount with
      | none => exact stays_pure _
      | some item => exact (stays_act _).bind fun _ => stays_pure _
  refine hcreate.bind fun item => ?_
  cases item with
  | none => exact stays_pure _
  | some item => exact (stays_act _).bind fun _ => stays_pure _

theorem stays_equipSlots {create : Fin eqSlotCount → Handling Key (Option ItemPtr)}
    (hcreate : ∀ slot, Stays (create slot)) (slots : List (Fin eqSlotCount))
    (equippedItems : UInt8 → Option ItemPtr) : Stays (equipSlots create slots equippedItems) := by
  induction slots generalizing equippedItems with
  | nil => exact stays_pure _
  | cons slot slots ih => exact (hcreate slot).bind fun item => ih _

theorem stays_mySqlGetCommanders (env : Env Key) (familyName : Chars 64)
    (commanders : Option CommandersPtr) (rows : List (UInt64 × CommanderRow)) (i : ℕ) :
    Stays (mySqlGetCommanders env familyName commanders rows i) := by
  induction rows generalizing i with
  | nil => exact stays_pure _
  | cons row rows ih =>
    have hslot : Stays (commanderSlot commanders i : Handling Key _) :=
      (stays_gets _).bind fun _ => (stays_found _).bind fun _ => .ite (stays_found _) stays_fault
    have hequip := stays_equipSlots (fun slot => stays_itemFactoryCreateEquipable env
      (row.2.eqSlots slot) 1 (UInt8.ofNat slot)) (List.finRange eqSlotCount) fun _ => none
    exact hslot.bind fun _ => (stays_found _).bind fun _ =>
      ((stays_gets _).bind fun _ => stays_found _).bind fun _ => hequip.bind fun _ =>
        (stays_act _).bind fun _ => ih (i + 1)

/-- The commanders fail to load only for the reasons given. -/
theorem mySqlLoadAccountCommanders_sat (env : Env Key) (accountSession : AccountSession)
    (accountId : UInt64) (w : World Key) :
    (mySqlLoadAccountCommanders env accountSession accountId).Sat w fun r _ =>
      ∃ loaded, r = .ok loaded ∧ (loaded = none → LoadFails env w accountId) := by
  simp only [mySqlLoadAccountCommanders, mySqlRequestCommandersByAccountId, sat_bind, sat_gets,
    then_ok, LoadFails]
  rcases env.selectCommanders w.writes accountId with _ | _ | rows
  · simp
  · simp
  · simp only [sat_pure, then_ok, sat_bind, accountSessionCommandersInit, sat_allocate]
    cases hallocates : env.allocates w.heap.attempts with
    | false => simp
    | true =>
      simp only [if_true, sat_bind, sat_onHeap, then_ok, Heap.newArray]
      refine (fillSlots_sat env 0 rows.length List.getElem?_concat_length).mono ?_
      rintro _ w' ⟨⟨slots, hslots, hlen⟩, filled, rfl, hfilled⟩
      cases filled with
      | true =>
        simp only [then_ok, if_true, sat_pure, sat_bind]
        refine (stays_mySqlGetCommanders env _ _ rows 0 w').mono ?_
        rintro _ _ ⟨_, rfl⟩
        simp
      | false =>
        simp only [then_ok, Bool.false_eq_true, if_false, sat_bind]
        refine (destroySlots_sat 0 rows.length hslots).mono ?_
        rintro _ _ ⟨rfl, hends⟩
        obtain ⟨k, hk, hfails⟩ := hfilled rfl
        rw [hlen, List.length_replicate, Nat.zero_add] at hends
        simpa using ⟨hends (by omega), k, hk, hfails⟩

/-- And for these reasons they do. -/
theorem mySqlLoadAccountCommanders_none {env : Env Key} {accountSession : AccountSession}
    {accountId : UInt64} {w : World Key} (hfails : LoadFails env w accountId)
    {Q : Except PacketHandlerState (Option (AccountSession × ℕ)) → World Key → Prop}
    (h : (mySqlLoadAccountCommanders env accountSession accountId).Sat w Q) :
    ∃ w', Q (.ok none) w' := by
  simp only [mySqlLoadAccountCommanders, mySqlRequestCommandersByAccountId, sat_bind, sat_gets,
    then_ok] at h
  unfold LoadFails at hfails
  rcases hsel : env.selectCommanders w.writes accountId with _ | _ | rows
  · rw [hsel] at h
    exact ⟨w, by simpa using h⟩
  · simp [hsel] at hfails
  · simp only [hsel, sat_pure, then_ok, sat_bind, accountSessionCommandersInit,
      sat_allocate] at h hfails
    cases hallocates : env.allocates w.heap.attempts with
    | false =>
      simp only [hallocates, Bool.false_eq_true, if_false] at h hfails
      subst hfails
      exact ⟨_, by simpa using h⟩
    | true =>
      simp only [hallocates, if_true, sat_bind, sat_onHeap, then_ok, Heap.newArray] at h hfails
      obtain ⟨hrows, hfails⟩ := hfails
      obtain ⟨w', slots, hslots, hlen, hrest⟩ := fillSlots_false List.getElem?_concat_length
        (by simpa using hrows) hfails h
      simp only [then_ok, Bool.false_eq_true, if_false, sat_bind] at hrest
      rw [List.length_replicate] at hlen
      obtain ⟨w'', hnone⟩ := destroySlots_ends hslots (by omega) hrest
      exact ⟨w'', by simpa using hnone⟩

/-! ### Loading that comes to an end -/

/-- The array has so many slots, the first of which have commanders. -/
def Filled (h : Heap Key) (a : CommandersPtr) (capacity n : ℕ) : Prop :=
  ∃ slots, h.arrays[a]? = some slots ∧ slots.length = capacity ∧
    ∀ j < n, ∃ p c, slots[j]? = some (some p) ∧ h.commander p = some c

theorem Filled.kept {h h' : Heap Key} {a : CommandersPtr} {capacity n : ℕ}
    (hfilled : Filled h a capacity n) (hk : h.Kept h') : Filled h' a capacity n := by
  obtain ⟨slots, hslots, hlength, hcommanders⟩ := hfilled
  obtain ⟨rest, hrest⟩ := hk.arrays
  refine ⟨slots, ?_, hlength, fun j hj => ?_⟩
  · rw [← hrest, List.getElem?_append_left (List.getElem?_eq_some_iff.mp hslots).1, hslots]
  · obtain ⟨p, c, hp, hc⟩ := hcommanders j hj
    exact ⟨p, c, hp, hk.commander_eq hc⟩

theorem setCommanderSlot_run {w : World Key} {a : CommandersPtr}
    {slots : List (Option CommanderPtr)} (hslots : w.heap.arrays[a]? = some slots) {i : ℕ}
    (hi : i < slots.length) (p : Option CommanderPtr) :
    setCommanderSlot (some a) i p w =
      some (.ok (), { w with heap := w.heap.setArray a (slots.set i p) }) := by
  have hfound : (found w.heap.arrays[a]? : Handling Key _) w = some (.ok slots, w) := by
    rw [hslots]
    rfl
  rw [setCommanderSlot, bind_ok rfl, bind_ok rfl, bind_ok hfound, if_pos hi]
  rfl

theorem commanderSlot_run {w : World Key} {commanders : Option CommandersPtr} {i : Int}
    {slot : Option CommanderPtr} (hslot : w.heap.slot commanders i = some slot) :
    commanderSlot commanders i w = some (.ok slot, w) := by
  rw [Heap.slot] at hslot
  split at hslot
  case isFalse => cases hslot
  case isTrue hi =>
    obtain ⟨slots, hslots, hget⟩ := Option.bind_eq_some_iff.mp hslot
    have hfound : (found (commanders.bind (w.heap.arrays[·]?)) : Handling Key _) w =
        some (.ok slots, w) := by
      rw [hslots]
      rfl
    rw [commanderSlot, bind_ok rfl, bind_ok hfound, if_pos hi, hget]
    rfl

theorem Filled.of_eq {h : Heap Key} {a : CommandersPtr} {capacity n m : ℕ}
    (hfilled : Filled h a capacity n) (hm : n = m) : Filled h a capacity m := hm ▸ hfilled

theorem Filled.slot {h : Heap Key} {a : CommandersPtr} {capacity n : ℕ}
    (hfilled : Filled h a capacity n) {i : ℕ} (hi : i < n) :
    ∃ p c, h.slot (some a) i = some (some p) ∧ h.commander p = some c := by
  obtain ⟨slots, hslots, -, hcommanders⟩ := hfilled
  obtain ⟨p, c, hp, hc⟩ := hcommanders i hi
  exact ⟨p, c, by simp [Heap.slot, hslots, hp], hc⟩

/-- The heap when memory has been asked for once more. -/
def asked (w : World Key) : World Key :=
  { w with heap := { w.heap with attempts := w.heap.attempts + 1 } }

theorem allocate_run (env : Env Key) (w : World Key) :
    allocate env w = some (.ok (env.allocates w.heap.attempts), asked w) := rfl

theorem commanderNew_none {env : Env Key} {w : World Key}
    (h : env.allocates w.heap.attempts = false) :
    commanderNew env w = some (.ok none, asked w) := by
  rw [commanderNew, bind_ok (allocate_run env w), h]
  rfl

theorem commanderNew_some {env : Env Key} {w : World Key}
    (h : env.allocates w.heap.attempts = true) :
    commanderNew env w = some (.ok (some w.heap.commanders.length),
      { asked w with heap := ((asked w).heap.newCommander commanderInit).2 }) := by
  rw [commanderNew, bind_ok (allocate_run env w), h]
  rfl

/-- Filling slots of the array comes to an end, with a commander in each of them or without. -/
theorem fillSlots_ends (env : Env Key) {a : CommandersPtr} {capacity i count : ℕ} {w : World Key}
    (hfilled : Filled w.heap a capacity i) (hroom : i + count ≤ capacity) :
    (fillSlots env (some a) i count).Ends w fun r w' => ∃ filled, r = .ok filled ∧
      Filled w'.heap a capacity (if filled then i + count else 0) := by
  induction count generalizing i w with
  | zero => exact ends_pure _ ⟨true, rfl, hfilled⟩
  | succ count ih =>
    obtain ⟨slots, hslots, hlength, hcommanders⟩ := hfilled
    have ha := (List.getElem?_eq_some_iff.mp hslots).1
    have hi : i < slots.length := by omega
    cases hallocates : env.allocates w.heap.attempts with
    | false =>
      have hset := @setCommanderSlot_run Key (asked w) a slots hslots i hi none
      refine ⟨.ok false,
        { asked w with heap := (asked w).heap.setArray a (slots.set i none) }, ?_, false, rfl,
        slots.set i none, List.getElem?_set_self ha, List.length_set.trans hlength,
        fun j hj => absurd hj (Nat.not_lt_zero j)⟩
      rw [fillSlots, bind_ok (commanderNew_none hallocates), bind_ok hset]
      rfl
    | true =>
      have hset := @setCommanderSlot_run Key
        { asked w with heap := ((asked w).heap.newCommander commanderInit).2 } a slots hslots i hi
          (some w.heap.commanders.length)
      have hnext : Filled
          ((((asked w).heap.newCommander commanderInit).2.setArray a
            (slots.set i (some w.heap.commanders.length))) : Heap Key) a capacity (i + 1) := by
        refine ⟨_, List.getElem?_set_self ha, List.length_set.trans hlength, fun j hj => ?_⟩
        by_cases hij : i = j
        · refine ⟨w.heap.commanders.length, commanderInit, hij ▸ List.getElem?_set_self hi, ?_⟩
          simp [Heap.commander, Heap.setArray, Heap.newCommander, asked]
        · obtain ⟨p, c, hp, hc⟩ := hcommanders j (by omega)
          exact ⟨p, c, (List.getElem?_set_ne hij).trans hp,
            (w.heap.kept_newCommander commanderInit).commander_eq hc⟩
      obtain ⟨r, w', hrun, filled, rfl, hfilled'⟩ := @ih (i + 1)
        { asked w with
          heap := (((asked w).heap.newCommander commanderInit).2.setArray a
            (slots.set i (some w.heap.commanders.length))) } hnext (by omega)
      refine ⟨.ok filled, w', ?_, filled, rfl, ?_⟩
      · rw [fillSlots, bind_ok (commanderNew_some hallocates), bind_ok hset]
        exact hrun
      · rw [Nat.add_right_comm, Nat.add_assoc] at hfilled'
        exact hfilled'

theorem total_itemFactoryCreate (env : Env Key) (id amount : UInt32) :
    Total (itemFactoryCreate env id amount) := by
  unfold itemFactoryCreate
  cases itemFactoryGetCategoryFromId env.staticData id with
  | none => exact total_pure _
  | some category =>
    refine (total_act _).bind fun uid => (total_act _).bind fun allocated => .ite ?_ (total_pure _)
    cases itemInit uid category id amount with
    | none => exact total_pure _
    | some item => exact (total_act _).bind fun _ => total_pure _

theorem total_itemFactoryCreateEquipable (env : Env Key) (id amount : UInt32) (slot : UInt8) :
    Total (itemFactoryCreateEquipable env id amount slot) := by
  refine (total_itemFactoryCreate env id amount).bind fun item => ?_
  cases item with
  | none => exact total_pure _
  | some item => exact (total_act _).bind fun _ => total_pure _

theorem total_equipSlots {create : Fin eqSlotCount → Handling Key (Option ItemPtr)}
    (hcreate : ∀ slot, Total (create slot)) (slots : List (Fin eqSlotCount))
    (equippedItems : UInt8 → Option ItemPtr) : Total (equipSlots create slots equippedItems) := by
  induction slots generalizing equippedItems with
  | nil => exact total_pure _
  | cons slot slots ih => exact (hcreate slot).bind fun item => ih _

theorem setCommander_filled {h : Heap Key} {a : CommandersPtr} {capacity n : ℕ}
    (hfilled : Filled h a capacity n) (p : CommanderPtr) (c : Commander Key) :
    Filled (h.setCommander p (some c)) a capacity n := by
  obtain ⟨slots, hslots, hlength, hcommanders⟩ := hfilled
  refine ⟨slots, hslots, hlength, fun j hj => ?_⟩
  obtain ⟨q, d, hq, hd⟩ := hcommanders j hj
  have hlt : q < h.commanders.length :=
    (List.getElem?_eq_some_iff.mp (Option.join_eq_some_iff.mp hd)).1
  by_cases hpq : p = q
  · subst hpq
    exact ⟨p, c, hq, by rw [Heap.commander, Heap.setCommander, List.getElem?_set_self hlt]; rfl⟩
  · refine ⟨q, d, hq, ?_⟩
    rw [Heap.commander, Heap.setCommander, List.getElem?_set_ne hpq]
    exact hd

/-- The commanders in the slots are loaded. -/
theorem mySqlGetCommanders_ends (env : Env Key) (familyName : Chars 64) {a : CommandersPtr}
    {capacity i : ℕ} (rows : List (UInt64 × CommanderRow)) {w : World Key}
    (hfilled : Filled w.heap a capacity (i + rows.length)) :
    mySqlGetCommanders env familyName (some a) rows i w ≠ none := by
  induction rows generalizing i w with
  | nil => exact Option.some_ne_none _
  | cons row rows ih =>
    obtain ⟨p, c, hslot, hc⟩ := hfilled.slot (show i < i + (row :: rows).length by simp)
    have hat : commanderAt (some p) w = some (.ok c, w) := by
      rw [commanderAt, bind_ok rfl, Option.bind_some, hc]
      rfl
    have hequip := total_equipSlots (fun slot => total_itemFactoryCreateEquipable env
      (row.2.eqSlots slot) 1 (UInt8.ofNat slot)) (List.finRange eqSlotCount) fun _ => none
    have hkeeps : Preserves (World.Untouched w) (equipSlots (fun slot =>
        itemFactoryCreateEquipable env (row.2.eqSlots slot) 1 (UInt8.ofNat slot))
          (List.finRange eqSlotCount) fun _ => none) :=
      preserves_equipSlots (fun _ => preserves_itemFactoryCreateEquipable env _ 1 _) _ _
    have hstays := stays_equipSlots (fun slot => stays_itemFactoryCreateEquipable env
      (row.2.eqSlots slot) 1 (UInt8.ofNat slot)) (List.finRange eqSlotCount) fun _ => none
    obtain ⟨r, w₁, hrun, hw₁⟩ := hequip.ends (hkeeps w (.refl w))
    obtain ⟨equippedItems, rfl⟩ := hstays w r w₁ hrun
    rw [mySqlGetCommanders, bind_ok (commanderSlot_run hslot), bind_ok rfl, bind_ok hat,
      bind_ok hrun, bind_ok rfl]
    refine ih (setCommander_filled (hfilled.kept hw₁.heap) p _ |>.of_eq ?_)
    rw [List.length_cons]
    omega

/-- The array is allocated, and filled or given up. -/
theorem accountSessionCommandersInit_ends (env : Env Key) (accountSession : AccountSession)
    {commandersCountMax commandersCount : ℕ} {w : World Key}
    (hcount : commandersCount = 0 ∨
      env.allocates w.heap.attempts = true ∧ commandersCount ≤ commandersCountMax) :
    (accountSessionCommandersInit env accountSession commandersCountMax commandersCount).Ends w
      fun r w' => ∃ loaded, r = .ok loaded ∧ ∀ s, loaded = some s →
        ∃ a, s.commanders = some a ∧ Filled w'.heap a commandersCountMax commandersCount := by
  cases hallocates : env.allocates w.heap.attempts with
  | false =>
    rw [hallocates] at hcount
    obtain rfl : commandersCount = 0 := hcount.resolve_right fun h => Bool.false_ne_true h.1
    refine ⟨.ok none, asked w, ?_, none, rfl, fun s hs => by cases hs⟩
    rw [accountSessionCommandersInit, bind_ok (allocate_run env w), hallocates]
    rfl
  | true =>
    have hroom : commandersCount ≤ commandersCountMax := by
      rcases hcount with rfl | ⟨-, hle⟩
      · exact Nat.zero_le _
      · exact hle
    have hfresh : Filled ((asked w).heap.newArray (List.replicate commandersCountMax none)).2
        (asked w).heap.arrays.length commandersCountMax 0 :=
      ⟨List.replicate commandersCountMax none, List.getElem?_concat_length,
        List.length_replicate, fun j hj => absurd hj (Nat.not_lt_zero j)⟩
    obtain ⟨_, w', hrun, filled, rfl, hfilled⟩ := @fillSlots_ends Key env
      (asked w).heap.arrays.length commandersCountMax 0 commandersCount
      { asked w with heap := ((asked w).heap.newArray (List.replicate commandersCountMax none)).2 }
      hfresh (by omega)
    have hnew : (onHeap (·.newArray (List.replicate commandersCountMax none)) :
        Handling Key CommandersPtr) (asked w) = some (.ok (asked w).heap.arrays.length,
      { asked w with
        heap := ((asked w).heap.newArray (List.replicate commandersCountMax none)).2 }) := rfl
    cases filled with
    | true =>
      refine ⟨.ok (some { accountSession with commanders := some (asked w).heap.arrays.length }),
        w', ?_, _, rfl, ?_⟩
      · rw [accountSessionCommandersInit, bind_ok (allocate_run env w), hallocates, if_pos rfl,
          bind_ok hnew, bind_ok hrun]
        rfl
      · rintro s hs
        cases hs
        exact ⟨_, rfl, hfilled.of_eq (Nat.zero_add _)⟩
    | false =>
      obtain ⟨slots, hslots, hlength, -⟩ := hfilled
      obtain ⟨w'', hdestroyed⟩ := destroySlots_ends hslots
        (show 0 + commandersCount ≤ slots.length by omega)
        (fun r w'' (h : destroySlots (some (asked w).heap.arrays.length) 0 commandersCount w' =
          some (r, w'')) => h)
      refine ⟨.ok none, w'', ?_, none, rfl, fun s hs => by cases hs⟩
      rw [accountSessionCommandersInit, bind_ok (allocate_run env w), hallocates, if_pos rfl,
        bind_ok hnew, bind_ok hrun]
      exact bind_ok hdestroyed _

/-- With at most five commanders, and memory for the array if there are any, loading ends. -/
theorem mySqlLoadAccountCommanders_ends {env : Env Key} (accountSession : AccountSession)
    {accountId : UInt64} {w : World Key} {rows : List (UInt64 × CommanderRow)}
    (hselect : env.selectCommanders w.writes accountId = .success (some rows))
    (hrows : rows = [] ∨ env.allocates w.heap.attempts = true ∧ rows.length ≤ 5) :
    mySqlLoadAccountCommanders env accountSession accountId w ≠ none := by
  have hrequest : mySqlRequestCommandersByAccountId env accountId w =
      some (.ok (some rows), w) := by
    rw [mySqlRequestCommandersByAccountId, bind_ok rfl, hselect]
    rfl
  obtain ⟨_, w', hrun, loaded, rfl, hloaded⟩ := accountSessionCommandersInit_ends env
    { accountSession with commandersCountMax := 5 } (hrows.imp_left List.length_eq_zero_iff.mpr)
  rw [mySqlLoadAccountCommanders, bind_ok hrequest]
  dsimp only
  cases loaded with
  | none =>
    rw [bind_ok hrun]
    exact Option.some_ne_none _
  | some loaded =>
    obtain ⟨a, ha, hfilled⟩ := hloaded loaded rfl
    rw [bind_ok hrun]
    dsimp only
    rw [ha]
    have hends := mySqlGetCommanders_ends env loaded.familyName rows
      (hfilled.of_eq (Nat.zero_add _).symm)
    rcases hget : mySqlGetCommanders env loaded.familyName (some a) rows 0 w' with
      _ | ⟨_ | _, w''⟩
    · exact absurd hget hends
    · rw [bind_error hget]
      exact Option.some_ne_none _
    · rw [bind_ok hget]
      exact Option.some_ne_none _

end R1Emu.Game
