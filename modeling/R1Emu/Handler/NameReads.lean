import R1Emu.Handler.NameBounds

/-!
# What is read of the names

A handler that is given a name depends on the structure of its packet and on what it scans of the
name. Other memory makes no difference to it, so that a handler whose scans are in the payload
does the same whatever lies behind the payload.
-/
namespace R1Emu.Handler
open R1Emu.Actor R1Emu.Game R1Emu.Lib R1Emu.Lib.Stage R1Emu.Lib.Bytes R1Emu.Server
open R1Emu.Packet hiding bind_ok bind_error
open R1Emu.Commander (ItemPtr eqSlotCount)

variable {Key : Type}

/-- The world with another memory. -/
def withMemory (memory : Memory) (w : World Key) : World Key := { w with memory }

/-! ### What reads no memory -/

section Ignores
variable {memory : Memory} (env : Env Key)

theorem ignores_pure {α : Type} (a : α) :
    Ignores (withMemory memory) (pure a : Handling Key α) := fun _ => commutes_pure a

theorem ignores_fault {α : Type} : Ignores (withMemory memory) (fault : Handling Key α) :=
  fun _ => commutes_fault

theorem ignores_found {α : Type} (a : Option α) :
    Ignores (withMemory memory) (found a : Handling Key α) := fun _ => commutes_found a

theorem ignores_heap :
    Ignores (withMemory memory) (gets (·.heap) : Handling Key (Heap Key)) :=
  ignores_gets fun _ => rfl

theorem ignores_writes :
    Ignores (withMemory memory) (gets (·.writes) : Handling Key (List Write)) :=
  ignores_gets fun _ => rfl

theorem ignores_send (r : Reply Key) : Ignores (withMemory memory) (send r) :=
  ignores_act fun _ => rfl

theorem ignores_updateSession (f : Session → Session) :
    Ignores (withMemory memory) (updateSession f : Handling Key Unit) :=
  ignores_act fun _ => rfl

theorem ignores_onHeap {α : Type} (f : Heap Key → α × Heap Key) :
    Ignores (withMemory memory) (onHeap f) :=
  ignores_act fun _ => rfl

theorem ignores_perform (write : Write) : Ignores (withMemory memory) (perform env write) := by
  apply ignores_act
  intro w
  have hwritten : (withMemory memory w).written env write =
      withMemory memory (w.written env write) := by
    rw [World.written, World.written, apply_ite (withMemory memory)]
    rfl
  rw [hwritten]
  rfl

theorem ignores_r1emuGenerateRandom : Ignores (withMemory memory) (@r1emuGenerateRandom Key) :=
  ignores_act fun _ => rfl

theorem ignores_r1emuGenerateRandom64 :
    Ignores (withMemory memory) (@r1emuGenerateRandom64 Key) :=
  ignores_r1emuGenerateRandom.bind fun _ => ignores_r1emuGenerateRandom.bind fun _ =>
    ignores_pure _

theorem ignores_commanderSlot (commanders : Option CommandersPtr) (i : Int) :
    Ignores (withMemory memory) (commanderSlot commanders i : Handling Key _) :=
  ignores_heap.bind fun _ => (ignores_found _).bind fun _ =>
    .ite (ignores_found _) ignores_fault

theorem ignores_setCommanderSlot (commanders : Option CommandersPtr) (i : ℕ)
    (p : Option CommanderPtr) :
    Ignores (withMemory memory) (setCommanderSlot commanders i p : Handling Key Unit) :=
  (ignores_found _).bind fun _ => ignores_heap.bind fun _ =>
    (ignores_found _).bind fun _ => .ite (ignores_onHeap _) ignores_fault

theorem ignores_isCommanderSlotEmpty (accountSession : AccountSession) (i : Int) :
    Ignores (withMemory memory)
      (accountSessionIsCommanderSlotEmpty accountSession i : Handling Key Bool) :=
  .ite (ignores_pure _) ((ignores_commanderSlot _ _).bind fun _ => ignores_pure _)

theorem ignores_commanderDup (c : Commander Key) :
    Ignores (withMemory memory) (commanderDup env (pure c)) :=
  (ignores_onHeap _).bind fun _ => .ite
    ((ignores_pure c).bind fun _ => (ignores_onHeap _).bind fun _ => ignores_pure _)
    (ignores_pure _)

theorem ignores_itemFactoryCreate (id amount : UInt32) :
    Ignores (withMemory memory) (itemFactoryCreate env id amount) := by
  rw [itemFactoryCreate]
  cases itemFactoryGetCategoryFromId env.staticData id with
  | none => exact ignores_pure _
  | some category =>
    apply (ignores_onHeap _).bind
    intro uid
    apply (ignores_onHeap _).bind
    intro allocated
    apply Ignores.ite
    · cases itemInit uid category id amount with
      | none => exact ignores_pure _
      | some item => exact (ignores_onHeap _).bind fun _ => ignores_pure _
    · exact ignores_pure _

theorem ignores_createDefaultItem (slot : Fin eqSlotCount) :
    Ignores (withMemory memory) (createDefaultItem env slot) :=
  (ignores_itemFactoryCreate env _ 1).bind fun _ => (ignores_found _).bind fun _ =>
    (ignores_onHeap _).bind fun _ => ignores_pure _

theorem ignores_equipSlots {create : Fin eqSlotCount → Handling Key (Option ItemPtr)}
    (hcreate : ∀ slot, Ignores (withMemory memory) (create slot))
    (slots : List (Fin eqSlotCount)) (equippedItems : UInt8 → Option ItemPtr) :
    Ignores (withMemory memory) (equipSlots create slots equippedItems) := by
  induction slots generalizing equippedItems with
  | nil => exact ignores_pure _
  | cons slot slots ih => exact (hcreate slot).bind fun _ => ih _

theorem ignores_mySqlGetAccountData (accountName password : List UInt8)
    (accountSession : AccountSession) : Ignores (withMemory memory)
      (mySqlGetAccountData env accountName password accountSession) := by
  apply ignores_writes.bind
  intro writes
  rcases env.selectAccount writes accountName password with _ | _ | _ | ⟨row, rows⟩
  · exact ignores_pure _
  · exact ignores_fault
  · exact ignores_pure _
  · exact ignores_pure _

theorem ignores_mySqlSetFamilyName (accountId : UInt64) (familyName : List UInt8) :
    Ignores (withMemory memory) (mySqlSetFamilyName env accountId familyName) := by
  apply (ignores_perform env _).bind
  intro answer
  apply Ignores.ite
  · apply ignores_writes.bind
    intro writes
    rcases env.selectFlag writes with _ | _ | _ | ⟨flag, flags⟩
    · exact ignores_pure _
    · exact ignores_fault
    · exact ignores_pure _
    · exact ignores_pure _
  · exact ignores_pure _

theorem ignores_mySqlCommanderInsert (c : Commander Key) :
    Ignores (withMemory memory) (mySqlCommanderInsert env c) :=
  ignores_heap.bind fun _ => (ignores_found _).bind fun _ =>
    (ignores_perform env _).bind fun _ => ignores_pure _

end Ignores

/-! ### What is read -/

/-- The memory is the world's on so many bytes from an address on. -/
def AgreesOn (memory : Memory) (w : World Key) (off len : ℕ) : Prop :=
  ∀ i < len, memory (off + i) = w.memory (off + i)

section Reads
variable {memory : Memory} {w : World Key} {off len : ℕ}

theorem AgreesOn.read (h : AgreesOn memory w off len) :
    memory.read off len = w.memory.read off len :=
  List.map_congr_left fun i hi => h i (List.mem_range.mp hi)

theorem AgreesOn.sub (h : AgreesOn memory w off len) {i n : ℕ} (hn : i + n ≤ len) :
    AgreesOn memory w (off + i) n := by
  intro j hj
  rw [Nat.add_assoc]
  exact h (i + j) (by omega)

theorem AgreesOn.byte (h : AgreesOn memory w off len) {i : ℕ} (hi : i < len) :
    memory (off + i) = w.memory (off + i) := h i hi

theorem stringFrom_congr {m m' : Memory} {fuel p : ℕ}
    (h : ∀ i ≤ (stringFrom m fuel p).length, m' (p + i) = m (p + i)) :
    stringFrom m' fuel p = stringFrom m fuel p := by
  induction fuel generalizing p with
  | zero => rfl
  | succ fuel ih =>
    have hp : m' p = m p := h 0 (Nat.zero_le _)
    rw [stringFrom] at h
    rw [stringFrom, stringFrom, hp]
    split
    · rfl
    · next hne =>
      rw [if_neg hne, List.length_cons] at h
      rw [ih fun i hi => ?_]
      have hnext := h (i + 1) (Nat.succ_le_succ hi)
      rwa [Nat.add_comm i 1, ← Nat.add_assoc] at hnext

theorem AgreesOn.string
    (h : AgreesOn memory w off ((stringFrom w.memory (2 ^ 64) off).length + 1)) :
    stringFrom memory (2 ^ 64) off = stringFrom w.memory (2 ^ 64) off :=
  stringFrom_congr fun i hi => h i (Nat.lt_succ_of_le hi)

end Reads

/-! ### The handlers -/

/-- The memory has the structure as the world has it, and of the name what is scanned of it. -/
structure Rereads (memory : Memory) (w : World Key) (packet : ℕ) (handler : NameHandler) :
    Prop where
  overlaid : AgreesOn memory w packet handler.structSize
  scanned : handler.ReadsName w packet → ∀ scan ∈ handler.scans (handler.name w packet).length,
    AgreesOn memory w (packet + scan.1) scan.2

section Handlers
variable {memory : Memory} {w : World Key} {packet : ℕ} (env : Env Key) (packetSize : ℕ)

theorem login_commutes (h : Rereads memory w packet .login) :
    Commutes (withMemory memory) (barrackHandlerLogin env packet packetSize) w := by
  have hname : stringFrom memory (2 ^ 64) packet = stringFrom w.memory (2 ^ 64) packet :=
    (h.scanned trivial _ List.mem_cons_self).string
  have hpassword : memory.read (packet + 33) 16 = w.memory.read (packet + 33) 16 :=
    (h.overlaid.sub (i := 33) (n := 16) (by decide)).read
  rw [barrackHandlerLogin]
  apply commutes_require_bind
  apply commutes_gets_bind hname
  apply commutes_gets_bind hpassword
  refine (ignores_mySqlGetAccountData env _ _ _).bind ?_ w
  rintro (_ | ⟨_ | _, accountSession⟩)
  · exact ignores_pure _
  · exact (ignores_send _).bind fun _ => ignores_pure _
  · apply Ignores.ite
    · exact (ignores_send _).bind fun _ => ignores_pure _
    · exact (ignores_updateSession _).bind fun _ => (ignores_send _).bind fun _ => ignores_pure _

theorem changeBarrackName_commutes (h : Rereads memory w packet .barrackNameChange) :
    Commutes (withMemory memory) (changeBarrackName env packet) w := by
  have hname : stringFrom memory (2 ^ 64) packet = stringFrom w.memory (2 ^ 64) packet :=
    (h.scanned trivial _ List.mem_cons_self).string
  have harray : memory.read packet 64 = w.memory.read packet 64 := h.overlaid.read
  rw [changeBarrackName]
  apply commutes_gets_bind hname
  apply Commutes.ite (fun _ => commutes_pure _)
  intro _
  apply Commutes.ite (fun _ => commutes_pure _)
  intro _
  apply commutes_gets_bind rfl
  apply commutes_gets_bind harray
  apply Commutes.ite (fun _ => commutes_pure _)
  intro _
  refine (ignores_mySqlSetFamilyName env _ _).bind (fun answer => ?_) w
  apply Ignores.ite (ignores_pure _)
  exact (ignores_updateSession _).bind fun _ => ignores_pure _

theorem barrackNameChange_commutes (h : Rereads memory w packet .barrackNameChange) :
    Commutes (withMemory memory) (barrackHandlerBarrackNameChange env packet packetSize) w := by
  rw [barrackHandlerBarrackNameChange]
  apply commutes_require_bind
  apply (changeBarrackName_commutes env h).bind
  rintro ⟨changeStatus, state⟩ w' -
  apply commutes_gets_bind rfl
  exact (ignores_send _).bind (fun _ => .ite (ignores_pure _) (ignores_pure _)) w'

theorem newCommander_commutes (hfields : AgreesOn memory w packet 82)
    (hname : stringFrom memory (2 ^ 64) (packet + 1) = stringFrom w.memory (2 ^ 64) (packet + 1)) :
    Commutes (withMemory memory) (newCommander env packet) w := by
  have hjob : UInt16.ofNat (leValue (memory.read (packet + 66) 2)) =
      UInt16.ofNat (leValue (w.memory.read (packet + 66) 2)) := by
    rw [(hfields.sub (i := 66) (n := 2) (by decide)).read]
  rw [newCommander]
  apply commutes_gets_bind rfl
  apply commutes_gets_bind hname
  apply commutes_gets_bind hjob
  apply commutes_gets_bind (hfields.byte (i := 68) (by decide))
  apply commutes_gets_bind (hfields.byte (i := 81) (by decide))
  apply Commutes.ite (fun _ => commutes_pure _)
  intro _
  apply Commutes.ite (fun _ => commutes_pure _)
  intro _
  cases commanderClass (UInt16.ofNat (leValue (w.memory.read (packet + 66) 2))) with
  | none => exact commutes_pure _
  | some classId =>
    apply Commutes.ite (fun _ => commutes_pure _)
    intro _
    exact ignores_r1emuGenerateRandom.bind (fun _ => ignores_r1emuGenerateRandom64.bind fun _ =>
      (ignores_equipSlots (ignores_createDefaultItem env) _ _).bind fun _ => ignores_pure _) w

theorem commanderCreate_commutes (h : Rereads memory w packet .commanderCreate) :
    Commutes (withMemory memory) (barrackHandlerCommanderCreate env packet packetSize) w := by
  have hindex : memory packet = w.memory packet := h.overlaid 0 (by decide)
  rw [barrackHandlerCommanderCreate]
  apply commutes_require_bind
  apply commutes_gets_bind hindex
  apply commutes_gets_bind rfl
  refine (ignores_isCommanderSlotEmpty _ _ w).bind fun empty w' hempty => ?_
  obtain ⟨rfl, -⟩ := slotEmpty_sat w _ _ _ _ hempty
  cases empty with
  | false => rfl
  | true =>
    apply commutes_require_bind
    apply (newCommander_commutes env h.overlaid
      (h.scanned hempty _ List.mem_cons_self).string).bind
    rintro (msgType | commander) w'' -
    · exact (ignores_send _).bind (fun _ => ignores_pure _) w''
    · refine (ignores_mySqlCommanderInsert env _).bind (fun inserted => ?_) w''
      cases inserted with
      | none => exact ignores_pure _
      | some commanderId =>
        apply (ignores_commanderDup env _).bind
        rintro (_ | dupCommander)
        · exact ignores_pure _
        · exact (ignores_setCommanderSlot _ _ _).bind fun _ => (ignores_send _).bind fun _ =>
            ignores_pure _

/-- Behind another memory that is the same where the structure and the scans are, a handler does
what it does in the world's own. -/
theorem NameHandler.handler_commutes (handler : NameHandler) (h : Rereads memory w packet handler) :
    Commutes (withMemory memory) (handler.handler env packet packetSize) w := by
  cases handler with
  | login => exact login_commutes env packetSize h
  | barrackNameChange => exact barrackNameChange_commutes env packetSize h
  | commanderCreate => exact commanderCreate_commutes env packetSize h

/-- Where the scans are in the payload, what lies behind the payload makes no difference. -/
theorem NamesBounded.commutes {handler : NameHandler} (hsize : handler.Fitting packetSize)
    (hbounded : NamesBounded env w packet packetSize handler)
    (hpayload : AgreesOn memory w packet packetSize) :
    Commutes (withMemory memory) (handler.handler env packet packetSize) w := by
  apply handler.handler_commutes env packetSize
  constructor
  · intro i hi
    exact hpayload i (hi.trans_le hsize.bounds.1)
  · intro hreads scan hscan
    exact hpayload.sub (hbounded.scanned hreads scan hscan)

end Handlers

end R1Emu.Handler
