import R1Emu.Game.World
import R1Emu.Packet.PacketType

/-!
# What handlers are made of

The ways in which a handler reads its packet, allocates, follows the session's pointers,
writes to the databases and answers. A world is intact when the session is as it was, with
everything it may point to, and nothing has been written to a database.
-/
namespace R1Emu.Game
open R1Emu.Actor R1Emu.Lib R1Emu.Lib.Stage R1Emu.Lib.Bytes R1Emu.Packet R1Emu.Server
open R1Emu.Commander (Inventory ItemPtr Store eqSlotCount)

variable {Key : Type}

/-! ### The packet -/

/-- The structure overlaid on the packet has the size of its type, where that is fixed, and
the packet fills it with less than one block to spare. -/
def checkClientPacketSize (typeSize structSize packetSize : ℕ) : Bool :=
  (typeSize = 0 || structSize = sizeSub typeSize (clientHeaderSize true)) &&
    packetSize ≤ (structSize + 8) % 2 ^ 64 && structSize ≤ packetSize

/-- `CHECK_CLIENT_PACKET_SIZE`. -/
def checkSize (type : PacketType) (structSize packetSize : ℕ) : Handling Key Unit :=
  require (checkClientPacketSize type.size structSize packetSize) .error

def readBytes (off len : ℕ) : Handling Key (List UInt8) := gets fun w => w.memory.read off len

def readU8 (off : ℕ) : Handling Key UInt8 := gets fun w => w.memory off

def readU16 (off : ℕ) : Handling Key UInt16 :=
  gets fun w => UInt16.ofNat (leValue (w.memory.read off 2))

def readU32 (off : ℕ) : Handling Key UInt32 :=
  gets fun w => UInt32.ofNat (leValue (w.memory.read off 4))

def readU64 (off : ℕ) : Handling Key UInt64 :=
  gets fun w => UInt64.ofNat (leValue (w.memory.read off 8))

def readPositionXYZ (off : ℕ) : Handling Key PositionXYZ := do
  return ⟨← readU32 off, ← readU32 (off + 4), ← readU32 (off + 8)⟩

def readPositionXZ (off : ℕ) : Handling Key PositionXZ := do
  return ⟨← readU32 off, ← readU32 (off + 4)⟩

/-- The string at an address, which ends with the address space if not before. -/
def stringFrom (m : Memory) : ℕ → ℕ → List UInt8
  | 0, _ => []
  | fuel + 1, p => if m p = 0 then [] else m p :: stringFrom m fuel (p + 1)

def readString (off : ℕ) : Handling Key (List UInt8) := gets fun w => stringFrom w.memory (2 ^ 64) off

/-! ### Answers, events, and random numbers -/

def send (r : Reply Key) : Handling Key Unit := modify fun w => { w with reply := w.reply ++ [r] }

def sendAll (rs : List (Reply Key)) : Handling Key Unit :=
  modify fun w => { w with reply := w.reply ++ rs }

def workerDispatchEvent (event : GameEvent Key) : Handling Key Unit :=
  modify fun w => { w with events := w.events ++ [(w.session.socket.sessionKey, event)] }

/-- `randR`: the number and the next seed. -/
def randR (seed : UInt32) : UInt32 × UInt32 :=
  let next := seed * 1103515245 + 12345
  let result := next / 65536 % 2048
  let next := next * 1103515245 + 12345
  let result := (result <<< 10) ^^^ (next / 65536 % 1024)
  let next := next * 1103515245 + 12345
  let result := (result <<< 10) ^^^ (next / 65536 % 1024)
  (result, next)

def r1emuGenerateRandom : Handling Key UInt32 :=
  act fun w => ((randR w.seed).1, { w with seed := (randR w.seed).2 })

def r1emuGenerateRandom64 : Handling Key UInt64 := do
  let low ← r1emuGenerateRandom
  let high ← r1emuGenerateRandom
  return (high.toUInt64 <<< 31) ||| low.toUInt64

/-! ### The heap -/

def onHeap {α : Type} (f : Heap Key → α × Heap Key) : Handling Key α :=
  act fun w => ((f w.heap).1, { w with heap := (f w.heap).2 })

def allocate (env : Env Key) : Handling Key Bool :=
  onHeap fun h => (env.allocates h.attempts, { h with attempts := h.attempts + 1 })

def commanderNew (env : Env Key) : Handling Key (Option CommanderPtr) := do
  if ← allocate env then return some (← onHeap (·.newCommander commanderInit)) else return none

/-- The commander that a pointer points to. -/
def commanderAt (p : Option CommanderPtr) : Handling Key (Commander Key) := do
  found (p.bind (← gets (·.heap)).commander)

/-- The source is followed once the copy has been allocated. -/
def commanderDup (env : Env Key) (src : Handling Key (Commander Key)) :
    Handling Key (Option CommanderPtr) := do
  if ← allocate env then
    let c ← src
    return some (← onHeap (·.newCommander c))
  else return none

def setCommander (p : CommanderPtr) (c : Option (Commander Key)) : Handling Key Unit :=
  onHeap fun h => ((), h.setCommander p c)

def currentCommander : Handling Key (Commander Key) := do
  commanderAt (← gets (·.session.game.commanderSession.currentCommander))

/-- The slot of an array of commanders. -/
def commanderSlot (commanders : Option CommandersPtr) (i : Int) :
    Handling Key (Option CommanderPtr) := do
  let h ← gets (·.heap)
  let slots ← found (commanders.bind (h.arrays[·]?))
  if 0 ≤ i then found slots[i.toNat]? else fault

/-- The slot, where there is one. -/
def Heap.slot (h : Heap Key) (commanders : Option CommandersPtr) (i : Int) :
    Option (Option CommanderPtr) :=
  if 0 ≤ i then (commanders.bind (h.arrays[·]?)).bind (·[i.toNat]?) else none

def setCommanderSlot (commanders : Option CommandersPtr) (i : ℕ) (p : Option CommanderPtr) :
    Handling Key Unit := do
  let a ← found commanders
  let slots ← found (← gets (·.heap)).arrays[a]?
  if i < slots.length then onHeap fun h => ((), h.setArray a (slots.set i p)) else fault

/-- `commanderDestroy` on a slot. -/
def destroySlot (commanders : Option CommandersPtr) (i : ℕ) : Handling Key Unit := do
  match ← commanderSlot commanders i with
  | none => return
  | some p =>
    setCommander p none
    setCommanderSlot commanders i none

def itemFactoryCreate (env : Env Key) (id amount : UInt32) : Handling Key (Option ItemPtr) := do
  match itemFactoryGetCategoryFromId env.staticData id with
  | none => return none
  | some category =>
    let uid ← onHeap fun h => (h.actorId, { h with actorId := h.actorId + 1 })
    if ← allocate env then
      match itemInit uid category id amount with
      | none => return none
      | some item => return some (← onHeap (·.newItem item))
    else return none

def setItemSlot (p : ItemPtr) (slot : UInt8) : Handling Key Unit :=
  onHeap fun h => ((), h.setItemSlot p slot)

def itemFactoryCreateEquipable (env : Env Key) (id amount : UInt32) (slot : UInt8) :
    Handling Key (Option ItemPtr) := do
  match ← itemFactoryCreate env id amount with
  | none => return none
  | some item =>
    setItemSlot item slot
    return some item

/-- The ids of the equipped items, each of which `itemGetId` follows. -/
def equippedIds (h : Heap Key) (inventory : Inventory Key) : Option (Fin eqSlotCount → UInt32) :=
  if ∀ slot : Fin eqSlotCount, (inventory.equippedItems (UInt8.ofNat slot)).isSome then
    some fun slot => match inventory.equippedItems (UInt8.ofNat slot) with
      | none => 0
      | some item => (h.item item).id
  else none

/-! ### The databases -/

/-- The world after a write has been sent. -/
def World.written (env : Env Key) (w : World Key) (write : Write) : World Key :=
  if (env.write w.writes write).applied then { w with writes := w.writes ++ [write] } else w

/-- Send a write to its database. -/
def perform (env : Env Key) (write : Write) : Handling Key Answer :=
  act fun w => (env.write w.writes write, w.written env write)

/-! ### What each of them does -/

section Sat

variable (w : World Key) (off : ℕ)

@[simp] theorem sat_checkSize (type : PacketType) (structSize packetSize : ℕ)
    (Q : Except PacketHandlerState Unit → World Key → Prop) :
    (checkSize type structSize packetSize).Sat w Q ↔
      (checkClientPacketSize type.size structSize packetSize = true → Q (.ok ()) w) ∧
        (checkClientPacketSize type.size structSize packetSize = false → Q (.error .error) w) :=
  sat_require _ _ w Q

@[simp] theorem sat_readBytes (len : ℕ)
    (Q : Except PacketHandlerState (List UInt8) → World Key → Prop) :
    (readBytes off len).Sat w Q ↔ Q (.ok (w.memory.read off len)) w :=
  sat_gets _ w Q

@[simp] theorem sat_readU8 (Q : Except PacketHandlerState UInt8 → World Key → Prop) :
    (readU8 off).Sat w Q ↔ Q (.ok (w.memory off)) w :=
  sat_gets _ w Q

@[simp] theorem sat_readU16 (Q : Except PacketHandlerState UInt16 → World Key → Prop) :
    (readU16 off).Sat w Q ↔ Q (.ok (UInt16.ofNat (leValue (w.memory.read off 2)))) w :=
  sat_gets _ w Q

@[simp] theorem sat_readU32 (Q : Except PacketHandlerState UInt32 → World Key → Prop) :
    (readU32 off).Sat w Q ↔ Q (.ok (UInt32.ofNat (leValue (w.memory.read off 4)))) w :=
  sat_gets _ w Q

@[simp] theorem sat_readU64 (Q : Except PacketHandlerState UInt64 → World Key → Prop) :
    (readU64 off).Sat w Q ↔ Q (.ok (UInt64.ofNat (leValue (w.memory.read off 8)))) w :=
  sat_gets _ w Q

@[simp] theorem sat_readString (Q : Except PacketHandlerState (List UInt8) → World Key → Prop) :
    (readString off).Sat w Q ↔ Q (.ok (stringFrom w.memory (2 ^ 64) off)) w :=
  sat_gets _ w Q

@[simp] theorem sat_send (r : Reply Key) (Q : Except PacketHandlerState Unit → World Key → Prop) :
    (send r).Sat w Q ↔ Q (.ok ()) { w with reply := w.reply ++ [r] } :=
  sat_modify _ w Q

@[simp] theorem sat_sendAll (rs : List (Reply Key))
    (Q : Except PacketHandlerState Unit → World Key → Prop) :
    (sendAll rs).Sat w Q ↔ Q (.ok ()) { w with reply := w.reply ++ rs } :=
  sat_modify _ w Q

@[simp] theorem sat_workerDispatchEvent (event : GameEvent Key)
    (Q : Except PacketHandlerState Unit → World Key → Prop) :
    (workerDispatchEvent event).Sat w Q ↔
      Q (.ok ()) { w with events := w.events ++ [(w.session.socket.sessionKey, event)] } :=
  sat_modify _ w Q

@[simp] theorem sat_r1emuGenerateRandom (Q : Except PacketHandlerState UInt32 → World Key → Prop) :
    r1emuGenerateRandom.Sat w Q ↔ Q (.ok (randR w.seed).1) { w with seed := (randR w.seed).2 } :=
  sat_act _ w Q

@[simp] theorem sat_onHeap {α : Type} (f : Heap Key → α × Heap Key)
    (Q : Except PacketHandlerState α → World Key → Prop) :
    (onHeap f).Sat w Q ↔ Q (.ok (f w.heap).1) { w with heap := (f w.heap).2 } :=
  sat_act _ w Q

@[simp] theorem sat_setCommander (p : CommanderPtr) (c : Option (Commander Key))
    (Q : Except PacketHandlerState Unit → World Key → Prop) :
    (setCommander p c).Sat w Q ↔ Q (.ok ()) { w with heap := w.heap.setCommander p c } :=
  sat_act _ w Q

@[simp] theorem sat_commanderAt (p : Option CommanderPtr)
    (Q : Except PacketHandlerState (Commander Key) → World Key → Prop) :
    (commanderAt p).Sat w Q ↔ ∀ c, p.bind w.heap.commander = some c → Q (.ok c) w := by
  simp [commanderAt]

@[simp] theorem sat_currentCommander
    (Q : Except PacketHandlerState (Commander Key) → World Key → Prop) :
    currentCommander.Sat w Q ↔
      ∀ c, w.session.game.commanderSession.currentCommander.bind w.heap.commander = some c →
        Q (.ok c) w := by
  simp [currentCommander]

@[simp] theorem sat_commanderSlot (commanders : Option CommandersPtr) (i : Int)
    (Q : Except PacketHandlerState (Option CommanderPtr) → World Key → Prop) :
    (commanderSlot commanders i).Sat w Q ↔
      ∀ slot, w.heap.slot commanders i = some slot → Q (.ok slot) w := by
  simp only [commanderSlot, sat_bind, sat_gets, then_ok, sat_found, sat_ite, sat_fault, Heap.slot]
  cases commanders.bind (w.heap.arrays[·]?) with
  | none => simp
  | some slots => by_cases hi : 0 ≤ i <;> simp [hi]

@[simp] theorem sat_setCommanderSlot (commanders : Option CommandersPtr) (i : ℕ)
    (p : Option CommanderPtr) (Q : Except PacketHandlerState Unit → World Key → Prop) :
    (setCommanderSlot commanders i p).Sat w Q ↔
      ∀ a, commanders = some a → ∀ slots, w.heap.arrays[a]? = some slots → i < slots.length →
        Q (.ok ()) { w with heap := w.heap.setArray a (slots.set i p) } := by
  simp [setCommanderSlot]

@[simp] theorem sat_allocate (env : Env Key) (Q : Except PacketHandlerState Bool → World Key → Prop) :
    (allocate env).Sat w Q ↔ Q (.ok (env.allocates w.heap.attempts))
      { w with heap := { w.heap with attempts := w.heap.attempts + 1 } } :=
  sat_act _ w Q

@[simp] theorem sat_perform (env : Env Key) (write : Write)
    (Q : Except PacketHandlerState Answer → World Key → Prop) :
    (perform env write).Sat w Q ↔ Q (.ok (env.write w.writes write)) (w.written env write) :=
  sat_act _ w Q

@[simp] theorem written_session (env : Env Key) (write : Write) :
    (w.written env write).session = w.session := by
  rw [World.written, apply_ite World.session, ite_self]

@[simp] theorem written_heap (env : Env Key) (write : Write) :
    (w.written env write).heap = w.heap := by
  rw [World.written, apply_ite World.heap, ite_self]

@[simp] theorem written_called (env : Env Key) (write : Write) :
    (w.written env write).called = w.called := by
  rw [World.written, apply_ite World.called, ite_self]

theorem written_writes (env : Env Key) (write : Write) : (w.written env write).writes =
    if (env.write w.writes write).applied then w.writes ++ [write] else w.writes :=
  apply_ite World.writes _ _ _

end Sat

/-! ### Intact worlds -/

/-- The session is as it was, so is everything that was allocated, and no write to a database
has taken effect. -/
structure World.Intact (w w' : World Key) : Prop where
  session : w'.session = w.session
  heap : w.heap.Kept w'.heap
  writes : w'.writes = w.writes

/-- Moreover, no other handler has been called. -/
structure World.Untouched (w w' : World Key) : Prop extends w.Intact w' where
  called : w'.called = w.called

theorem World.Untouched.refl (w : World Key) : w.Untouched w := ⟨⟨rfl, .refl _, rfl⟩, rfl⟩

variable {w₀ w : World Key}

theorem World.Untouched.trans {w₁ w₂ w₃ : World Key} (h : w₁.Untouched w₂)
    (h' : w₂.Untouched w₃) : w₁.Untouched w₃ where
  session := h'.session.trans h.session
  heap := h.heap.trans h'.heap
  writes := h'.writes.trans h.writes
  called := h'.called.trans h.called

theorem World.Untouched.setHeap (hw : w₀.Untouched w) {h : Heap Key} (hk : w₀.heap.Kept h) :
    w₀.Untouched { w with heap := h } :=
  ⟨⟨hw.session, hk, hw.writes⟩, hw.called⟩

theorem World.Untouched.onHeap (hw : w₀.Untouched w) {h : Heap Key} (hk : w.heap.Kept h) :
    w₀.Untouched { w with heap := h } :=
  hw.setHeap (hw.heap.trans hk)

theorem preserves_onHeap {α : Type} {f : Heap Key → α × Heap Key}
    (hf : ∀ h : Heap Key, h.Kept (f h).2) : Preserves w₀.Untouched (onHeap f) :=
  preserves_act fun w hw => hw.onHeap (hf w.heap)

theorem preserves_allocate (env : Env Key) : Preserves w₀.Untouched (allocate env) :=
  preserves_onHeap fun _ => ⟨List.prefix_rfl, List.prefix_rfl, le_rfl, fun _ _ => rfl, rfl, rfl⟩

theorem preserves_commanderAt (p : Option CommanderPtr) : Preserves w₀.Untouched (commanderAt p) :=
  (preserves_gets _).bind fun _ => preserves_found _

theorem preserves_commanderSlot (commanders : Option CommandersPtr) (i : Int) :
    Preserves w₀.Untouched (commanderSlot commanders i) :=
  (preserves_gets _).bind fun _ => (preserves_found _).bind fun _ =>
    .ite (preserves_found _) preserves_fault

/-- A new commander lies behind all that were there. -/
theorem commanderNew_sat (env : Env Key) (hw : w₀.Untouched w) :
    (commanderNew env).Sat w fun r w' => w₀.Untouched w' ∧
      ∀ p, r = .ok (some p) → w₀.heap.commanders.length ≤ p := by
  refine (preserves_allocate env w hw).bind (fun _ _ h => ⟨h, by simp⟩) fun allocated w₁ h₁ => ?_
  cases allocated with
  | false => simpa using h₁
  | true =>
    have hlen := h₁.heap.commanders.length_le
    have hnew := h₁.onHeap (Heap.kept_newCommander w₁.heap commanderInit)
    simpa [Game.onHeap, Heap.newCommander] using ⟨hnew, hlen⟩

/-- So does a new item. -/
theorem itemFactoryCreate_sat (env : Env Key) (id amount : UInt32) (hw : w₀.Untouched w) :
    (itemFactoryCreate env id amount).Sat w fun r w' => w₀.Untouched w' ∧
      ∀ p, r = .ok (some p) → w₀.heap.nextItem ≤ p := by
  rw [itemFactoryCreate]
  cases itemFactoryGetCategoryFromId env.staticData id with
  | none => simpa using hw
  | some category =>
    have hcount : Preserves w₀.Untouched
        (onHeap fun h : Heap Key => (h.actorId, { h with actorId := h.actorId + 1 })) :=
      preserves_onHeap fun _ => ⟨List.prefix_rfl, List.prefix_rfl, le_rfl, fun _ _ => rfl, rfl, rfl⟩
    refine (hcount w hw).bind (fun _ _ h => ⟨h, by simp⟩) fun uid w₁ h₁ => ?_
    refine (preserves_allocate env w₁ h₁).bind (fun _ _ h => ⟨h, by simp⟩) fun allocated w₂ h₂ => ?_
    cases allocated with
    | false => simpa using h₂
    | true =>
      cases itemInit uid category id amount with
      | none => simpa using h₂
      | some item =>
        have hnew := h₂.onHeap (Heap.kept_newItem w₂.heap item)
        simpa [Game.onHeap, Heap.newItem] using ⟨hnew, h₂.heap.items⟩

theorem preserves_itemFactoryCreate (env : Env Key) (id amount : UInt32) :
    Preserves w₀.Untouched (itemFactoryCreate env id amount) :=
  fun _ hw => (itemFactoryCreate_sat env id amount hw).mono fun _ _ h => h.1

theorem preserves_itemFactoryCreateEquipable (env : Env Key) (id amount : UInt32) (slot : UInt8) :
    Preserves w₀.Untouched (itemFactoryCreateEquipable env id amount slot) := by
  intro w hw
  refine (itemFactoryCreate_sat env id amount hw).bind (fun _ _ h => h.1) fun item w₁ h₁ => ?_
  cases item with
  | none => simpa using h₁.1
  | some item =>
    simpa [setItemSlot, onHeap] using h₁.1.setHeap (h₁.1.heap.setItemSlot (h₁.2 item rfl) slot)

end R1Emu.Game
