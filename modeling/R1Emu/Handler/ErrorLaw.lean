import R1Emu.Handler.Zone
import R1Emu.Server.WorkerDispatch

/-!
# What an error leaves behind

A handler that returns an error must have left the session alone and written nothing, and
must say so when a handler that it calls returns one. Most of the handlers do.
-/
namespace R1Emu.Handler
open R1Emu.Actor R1Emu.Game R1Emu.Lib R1Emu.Lib.Stage R1Emu.Lib.Bytes R1Emu.Packet R1Emu.Server
open R1Emu.Commander (Store ItemPtr eqSlotCount inventorySwapItems)

variable {Key : Type}

/-! ### The law -/

/-- The world in which a handler is called. -/
def start (w : World Key) : World Key := { w with reply := [], called := [] }

@[simp] theorem start_session (w : World Key) : (start w).session = w.session := rfl
@[simp] theorem start_heap (w : World Key) : (start w).heap = w.heap := rfl
@[simp] theorem start_memory (w : World Key) : (start w).memory = w.memory := rfl
@[simp] theorem start_writes (w : World Key) : (start w).writes = w.writes := rfl
@[simp] theorem start_called (w : World Key) : (start w).called = [] := rfl

/-- The handler as the worker calls it. There is no world after a fault. -/
def installed (env : Env Key) (handler : Handler Key) : PacketHandler (Option (World Key)) :=
  fun world memory packet packetSize =>
    match world.bind fun w => (handler env packet packetSize).run (start { w with memory }) with
    | none => ⟨.error, none, memory, []⟩
    | some (state, w) => ⟨state, some w, w.memory, w.reply.map env.build⟩

/-- The worker dispatches the sub-request at `pos` to the handler, in the world `w`. -/
structure Dispatches (worker : Worker (Option (World Key))) (s : Machine (Option (World Key)))
    (pos size : ℕ) (env : Env Key) (handler : Handler Key) (w : World Key)
    (packet packetSize : ℕ) : Prop where
  decrypts : ∃ pos' size' s', cryptoDecryptPacket worker s pos size = (some (pos', size'), s') ∧
    packet = pos' + clientHeaderSize true ∧ packetSize = sizeSub size' (clientHeaderSize true) ∧
    (clientPacketHeader s'.memory pos' true).type ≤ worker.packetHandlersCount ∧
    worker.packetHandlers (clientPacketHeader s'.memory pos' true).type =
      some (installed env handler) ∧
    s'.world = some w ∧ s'.memory = w.memory

/-- What a handler that returns an error owes. -/
structure ErrorLaw (handler : Handler Key) (env : Env Key) (w : World Key)
    (packet packetSize : ℕ) : Prop where
  /-- The session is as it was, and nothing has been written. -/
  intact : ∀ w', (handler env packet packetSize).run (start w) = some (.error, w') → w.Intact w'
  /-- The worker reports an error. -/
  reported : ∀ w', (handler env packet packetSize).run (start w) = some (.error, w') →
    ∀ worker s pos size headerAnswer,
      Dispatches worker s pos size env handler w packet packetSize →
        (workerProcessOneRequest worker s pos size headerAnswer true).1 = false
  /-- An error of a handler that was called is an error. -/
  nested : ∀ state w', (handler env packet packetSize).run (start w) = some (state, w') →
    .error ∈ w'.called → state = .error

theorem reported_of_error {handler : Handler Key} {env : Env Key} {w w' : World Key}
    {packet packetSize : ℕ}
    (hrun : (handler env packet packetSize).run (start w) = some (.error, w'))
    {worker : Worker (Option (World Key))} {s : Machine (Option (World Key))} {pos size : ℕ}
    (headerAnswer : ℕ) (hd : Dispatches worker s pos size env handler w packet packetSize) :
    (workerProcessOneRequest worker s pos size headerAnswer true).1 = false := by
  obtain ⟨pos', size', s', hdecrypt, hpacket, hsize, htype, hhandler, hworld, hmemory⟩ :=
    hd.decrypts
  have hstart : start { w with memory := s'.memory } = start w := by rw [hmemory]
  have hstate : (workerHandlePacket worker s' pos' size' true).1 = .error := by
    simp [workerHandlePacket, htype.not_gt, hhandler, ← hpacket, ← hsize, installed, hworld,
      hstart, hrun]
  rw [workerProcessOneRequest, if_pos rfl, hdecrypt]
  exact finishRequest_error hstate

/-- What the law says of an outcome of the handler. -/
def Lawful (w : World Key) (r : Except PacketHandlerState PacketHandlerState) (w' : World Key) :
    Prop :=
  (value r = .error → w.Intact w') ∧ (.error ∈ w'.called → value r = .error)

theorem errorLaw_iff (handler : Handler Key) (env : Env Key) (w : World Key)
    (packet packetSize : ℕ) :
    ErrorLaw handler env w packet packetSize ↔
      (handler env packet packetSize).Sat (start w) (Lawful w) := by
  have hsat := sat_iff_run (handler env packet packetSize) (start w)
    fun state w' => (state = .error → w.Intact w') ∧ (.error ∈ w'.called → state = .error)
  constructor
  · intro h
    refine hsat.mpr fun state w' hrun => ⟨?_, h.nested state w' hrun⟩
    rintro rfl
    exact h.intact w' hrun
  · intro h
    have hrun := hsat.mp h
    exact ⟨fun w' h' => (hrun _ w' h').1 rfl, fun _ h' _ _ _ _ headerAnswer =>
      reported_of_error h' headerAnswer, fun state w' h' => (hrun state w' h').2⟩

/-! ### The handlers that obey it -/

/-- Wherever it is left, no handler has been called, and an error has touched nothing. -/
def Obeys (handler : Handling Key PacketHandlerState) : Prop :=
  ∀ w, handler.Sat w fun r w' => w'.called = w.called ∧ (value r = .error → w.Untouched w')

theorem Obeys.errorLaw {handler : Handler Key} {env : Env Key} {packet packetSize : ℕ}
    (h : Obeys (handler env packet packetSize)) (w : World Key) :
    ErrorLaw handler env w packet packetSize := by
  refine (errorLaw_iff handler env w packet packetSize).mpr ((h (start w)).mono ?_)
  rintro r w' ⟨hcalled, herror⟩
  refine ⟨fun hr => ?_, fun hr => ?_⟩
  · have hw := herror hr
    exact ⟨hw.session, hw.heap, hw.writes⟩
  · rw [hcalled] at hr
    cases hr

theorem notImplemented_obeys (env : Env Key) (packet packetSize : ℕ) :
    Obeys (notImplemented env packet packetSize) := by
  intro w
  simp [notImplemented]

theorem notify_obeys {type : PacketType} {structSize : ℕ} {event : ℕ → Handling Key (GameEvent Key)}
    (hevent : ∀ packet w, (event packet).Sat w fun r w' => w' = w ∧ ∃ e, r = .ok e)
    (env : Env Key) (packet packetSize : ℕ) :
    Obeys (notify type structSize event env packet packetSize) := by
  intro w
  simp only [notify, sat_bind, sat_checkSize, then_ok, then_error]
  refine ⟨fun _ => (hevent packet w).mono ?_, fun _ => ⟨trivial, fun _ => .refl w⟩⟩
  rintro _ _ ⟨rfl, e, rfl⟩
  simp

theorem zoneHandlerJump_obeys (env : Env Key) (packet packetSize : ℕ) :
    Obeys (zoneHandlerJump env packet packetSize) :=
  notify_obeys (fun packet w => by simp) env packet packetSize

theorem zoneHandlerMoveStop_obeys (env : Env Key) (packet packetSize : ℕ) :
    Obeys (zoneHandlerMoveStop env packet packetSize) :=
  notify_obeys (fun packet w => by simp [readPositionXYZ, readPositionXZ]) env packet packetSize

theorem zoneHandlerRestSit_obeys (env : Env Key) (packet packetSize : ℕ) :
    Obeys (zoneHandlerRestSit env packet packetSize) :=
  notify_obeys (fun packet w => by simp) env packet packetSize

theorem zoneHandlerHeadRotate_obeys (env : Env Key) (packet packetSize : ℕ) :
    Obeys (zoneHandlerHeadRotate env packet packetSize) :=
  notify_obeys (fun packet w => by simp [readPositionXZ]) env packet packetSize

theorem zoneHandlerRotate_obeys (env : Env Key) (packet packetSize : ℕ) :
    Obeys (zoneHandlerRotate env packet packetSize) :=
  notify_obeys (fun packet w => by simp [readPositionXZ]) env packet packetSize

theorem zoneHandlerPose_obeys (env : Env Key) (packet packetSize : ℕ) :
    Obeys (zoneHandlerPose env packet packetSize) :=
  notify_obeys (fun packet w => by simp [readPositionXZ]) env packet packetSize

theorem zoneHandlerKeyboardMove_obeys (env : Env Key) (packet packetSize : ℕ) :
    Obeys (zoneHandlerKeyboardMove env packet packetSize) := by
  intro w
  simp [zoneHandlerKeyboardMove, readPositionXYZ, readPositionXZ, World.Untouched.refl]

theorem zoneHandlerGameReady_obeys (env : Env Key) (packet packetSize : ℕ) :
    Obeys (zoneHandlerGameReady env packet packetSize) := by
  intro w
  simp [zoneHandlerGameReady]

theorem zoneHandlerCampInfo_obeys (env : Env Key) (packet packetSize : ℕ) :
    Obeys (zoneHandlerCampInfo env packet packetSize) := by
  intro w
  simp [zoneHandlerCampInfo, World.Untouched.refl]

theorem zoneHandlerLogout_obeys (env : Env Key) (packet packetSize : ℕ) :
    Obeys (zoneHandlerLogout env packet packetSize) := by
  intro w
  simp [zoneHandlerLogout, World.Untouched.refl]

theorem zoneHandlerSkillGround_obeys (env : Env Key) (packet packetSize : ℕ) :
    Obeys (zoneHandlerSkillGround env packet packetSize) := by
  intro w
  simp [zoneHandlerSkillGround, readPositionXYZ, readPositionXZ, World.Untouched.refl]

theorem zoneHandlerChat_obeys (env : Env Key) (packet packetSize : ℕ) :
    Obeys (zoneHandlerChat env packet packetSize) := by
  intro w
  simp [zoneHandlerChat, adminCmdProcess, World.Untouched.refl]

theorem zoneHandlerReqNormalTxNumArg_obeys (env : Env Key) (packet packetSize : ℕ) :
    Obeys (zoneHandlerReqNormalTxNumArg env packet packetSize) := by
  intro w
  simp [zoneHandlerReqNormalTxNumArg]

theorem zoneHandlerDynamicCastingStart_obeys (env : Env Key) (packet packetSize : ℕ) :
    Obeys (zoneHandlerDynamicCastingStart env packet packetSize) := by
  intro w
  simp [zoneHandlerDynamicCastingStart]

theorem zoneHandlerItemDelete_obeys [DecidableEq Key] (env : Env Key) (packet packetSize : ℕ) :
    Obeys (zoneHandlerItemDelete env packet packetSize) := by
  intro w
  simp only [zoneHandlerItemDelete, sat_bind, sat_checkSize, sat_readU64, then_ok, then_error,
    currentStore, sat_gets, sat_found, sat_commanderAt, sat_pure]
  refine ⟨fun _ p _ c _ item _ => ?_, fun _ => ⟨trivial, fun _ => .refl w⟩⟩
  cases item with
  | none => simp [World.Untouched.refl]
  | some item => simp [setStore]

/-- Putting an inventory back changes nothing. -/
theorem setStore_store {h : Heap Key} {p : CommanderPtr} {c : Commander Key}
    (hc : h.commander p = some c) : h.setStore p c (h.store c.inventory) = h := by
  have hp : h.commanders[p]? = some (some c) := Option.join_eq_some_iff.mp hc
  have hset : h.commanders.set p (some c) = h.commanders := by
    refine List.ext_getElem? fun i => ?_
    by_cases hi : p = i
    · subst hi
      rw [List.getElem?_set_self' , hp]
      rfl
    · rw [List.getElem?_set_ne hi]
  simp [Heap.setStore, Heap.store, hset]

theorem inventorySwapItems_false [DecidableEq Key] {actorGenKey : UInt64 → Key}
    {self self' : Store Key} {actorId1 actorId2 : UInt64}
    (h : inventorySwapItems actorGenKey self actorId1 actorId2 = some (false, self')) :
    self' = self := by
  simp only [inventorySwapItems, Option.bind_eq_bind, Option.bind_eq_some_iff] at h
  obtain ⟨handle1, -, handle2, -, item1, -, item2, -, _, -, _, -, h⟩ := h
  split at h
  · cases h
    rfl
  · cases h

theorem zoneHandlerSwapEtcInvChangeIndex_obeys [DecidableEq Key] (env : Env Key)
    (packet packetSize : ℕ) :
    Obeys (zoneHandlerSwapEtcInvChangeIndex env packet packetSize) := by
  intro w
  simp only [zoneHandlerSwapEtcInvChangeIndex, sat_bind, sat_checkSize, sat_readU64, sat_readU32,
    then_ok, then_error, sat_require, currentStore, sat_gets, sat_found, sat_commanderAt, sat_pure]
  refine ⟨fun _ => ⟨fun _ p _ c hc => ?_, fun _ => ⟨trivial, fun _ => .refl w⟩⟩,
    fun _ => ⟨trivial, fun _ => .refl w⟩⟩
  rintro ⟨swapped, inventory⟩ hswap
  cases swapped with
  | true => simp [setStore]
  | false =>
    cases inventorySwapItems_false hswap
    simp [setStore, setStore_store hc, World.Untouched.refl]

@[simp] theorem sat_updateSession (f : Session → Session) (w : World Key)
    (Q : Except PacketHandlerState Unit → World Key → Prop) :
    (updateSession f).Sat w Q ↔ Q (.ok ()) { w with session := f w.session } :=
  sat_modify _ w Q

/-- A query leaves the world as it is. -/
theorem mySqlGetAccountData_sat (env : Env Key) (accountName password : List UInt8)
    (accountSession : AccountSession) (w : World Key) :
    (mySqlGetAccountData env accountName password accountSession).Sat w fun r w' =>
      w' = w ∧ ∃ data, r = .ok data := by
  simp only [mySqlGetAccountData, sat_bind, sat_gets, then_ok]
  split <;> simp

theorem barrackHandlerLogin_obeys (env : Env Key) (packet packetSize : ℕ) :
    Obeys (barrackHandlerLogin env packet packetSize) := by
  intro w
  simp only [barrackHandlerLogin, sat_bind, sat_checkSize, sat_readString, sat_readBytes, then_ok,
    then_error]
  refine ⟨fun _ => (mySqlGetAccountData_sat env _ _ _ w).mono ?_, fun _ => ⟨trivial, fun _ => .refl w⟩⟩
  rintro _ _ ⟨rfl, data, rfl⟩
  rcases data with _ | ⟨_ | _, accountSession⟩
  · simp [World.Untouched.refl]
  · simp
  · simp

theorem r1emuGenerateRandom64_sat (w : World Key) :
    r1emuGenerateRandom64.Sat w fun r w' => w'.called = w.called ∧ ∃ n, r = .ok n := by
  simp [r1emuGenerateRandom64]

theorem barrackHandlerLoginByPassport_obeys (env : Env Key) (packet packetSize : ℕ) :
    Obeys (barrackHandlerLoginByPassport env packet packetSize) := by
  intro w
  simp only [barrackHandlerLoginByPassport, sat_bind, sat_checkSize, then_ok, then_error,
    sat_updateSession]
  refine ⟨fun _ => (r1emuGenerateRandom64_sat _).mono ?_, fun _ => ⟨trivial, fun _ => .refl w⟩⟩
  rintro _ w' ⟨hcalled, accountId, rfl⟩
  simpa only [then_ok, sat_bind, sat_updateSession, sat_send, sat_pure, value_ok, reduceCtorEq,
    false_implies, and_true] using hcalled

theorem barrackHandlerCommanderMove_obeys (env : Env Key) (packet packetSize : ℕ) :
    Obeys (barrackHandlerCommanderMove env packet packetSize) := by
  intro w
  simp only [barrackHandlerCommanderMove, readPositionXYZ, sat_bind, sat_checkSize, sat_readU8,
    sat_readU32, sat_gets, sat_pure, then_ok, then_error]
  refine ⟨fun _ => ?_, fun _ => ⟨trivial, fun _ => .refl w⟩⟩
  rw [accountSessionGetCommanderByIndex]
  split
  · simp [World.Untouched.refl]
  · rw [sat_commanderSlot]
    intro slot _
    cases slot with
    | none => simp [World.Untouched.refl]
    | some commander => simp

theorem barrackHandlerCurrentBarrack_obeys (env : Env Key) (packet packetSize : ℕ) :
    Obeys (barrackHandlerCurrentBarrack env packet packetSize) := by
  intro w
  simp [barrackHandlerCurrentBarrack]

theorem barrackHandlerLogout_obeys (env : Env Key) (packet packetSize : ℕ) :
    Obeys (barrackHandlerLogout env packet packetSize) := by
  intro w
  simp [barrackHandlerLogout]

/-- Writing to a database calls no handler. -/
theorem perform_sat (env : Env Key) (write : Write) (w : World Key) :
    (perform env write).Sat w fun r w' =>
      w'.called = w.called ∧ r = .ok (env.write w.writes write) := by
  rw [sat_perform]
  exact ⟨written_called w env write, rfl⟩

theorem mySqlSetFamilyName_sat (env : Env Key) (accountId : UInt64) (familyName : List UInt8)
    (w : World Key) : (mySqlSetFamilyName env accountId familyName).Sat w fun r w' =>
      w'.called = w.called ∧ ∃ status, r = .ok status := by
  rw [mySqlSetFamilyName, sat_bind]
  refine (perform_sat env _ w).mono ?_
  rintro _ w' ⟨hcalled, rfl⟩
  rw [then_ok, sat_ite]
  refine ⟨fun _ => ?_, fun _ => by simpa using hcalled⟩
  rw [sat_bind, sat_gets, then_ok]
  split <;> simp [hcalled]

/-- A change that went well is an update. -/
theorem changeBarrackName_sat (env : Env Key) (packet : ℕ) (w : World Key) :
    (changeBarrackName env packet).Sat w fun r w' => w'.called = w.called ∧
      ∃ status state, r = .ok (status, state) ∧ (status = barrackNameChangeOk → state ≠ .error) := by
  simp only [changeBarrackName, sat_bind, sat_readString, sat_readBytes, sat_gets, then_ok, sat_ite,
    sat_pure]
  refine ⟨fun _ => ⟨trivial, _, _, rfl, by decide⟩, fun _ => ⟨fun _ => ⟨trivial, _, _, rfl, by decide⟩,
    fun _ => ⟨fun _ => ⟨trivial, _, _, rfl, by simp⟩, fun _ => ?_⟩⟩⟩
  refine (mySqlSetFamilyName_sat env _ _ w).mono ?_
  rintro _ w' ⟨hcalled, answer, rfl⟩
  by_cases hok : answer = 0 <;> simp [hok, hcalled, barrackNameChangeOk]

theorem barrackHandlerBarrackNameChange_obeys (env : Env Key) (packet packetSize : ℕ) :
    Obeys (barrackHandlerBarrackNameChange env packet packetSize) := by
  intro w
  simp only [barrackHandlerBarrackNameChange, sat_bind, sat_checkSize, then_ok, then_error]
  refine ⟨fun _ => (changeBarrackName_sat env packet w).mono ?_, fun _ => ⟨trivial, fun _ => .refl w⟩⟩
  rintro _ w' ⟨hcalled, status, state, rfl, hstate⟩
  by_cases hok : status = barrackNameChangeOk <;> simp [hok, hcalled, hstate]

theorem destroySlot_sat (commanders : Option CommandersPtr) (i : ℕ) (w : World Key) :
    (destroySlot commanders i).Sat w fun r w' => w'.called = w.called ∧ r = .ok () := by
  simp only [destroySlot, sat_bind, sat_commanderSlot, then_ok]
  intro slot _
  cases slot with
  | none => simp
  | some p => simp [setCommanderSlot]

theorem barrackHandlerCommanderDestroy_obeys (env : Env Key) (packet packetSize : ℕ) :
    Obeys (barrackHandlerCommanderDestroy env packet packetSize) := by
  intro w
  simp only [barrackHandlerCommanderDestroy, sat_bind, sat_checkSize, sat_readU8, sat_gets,
    sat_commanderSlot, then_ok, then_error]
  refine ⟨fun _ slot _ => ?_, fun _ => ⟨trivial, fun _ => .refl w⟩⟩
  cases slot with
  | none => simp [World.Untouched.refl]
  | some commanderToDelete =>
    rw [sat_bind, sat_commanderAt]
    intro c _
    rw [then_ok, mySqlCommanderDelete, sat_bind, sat_bind]
    refine (perform_sat env _ w).mono ?_
    rintro _ w' ⟨hcalled, rfl⟩
    simp only [then_ok, sat_pure, sat_ite, sat_bind, sat_updateSession]
    refine ⟨fun _ => ?_, fun _ => by simpa using hcalled⟩
    refine (destroySlot_sat _ _ _).mono ?_
    rintro _ w'' ⟨hdestroyed, rfl⟩
    simpa using hdestroyed.trans hcalled

theorem barrackHandlerStartBarrack_obeys (env : Env Key) (packet packetSize : ℕ) :
    Obeys (barrackHandlerStartBarrack env packet packetSize) := by
  intro w
  simp only [barrackHandlerStartBarrack, sat_bind, sat_gets, then_ok]
  have hload := preserves_mySqlLoadAccountCommanders env w.session.game.accountSession
    w.session.socket.accountId w (.refl w)
  refine hload.mono fun r w' hw' => ?_
  rcases r with e | _ | ⟨accountSession, commandersCount⟩
  · exact ⟨hw'.called, fun _ => hw'⟩
  · simpa using ⟨hw'.called, hw'⟩
  · simpa using hw'.called

end R1Emu.Handler
