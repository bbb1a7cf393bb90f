import R1Emu.Game.Loading
import R1Emu.Handler.OneSession

/-!
# The slots of the commanders

The requests that are about a commander name it by its place in the account's array, which the
client counts from one. Two of the handlers compare the index with the number of slots before
they look; the other two do not. The array is loaded when the barrack is started, and a login
leaves the session without one.
-/
namespace R1Emu.Handler
open R1Emu.Actor R1Emu.Game R1Emu.Lib R1Emu.Lib.Stage R1Emu.Lib.Transition R1Emu.Lib.Bytes
  R1Emu.Server
open R1Emu.Packet hiding bind_ok
open R1Emu.Commander (eqSlotCount)

variable {Key : Type}

/-- The array has the slot, the session counts it, and this is what it holds. -/
def SlotHolds (w : World Key) (i : Int) (slot : Option CommanderPtr) : Prop :=
  i < w.session.game.accountSession.commandersCountMax ∧
    w.heap.slot w.session.game.accountSession.commanders i = some slot

/-- The commander that is played is in one of the account's slots, if there is one. -/
def Held (game : GameSession) (h : Heap Key) : Prop :=
  ∀ p, game.commanderSession.currentCommander = some p → ∃ i : Int,
    i < game.accountSession.commandersCountMax ∧
      h.slot game.accountSession.commanders i = some (some p)

/-- Where the packet of a request about a commander has its index. -/
def indexOffset : PacketType → Option ℕ
  | .cbStartGame => some 2
  | .cbCommanderMove => some 0
  | .cbCommanderCreate => some 0
  | .cbCommanderDestroy => some 0
  | _ => none

/-- The size of the structure that a handler lays over its packet. -/
def overlaySize : PacketType → ℕ
  | .cbLogin => 56
  | .cbLoginByPassport => 1042
  | .cbStartGame => 3
  | .cbCommanderMove => 21
  | .cbCommanderCreate => 82
  | .cbCommanderDestroy => 1
  | _ => 0

/-- The packet has the size that its handler asks for. -/
def Fitting (type : PacketType) (packetSize : ℕ) : Prop :=
  checkClientPacketSize type.size (overlaySize type) packetSize = true

/-- The handlers that compare the index with the number of slots. -/
def comparesIndex : PacketType → Bool
  | .cbCommanderMove => true
  | .cbCommanderCreate => true
  | _ => false

/-- A new commander wants a free slot, all others one with a commander. -/
def Suits (type : PacketType) (slot : Option CommanderPtr) : Prop :=
  if type = .cbCommanderCreate then slot = none else slot.isSome

/-- A request about a commander is about a slot that the account has, or it is answered with an
error and changes nothing. -/
def SlotAnswered (env : Env Key) (type : PacketType) (handler : Handler Key)
    (packet packetSize : ℕ) (w : World Key) : Prop :=
  ∀ off ∈ indexOffset type,
    (∃ slot, SlotHolds w (slotIndex (w.memory (packet + off))) slot ∧ Suits type slot) ∨
      (handler env packet packetSize).run w = some (.error, w)

/-- The handlers that load the account's commanders. -/
def startsBarrack : PacketType → Bool
  | .cbStartBarrack => true
  | .cbCheckClientIntegrity => true
  | _ => false

/-- The commanders are loaded into slots of the array, unless the query gives no result to read
from. -/
def SlotsLoaded (env : Env Key) (type : PacketType) (w : World Key) : Prop :=
  startsBarrack type →
    env.selectCommanders w.writes w.session.socket.accountId = .success none ∨
      mySqlLoadAccountCommanders env w.session.game.accountSession w.session.socket.accountId w ≠
        none

/-- The request gives the session another array: a login that is accepted, or a barrack that can
be started. -/
def Replaces (env : Env Key) (type : PacketType) (packet packetSize : ℕ) (w : World Key) : Prop :=
  match type with
  | .cbLogin => Fitting .cbLogin packetSize ∧ ∃ row rows,
      env.selectAccount w.writes (stringFrom w.memory (2 ^ 64) packet)
        (w.memory.read (packet + 33) 16) = .success (some (row :: rows)) ∧ row.isBanned = false
  | .cbLoginByPassport => Fitting .cbLoginByPassport packetSize
  | .cbStartBarrack => ¬ LoadFails env w w.session.socket.accountId
  | .cbCheckClientIntegrity => ¬ LoadFails env w w.session.socket.accountId
  | _ => False

/-- The array is allocated, with as many slots as the session counts. -/
def Allocated (game : GameSession) (h : Heap Key) : Prop :=
  ∃ a slots, game.accountSession.commanders = some a ∧ h.arrays[a]? = some slots ∧
    game.accountSession.commandersCountMax ≤ slots.length

/-- The index counts from one to the number of slots. -/
def InRange (game : GameSession) (commanderIndex : UInt8) : Prop :=
  1 ≤ commanderIndex.toNat ∧ commanderIndex.toNat ≤ game.accountSession.commandersCountMax

/-- A handler that does not compare the index is given one in range, and no handler that has one
in range finds the session without its array. The database has no more commanders than there are
slots, and the array can be allocated if there are any. No commander is played when the array is
replaced. -/
structure Careful (env : Env Key) (type : PacketType) (packet packetSize : ℕ) (w : World Key) :
    Prop where
  index : ∀ off ∈ indexOffset type, Fitting type packetSize → comparesIndex type = false →
    InRange w.session.game (w.memory (packet + off))
  allocated : ∀ off ∈ indexOffset type, Fitting type packetSize →
    InRange w.session.game (w.memory (packet + off)) → Allocated w.session.game w.heap
  rows : startsBarrack type → ∀ rows,
    env.selectCommanders w.writes w.session.socket.accountId = .success (some rows) →
      rows = [] ∨ env.allocates w.heap.attempts = true ∧ rows.length ≤ 5
  current : Replaces env type packet packetSize w →
    w.session.game.commanderSession.currentCommander = none

/-! ### Requests about a slot -/

section Slots
variable {env : Env Key} {w : World Key} {packet packetSize : ℕ}

theorem inRange_iff {game : GameSession} {commanderIndex : UInt8} :
    InRange game commanderIndex ↔ ¬ (slotIndex commanderIndex < 0 ∨
      (game.accountSession.commandersCountMax : Int) ≤ slotIndex commanderIndex) := by
  rw [InRange, slotIndex]
  omega

/-- There is a slot for an index in range. -/
theorem Allocated.slotHolds {commanderIndex : UInt8} (hallocated : Allocated w.session.game w.heap)
    (hrange : InRange w.session.game commanderIndex) :
    ∃ slot, SlotHolds w (slotIndex commanderIndex) slot := by
  obtain ⟨a, slots, ha, hslots, hlength⟩ := hallocated
  have hbounds := inRange_iff.mp hrange
  have hlt : (slotIndex commanderIndex).toNat < slots.length := by omega
  refine ⟨slots[(slotIndex commanderIndex).toNat], by omega, ?_⟩
  rw [Heap.slot, if_pos (by omega), ha, Option.bind_some, hslots, Option.bind_some,
    List.getElem?_eq_getElem hlt]

theorem Careful.slotHolds {type : PacketType} (hcareful : Careful env type packet packetSize w)
    {off : ℕ} (hoff : off ∈ indexOffset type) (hsize : Fitting type packetSize)
    (hrange : comparesIndex type → InRange w.session.game (w.memory (packet + off))) :
    ∃ slot, SlotHolds w (slotIndex (w.memory (packet + off))) slot := by
  have hin : InRange w.session.game (w.memory (packet + off)) := by
    cases hcompares : comparesIndex type with
    | true => exact hrange hcompares
    | false => exact hcareful.index off hoff hsize hcompares
  exact (hcareful.allocated off hoff hsize hin).slotHolds hin

theorem checkSize_fit {type : PacketType} {structSize : ℕ}
    (h : checkClientPacketSize type.size structSize packetSize = true) :
    checkSize type structSize packetSize w = some (.ok (), w) := by
  rw [checkSize, h]
  rfl

/-- The packet does not have the size. -/
theorem checkSize_unfit {type : PacketType} {structSize : ℕ}
    (h : checkClientPacketSize type.size structSize packetSize = false) :
    checkSize type structSize packetSize w = some (.error .error, w) := by
  rw [checkSize, h]
  rfl

/-- A function that is left with an error at once. -/
theorem run_of_error {m : Handling Key PacketHandlerState} (h : m w = some (.error .error, w)) :
    m.run w = some (.error, w) := by
  rw [Stage.run, h]
  rfl

theorem run_of_ok {m : Handling Key PacketHandlerState} (h : m w = some (.ok .error, w)) :
    m.run w = some (.error, w) := by
  rw [Stage.run, h]
  rfl

theorem fitting_or (type : PacketType) (packetSize : ℕ) :
    Fitting type packetSize ∨
      checkClientPacketSize type.size (overlaySize type) packetSize = false := by
  rw [Fitting]
  exact (Bool.eq_false_or_eq_true _)

theorem barrackHandlerStartGame_answered
    (hcareful : Careful env .cbStartGame packet packetSize w) :
    SlotAnswered env .cbStartGame barrackHandlerStartGame packet packetSize w := by
  rintro _ ⟨⟩
  rcases fitting_or .cbStartGame packetSize with hsize | hsize
  · obtain ⟨slot, hholds⟩ := hcareful.slotHolds rfl hsize fun h => absurd h Bool.false_ne_true
    cases slot with
    | some p => exact .inl ⟨some p, hholds, rfl⟩
    | none =>
      refine .inr (run_of_error ?_)
      have hfit : checkSize .cbStartGame 3 packetSize w = some (.ok (), w) :=
        checkSize_fit hsize
      rw [barrackHandlerStartGame, bind_ok hfit, bind_ok rfl, bind_ok rfl,
        bind_ok rfl, bind_ok (commanderSlot_run hholds.2)]
      rfl
  · exact .inr (run_of_error (bind_error (checkSize_unfit hsize) _))

theorem barrackHandlerCommanderDestroy_answered
    (hcareful : Careful env .cbCommanderDestroy packet packetSize w) :
    SlotAnswered env .cbCommanderDestroy barrackHandlerCommanderDestroy packet packetSize w := by
  rintro _ ⟨⟩
  rcases fitting_or .cbCommanderDestroy packetSize with hsize | hsize
  · obtain ⟨slot, hholds⟩ := hcareful.slotHolds rfl hsize fun h => absurd h Bool.false_ne_true
    cases slot with
    | some p => exact .inl ⟨some p, hholds, rfl⟩
    | none =>
      refine .inr (run_of_ok ?_)
      have hfit : checkSize .cbCommanderDestroy 1 packetSize w = some (.ok (), w) :=
        checkSize_fit hsize
      have hslot : commanderSlot w.session.game.accountSession.commanders
          (slotIndex (w.memory packet)) w = some (.ok none, w) := commanderSlot_run hholds.2
      rw [barrackHandlerCommanderDestroy, bind_ok hfit, bind_ok rfl, bind_ok rfl]
      exact bind_ok hslot _
  · exact .inr (run_of_error (bind_error (checkSize_unfit hsize) _))

/-- An index that is out of range. -/
theorem barrackHandlerCommanderMove_answered
    (hcareful : Careful env .cbCommanderMove packet packetSize w) :
    SlotAnswered env .cbCommanderMove barrackHandlerCommanderMove packet packetSize w := by
  rintro _ ⟨⟩
  rcases fitting_or .cbCommanderMove packetSize with hsize | hsize
  · have hnone : accountSessionGetCommanderByIndex w.session.game.accountSession
        (slotIndex (w.memory packet)) w = some (.ok none, w) →
        (barrackHandlerCommanderMove env packet packetSize).run w = some (.error, w) := by
      intro hget
      refine run_of_ok ?_
      have hfit : checkSize .cbCommanderMove 21 packetSize w = some (.ok (), w) :=
        checkSize_fit hsize
      rw [barrackHandlerCommanderMove, bind_ok hfit, bind_ok rfl, bind_ok rfl,
        bind_ok rfl, bind_ok hget]
      rfl
    by_cases hrange : InRange w.session.game (w.memory packet)
    · obtain ⟨slot, hholds⟩ := hcareful.slotHolds rfl hsize fun _ => hrange
      cases slot with
      | some p => exact .inl ⟨some p, hholds, rfl⟩
      | none =>
        refine .inr (hnone ?_)
        rw [accountSessionGetCommanderByIndex, if_neg (inRange_iff.mp hrange)]
        exact commanderSlot_run hholds.2
    · refine .inr (hnone ?_)
      rw [accountSessionGetCommanderByIndex, if_pos (not_not.mp (inRange_iff.not.mp hrange))]
      rfl
  · exact .inr (run_of_error (bind_error (checkSize_unfit hsize) _))

theorem barrackHandlerCommanderCreate_answered
    (hcareful : Careful env .cbCommanderCreate packet packetSize w) :
    SlotAnswered env .cbCommanderCreate barrackHandlerCommanderCreate packet packetSize w := by
  rintro _ ⟨⟩
  rcases fitting_or .cbCommanderCreate packetSize with hsize | hsize
  · have hfull : accountSessionIsCommanderSlotEmpty w.session.game.accountSession
        (slotIndex (w.memory packet)) w = some (.ok false, w) →
        (barrackHandlerCommanderCreate env packet packetSize).run w = some (.error, w) := by
      intro hempty
      refine run_of_error ?_
      have hfit : checkSize .cbCommanderCreate 82 packetSize w = some (.ok (), w) :=
        checkSize_fit hsize
      rw [barrackHandlerCommanderCreate, bind_ok hfit, bind_ok rfl, bind_ok rfl,
        bind_ok hempty]
      rfl
    by_cases hrange : InRange w.session.game (w.memory packet)
    · obtain ⟨slot, hholds⟩ := hcareful.slotHolds rfl hsize fun _ => hrange
      cases slot with
      | none => exact .inl ⟨none, hholds, rfl⟩
      | some p =>
        refine .inr (hfull ?_)
        have hslot : commanderSlot w.session.game.accountSession.commanders
            (slotIndex (w.memory packet)) w = some (.ok (some p), w) := commanderSlot_run hholds.2
        rw [accountSessionIsCommanderSlotEmpty, if_neg (inRange_iff.mp hrange), bind_ok hslot]
        rfl
    · refine .inr (hfull ?_)
      rw [accountSessionIsCommanderSlotEmpty, if_pos (not_not.mp (inRange_iff.not.mp hrange))]
      rfl
  · exact .inr (run_of_error (bind_error (checkSize_unfit hsize) _))

theorem slotAnswered_of_careful {type : PacketType} {handler : Handler Key}
    (hhandler : barrackHandlers.lookup type = some handler)
    (hcareful : Careful env type packet packetSize w) :
    SlotAnswered env type handler packet packetSize w := by
  cases type <;> cases hhandler
  case cbCommanderCreate => exact barrackHandlerCommanderCreate_answered hcareful
  case cbCommanderDestroy => exact barrackHandlerCommanderDestroy_answered hcareful
  case cbCommanderMove => exact barrackHandlerCommanderMove_answered hcareful
  case cbStartGame => exact barrackHandlerStartGame_answered hcareful
  all_goals exact fun _ hoff => absurd hoff.symm (Option.some_ne_none _)

theorem slotsLoaded_of_careful {type : PacketType}
    (hcareful : Careful env type packet packetSize w) : SlotsLoaded env type w := by
  intro hstarts
  rcases hselect : env.selectCommanders w.writes w.session.socket.accountId with _ | _ | rows
  · refine .inr ?_
    have hrequest : mySqlRequestCommandersByAccountId env w.session.socket.accountId w =
        some (.ok none, w) := by
      rw [mySqlRequestCommandersByAccountId, bind_ok rfl, hselect]
      rfl
    rw [mySqlLoadAccountCommanders, bind_ok hrequest]
    exact Option.some_ne_none _
  · exact .inl rfl
  · exact .inr (mySqlLoadAccountCommanders_ends _ hselect (hcareful.rows hstarts rows hselect))

end Slots

/-! ### What the handlers leave -/

/-- The session is the same client's, with the game session as it was, and so are the arrays. -/
structure Steady (w₀ w : World Key) : Prop where
  key : w.session.socket.sessionKey = w₀.session.socket.sessionKey
  game : w.session.game = w₀.session.game
  arrays : w₀.heap.arrays <+: w.heap.arrays

section Steady
variable {w₀ w : World Key}

theorem Steady.refl (w : World Key) : Steady w w := ⟨rfl, rfl, List.prefix_rfl⟩

theorem slot_of_prefix {h h' : Heap Key} (hgrown : h.arrays <+: h'.arrays)
    {commanders : Option CommandersPtr} {i : Int} {slot : Option CommanderPtr}
    (hslot : h.slot commanders i = some slot) : h'.slot commanders i = some slot := by
  rw [Heap.slot] at hslot ⊢
  split at hslot
  case isFalse => exact absurd hslot (Option.some_ne_none slot).symm
  case isTrue hi =>
    rw [if_pos hi]
    obtain ⟨slots, hslots, hget⟩ := Option.bind_eq_some_iff.mp hslot
    obtain ⟨a, rfl, ha⟩ := Option.bind_eq_some_iff.mp hslots
    obtain ⟨rest, hrest⟩ := hgrown
    have hlt := (List.getElem?_eq_some_iff.mp ha).1
    rw [Option.bind_some, ← hrest, List.getElem?_append_left hlt, ha, Option.bind_some]
    exact hget

theorem Held.of_prefix {game : GameSession} {h h' : Heap Key} (hheld : Held game h)
    (hgrown : h.arrays <+: h'.arrays) : Held game h' := by
  intro p hp
  obtain ⟨i, hi, hslot⟩ := hheld p hp
  exact ⟨i, hi, slot_of_prefix hgrown hslot⟩

theorem Steady.untouched {w' : World Key} (h : Steady w₀ w) (hw : w.Untouched w') :
    Steady w₀ w' where
  key := by rw [hw.session, h.key]
  game := by rw [hw.session, h.game]
  arrays := h.arrays.trans hw.heap.arrays

theorem Steady.reply (h : Steady w₀ w) (reply : List (Reply Key)) :
    Steady w₀ { w with reply := reply } := ⟨h.key, h.game, h.arrays⟩

theorem steady_of_untouched {α : Type} {m : Handling Key α}
    (hm : ∀ w, Preserves (World.Untouched w) m) : Preserves (Steady w₀) m := fun w hw =>
  (hm w w (.refl w)).mono fun _ _ h => hw.untouched h

theorem steady_send (r : Reply Key) : Preserves (Steady w₀) (send r) :=
  preserves_act fun _ hw => hw.reply _

theorem steady_perform (env : Env Key) (write : Write) :
    Preserves (Steady w₀) (perform env write) := by
  intro w hw
  rw [sat_perform]
  refine ⟨?_, ?_, ?_⟩
  · rw [written_session]
    exact hw.key
  · rw [written_session]
    exact hw.game
  · rw [written_heap]
    exact hw.arrays

theorem steady_commanderAt (p : Option CommanderPtr) :
    Preserves (Steady w₀) (commanderAt p : Handling Key (Commander Key)) :=
  steady_of_untouched fun _ => preserves_commanderAt p

theorem steady_redisUpdateSession (env : Env Key) (session : Session) :
    Preserves (Steady w₀) (redisUpdateSession env session) := by
  refine Preserves.bind ?_ fun saved => .ite ?_ (preserves_pure _)
  · exact (steady_perform env _).bind fun _ => preserves_pure _
  · refine (steady_perform env _).bind fun account => ?_
    cases session.game.commanderSession.currentCommander with
    | none => exact preserves_pure _
    | some p =>
      refine (steady_commanderAt _).bind fun c => (steady_perform env _).bind fun _ => ?_
      exact (preserves_gets _).bind fun _ => (preserves_found _).bind fun eqSlots =>
        (steady_perform env _).bind fun _ => preserves_pure _

theorem steady_mySqlCommanderInsert (env : Env Key) (c : Commander Key) :
    Preserves (Steady w₀) (mySqlCommanderInsert env c) :=
  (preserves_gets _).bind fun _ => (preserves_found _).bind fun _ =>
    (steady_perform env _).bind fun _ => preserves_pure _

theorem steady_mySqlSetFamilyName (env : Env Key) (accountId : UInt64) (familyName : List UInt8) :
    Preserves (Steady w₀) (mySqlSetFamilyName env accountId familyName) := by
  refine (steady_perform env _).bind fun answer => .ite ?_ (preserves_pure _)
  refine (preserves_gets _).bind fun writes => ?_
  rcases env.selectFlag writes with _ | _ | _ | ⟨flag, flags⟩
  · exact preserves_pure _
  · exact preserves_fault
  · exact preserves_pure _
  · exact preserves_pure _

end Steady

/-- What a request leaves of a session: a commander that is played is in a slot, whether the
session is saved or not. -/
structure HeldAfter (w : World Key) (state : PacketHandlerState) (w' : World Key) : Prop where
  key : w'.session.socket.sessionKey = w.session.socket.sessionKey
  held : Held w'.session.game w'.heap
  unsaved : state ≠ .updateSession → Held w.session.game w'.heap

def KeepsHeld (m : Handling Key PacketHandlerState) (w : World Key) : Prop :=
  m.Sat w fun r => HeldAfter w (value r)

/-- No commander of the client is played. -/
structure NonePlayed (sessionKey : Chars 11) (w : World Key) : Prop where
  key : w.session.socket.sessionKey = sessionKey
  current : w.session.game.commanderSession.currentCommander = none

section NonePlayed
variable {sessionKey : Chars 11}

theorem nonePlayed_of_untouched {α : Type} {m : Handling Key α}
    (hm : ∀ w, Preserves (World.Untouched w) m) : Preserves (NonePlayed sessionKey) m := fun w hw =>
  (hm w w (.refl w)).mono fun _ _ h => ⟨h.session ▸ hw.key, h.session ▸ hw.current⟩

theorem nonePlayed_send (r : Reply Key) : Preserves (NonePlayed sessionKey) (send r) :=
  preserves_act fun _ hw => ⟨hw.key, hw.current⟩

theorem nonePlayed_updateSession {f : Session → Session}
    (hkey : ∀ s, (f s).socket.sessionKey = s.socket.sessionKey := by exact fun _ => rfl)
    (hf : ∀ s, (f s).game.commanderSession = s.game.commanderSession := by exact fun _ => rfl) :
    Preserves (NonePlayed sessionKey) (updateSession f : Handling Key Unit) :=
  preserves_act fun w hw =>
    ⟨(hkey w.session).trans hw.key, (congrArg _ (hf w.session)).trans hw.current⟩

theorem nonePlayed_onHeap {α : Type} (f : Heap Key → α × Heap Key) :
    Preserves (NonePlayed sessionKey) (onHeap f) :=
  preserves_act fun _ hw => ⟨hw.key, hw.current⟩

theorem nonePlayed_destroySlot (commanders : Option CommandersPtr) (i : ℕ) :
    Preserves (NonePlayed sessionKey) (@destroySlot Key commanders i) := by
  refine (nonePlayed_of_untouched fun _ => preserves_commanderSlot commanders i).bind fun slot => ?_
  cases slot with
  | none => exact preserves_pure _
  | some p =>
    exact (nonePlayed_onHeap _).bind fun _ => (preserves_found _).bind fun _ =>
      (preserves_gets _).bind fun _ => (preserves_found _).bind fun _ =>
        .ite (nonePlayed_onHeap _) preserves_fault

theorem nonePlayed_random64 : Preserves (NonePlayed sessionKey) (@r1emuGenerateRandom64 Key) :=
  nonePlayed_of_untouched preserves_r1emuGenerateRandom64

theorem barrackHandlerLogin_nonePlayed (env : Env Key) (packet packetSize : ℕ) :
    Preserves (NonePlayed sessionKey) (barrackHandlerLogin env packet packetSize) := by
  refine (preserves_require _ _).bind fun _ => (preserves_gets _).bind fun accountName =>
    (preserves_gets _).bind fun md5Password => Preserves.bind (fun w hw => ?_) fun data => ?_
  · exact (mySqlGetAccountData_sat env _ _ _ w).mono fun _ _ h => h.1 ▸ hw
  rcases data with _ | ⟨_ | _, accountSession⟩
  · exact preserves_pure _
  · exact (nonePlayed_send _).bind fun _ => preserves_pure _
  · refine .ite ((nonePlayed_send _).bind fun _ => preserves_pure _) ?_
    exact Preserves.bind nonePlayed_updateSession fun _ =>
      (nonePlayed_send _).bind fun _ => preserves_pure _

theorem barrackHandlerLoginByPassport_nonePlayed (env : Env Key) (packet packetSize : ℕ) :
    Preserves (NonePlayed sessionKey) (barrackHandlerLoginByPassport env packet packetSize) := by
  refine (preserves_require _ _).bind fun _ => Preserves.bind nonePlayed_updateSession fun _ =>
    nonePlayed_random64.bind fun accountId => ?_
  refine Preserves.bind nonePlayed_updateSession fun _ =>
    Preserves.bind nonePlayed_updateSession fun _ =>
      Preserves.bind nonePlayed_updateSession fun _ => ?_
  exact (nonePlayed_send _).bind fun _ => preserves_pure _

theorem barrackHandlerStartBarrack_nonePlayed (env : Env Key) (packet packetSize : ℕ) :
    Preserves (NonePlayed sessionKey) (barrackHandlerStartBarrack env packet packetSize) := by
  refine (preserves_gets _).bind fun session => ?_
  refine (nonePlayed_of_untouched fun _ => preserves_mySqlLoadAccountCommanders env _ _).bind
    fun loaded => ?_
  cases loaded with
  | none => exact preserves_pure _
  | some loaded =>
    exact Preserves.bind nonePlayed_updateSession fun _ =>
      (preserves_gets _).bind fun _ => (nonePlayed_send _).bind fun _ => preserves_pure _

end NonePlayed

section Handlers
variable {env : Env Key} {w : World Key} {packet packetSize : ℕ}

theorem Steady.heldAfter {w' : World Key} (h : Steady w w') (hheld : Held w.session.game w.heap)
    (state : PacketHandlerState) : HeldAfter w state w' where
  key := h.key
  held := h.game ▸ hheld.of_prefix h.arrays
  unsaved _ := hheld.of_prefix h.arrays

theorem KeepsHeld.of_steady {m : Handling Key PacketHandlerState}
    (hheld : Held w.session.game w.heap) (hm : Preserves (Steady w) m) : KeepsHeld m w :=
  (hm w (.refl w)).mono fun _ _ h => h.heldAfter hheld _

theorem held_of_none {game : GameSession} {h : Heap Key}
    (hnone : game.commanderSession.currentCommander = none) : Held game h := fun p hp =>
  absurd (hnone.symm.trans hp) (Option.some_ne_none p).symm

/-- A request that leaves the commander that is played alone, when there is none. -/
theorem KeepsHeld.of_none {m : Handling Key PacketHandlerState}
    (hnone : w.session.game.commanderSession.currentCommander = none)
    (hm : Preserves (NonePlayed w.session.socket.sessionKey) m) : KeepsHeld m w :=
  (hm w ⟨rfl, hnone⟩).mono fun _ _ h => ⟨h.key, held_of_none h.current, fun _ => held_of_none hnone⟩

/-- A login that is not accepted. -/
theorem barrackHandlerLogin_steady (hreplaces : ¬ Replaces env .cbLogin packet packetSize w) :
    (barrackHandlerLogin env packet packetSize).Sat w fun _ => Steady w := by
  have hw := Steady.refl w
  simp only [barrackHandlerLogin, sat_bind, sat_checkSize, sat_readString, sat_readBytes, then_ok,
    then_error, mySqlGetAccountData, sat_gets]
  refine ⟨fun hsize => ?_, fun _ => hw⟩
  cases haccount : env.selectAccount w.writes (stringFrom w.memory (2 ^ 64) packet)
      (w.memory.read (packet + 33) 16) with
  | error => simpa using hw
  | success result =>
    rcases result with _ | _ | ⟨row, rows⟩
    · simp
    · simpa using hw.reply (w.reply ++ [.message .userPassIncorrect1 ""])
    · have hbanned : row.isBanned = true := by
        by_contra hbanned
        exact hreplaces ⟨hsize, row, rows, haccount, Bool.eq_false_iff.mpr hbanned⟩
      simpa [hbanned] using hw.reply (w.reply ++ [.message .accountBlocked2 ""])

theorem barrackHandlerLogin_held (hheld : Held w.session.game w.heap)
    (hcurrent : Replaces env .cbLogin packet packetSize w →
      w.session.game.commanderSession.currentCommander = none) :
    KeepsHeld (barrackHandlerLogin env packet packetSize) w := by
  by_cases hreplaces : Replaces env .cbLogin packet packetSize w
  · exact .of_none (hcurrent hreplaces) (barrackHandlerLogin_nonePlayed env packet packetSize)
  · exact (barrackHandlerLogin_steady hreplaces).mono fun _ _ h => h.heldAfter hheld _

theorem barrackHandlerLoginByPassport_held (hheld : Held w.session.game w.heap)
    (hcurrent : Replaces env .cbLoginByPassport packet packetSize w →
      w.session.game.commanderSession.currentCommander = none) :
    KeepsHeld (barrackHandlerLoginByPassport env packet packetSize) w := by
  by_cases hsize : Fitting .cbLoginByPassport packetSize
  · exact .of_none (hcurrent hsize) (barrackHandlerLoginByPassport_nonePlayed env packet packetSize)
  · rw [KeepsHeld, barrackHandlerLoginByPassport, sat_bind, sat_checkSize]
    exact ⟨fun h => absurd h hsize, fun _ => (Steady.refl w).heldAfter hheld _⟩

/-- A barrack that cannot be started. -/
theorem barrackHandlerStartBarrack_steady {w₀ : World Key}
    (hfails : LoadFails env w w.session.socket.accountId) (hw : Steady w₀ w) :
    (barrackHandlerStartBarrack env packet packetSize).Sat w fun _ => Steady w₀ := by
  simp only [barrackHandlerStartBarrack, sat_bind, sat_gets, then_ok]
  have hload := preserves_mySqlLoadAccountCommanders env w.session.game.accountSession
    w.session.socket.accountId w (.refl w)
  obtain ⟨w', hnone⟩ := mySqlLoadAccountCommanders_none hfails
    (fun r w' (h : mySqlLoadAccountCommanders env w.session.game.accountSession
      w.session.socket.accountId w = some (r, w')) => h)
  intro r w'' hrun
  obtain ⟨rfl, rfl⟩ := Prod.mk.inj (Option.some.inj (hnone.symm.trans hrun))
  exact (sat_pure _ _ _).mpr (hw.untouched (hload _ _ hnone))

theorem barrackHandlerStartBarrack_held (hheld : Held w.session.game w.heap)
    (hcurrent : ¬ LoadFails env w w.session.socket.accountId →
      w.session.game.commanderSession.currentCommander = none) :
    KeepsHeld (barrackHandlerStartBarrack env packet packetSize) w := by
  by_cases hfails : LoadFails env w w.session.socket.accountId
  · exact (barrackHandlerStartBarrack_steady hfails (.refl w)).mono fun _ _ h => h.heldAfter hheld _
  · exact .of_none (hcurrent hfails) (barrackHandlerStartBarrack_nonePlayed env packet packetSize)

/-- The check sends a packet, starts the barrack and looks at the outcome. -/
theorem checkClientIntegrity_sat {P : World Key → Prop} (env : Env Key) (packet packetSize : ℕ)
    (hstart : (barrackHandlerStartBarrack env packet packetSize).Sat
      { w with reply := w.reply ++ [.memory integrityPacket] } fun _ => P)
    (hcalled : ∀ w' called, P w' → P { w' with called := called }) :
    (barrackHandlerCheckClientIntegrity env packet packetSize).Sat w fun _ => P := by
  rw [barrackHandlerCheckClientIntegrity, sat_bind, sat_send, then_ok, sat_bind, sat_callHandler]
  refine hstart.mono fun r w' h => ?_
  rw [then_ok, sat_bind, sat_require]
  exact ⟨fun _ => (sat_pure _ _ _).mpr (hcalled w' _ h), fun _ => hcalled w' _ h⟩

theorem barrackHandlerCheckClientIntegrity_held (hheld : Held w.session.game w.heap)
    (hcurrent : ¬ LoadFails env w w.session.socket.accountId →
      w.session.game.commanderSession.currentCommander = none) :
    KeepsHeld (barrackHandlerCheckClientIntegrity env packet packetSize) w := by
  by_cases hfails : LoadFails env w w.session.socket.accountId
  · refine (checkClientIntegrity_sat (P := Steady w) env packet packetSize ?_ ?_).mono
      fun _ _ h => h.heldAfter hheld _
    · have hfails' : LoadFails env { w with reply := w.reply ++ [.memory integrityPacket] }
          w.session.socket.accountId := hfails
      exact barrackHandlerStartBarrack_steady hfails' ((Steady.refl w).reply _)
    · exact fun w' called h => ⟨h.key, h.game, h.arrays⟩
  · have hnone := hcurrent hfails
    refine (checkClientIntegrity_sat (P := NonePlayed w.session.socket.sessionKey) env packet
      packetSize ?_ ?_).mono
        fun _ _ h => ⟨h.key, held_of_none h.current, fun _ => held_of_none hnone⟩
    · exact barrackHandlerStartBarrack_nonePlayed env packet packetSize _ ⟨rfl, hnone⟩
    · exact fun w' called h => ⟨h.key, h.current⟩

/-- A new name is not looked at. -/
theorem changeBarrackName_held (hheld : Held w.session.game w.heap) :
    (changeBarrackName env packet).Sat w fun _ w' => ∀ state, HeldAfter w state w' := by
  have hsame := (Steady.refl w).heldAfter hheld
  simp only [changeBarrackName, sat_bind, sat_readString, sat_readBytes, sat_gets, then_ok, sat_ite,
    sat_pure]
  refine ⟨fun _ => hsame, fun _ => ⟨fun _ => hsame, fun _ => ⟨fun _ => hsame, fun _ => ?_⟩⟩⟩
  refine (steady_mySqlSetFamilyName env _ _ w (.refl w)).mono fun r w' h => ?_
  have hset := h.heldAfter hheld
  cases r with
  | error state => exact hset
  | ok answer =>
    simp only [then_ok, sat_ite, sat_pure, sat_bind, sat_updateSession]
    refine ⟨fun _ => hset, fun _ state => ⟨h.key, fun p hp => ?_, (hset state).unsaved⟩⟩
    obtain ⟨i, hi, hslot⟩ := (hset state).held p hp
    exact ⟨i, hi, hslot⟩

theorem HeldAfter.reply {state : PacketHandlerState} {w' : World Key} (h : HeldAfter w state w')
    (reply : List (Reply Key)) : HeldAfter w state { w' with reply := reply } :=
  ⟨h.key, h.held, h.unsaved⟩

theorem barrackHandlerBarrackNameChange_held (hheld : Held w.session.game w.heap) :
    KeepsHeld (barrackHandlerBarrackNameChange env packet packetSize) w := by
  rw [KeepsHeld, barrackHandlerBarrackNameChange, sat_bind, sat_checkSize]
  refine ⟨fun _ => ?_, fun _ => (Steady.refl w).heldAfter hheld _⟩
  rw [then_ok, sat_bind]
  refine (changeBarrackName_held hheld).mono fun r w' h => ?_
  cases r with
  | error state => exact h _
  | ok change =>
    simp only [then_ok, sat_bind, sat_gets, sat_send, sat_ite, sat_pure]
    exact ⟨fun _ => (h _).reply _, fun _ => (h _).reply _⟩

theorem barrackHandlerCommanderMove_held (hheld : Held w.session.game w.heap) :
    KeepsHeld (barrackHandlerCommanderMove env packet packetSize) w := by
  have hsame := (Steady.refl w).heldAfter hheld
  simp only [KeepsHeld, barrackHandlerCommanderMove, readPositionXYZ, sat_bind, sat_checkSize,
    sat_readU8, sat_readU32, sat_gets, sat_pure, then_ok, then_error]
  refine ⟨fun _ => ?_, fun _ => hsame _⟩
  rw [accountSessionGetCommanderByIndex]
  split
  case isTrue => simpa using hsame _
  case isFalse hrange =>
    rw [sat_commanderSlot]
    intro slot hslot
    cases slot with
    | none => simpa using hsame _
    | some commander =>
      simp only [then_ok, sat_bind, sat_updateSession, sat_commanderAt, sat_setCommander, sat_send,
        sat_pure]
      -- The array is as it was, with the commander that is played now.
      refine fun c _ => ⟨rfl, fun p hp => ⟨slotIndex (w.memory packet), ?_, ?_⟩,
        fun h => absurd rfl h⟩
      · exact Int.lt_of_not_ge fun hge => hrange (.inr hge)
      · obtain rfl := Option.some.inj hp
        exact hslot

theorem barrackHandlerStartGame_held (hheld : Held w.session.game w.heap)
    (hindex : Fitting .cbStartGame packetSize → ∃ slot,
      SlotHolds w (slotIndex (w.memory (packet + 2))) slot) :
    KeepsHeld (barrackHandlerStartGame env packet packetSize) w := by
  have hsame := (Steady.refl w).heldAfter hheld
  simp only [KeepsHeld, barrackHandlerStartGame, sat_bind, sat_checkSize, sat_readU16, sat_readU8,
    sat_gets, sat_commanderSlot, sat_require, then_ok, then_error]
  refine ⟨fun hsize slot hslot => ⟨fun hsome => ?_, fun _ => hsame _⟩, fun _ => hsame _⟩
  obtain ⟨_, hlt, -⟩ := hindex hsize
  obtain ⟨p, rfl⟩ := Option.isSome_iff_exists.mp hsome
  cases zoneServers[(UInt16.ofNat (leValue (w.memory.read packet 2))).toNat]? with
  | none => simpa using hsame _
  | some zoneServer =>
    refine Sat.bind (steady_redisUpdateSession env _ w (.refl w))
      (fun _ _ h => h.heldAfter hheld _) fun saved w₁ h₁ => ?_
    have hmoved : ∀ write, Steady w (w₁.written env write) := fun write =>
      ⟨by rw [written_session, h₁.key], by rw [written_session, h₁.game],
        by rw [written_heap]; exact h₁.arrays⟩
    simp only [startGameMove, redisMoveGameSession, sat_bind, sat_require, sat_perform, sat_pure,
      then_ok, then_error, sat_updateSession, sat_commanderAt, sat_send]
    refine ⟨fun _ => ⟨fun _ c _ => ⟨(hmoved _).key, fun q hq =>
      ⟨slotIndex (w.memory (packet + 2)), ?_, ?_⟩, fun h => absurd rfl h⟩,
      fun _ => (hmoved _).heldAfter hheld _⟩, fun _ => h₁.heldAfter hheld _⟩
    · rw [(hmoved _).game]
      exact hlt
    · obtain rfl := Option.some.inj hq
      rw [(hmoved _).game]
      exact slot_of_prefix (hmoved _).arrays hslot

theorem barrackHandlerCommanderDestroy_held (hheld : Held w.session.game w.heap) :
    KeepsHeld (barrackHandlerCommanderDestroy env packet packetSize) w := by
  have hsame := (Steady.refl w).heldAfter hheld
  simp only [KeepsHeld, barrackHandlerCommanderDestroy, sat_bind, sat_checkSize, sat_readU8,
    sat_gets, sat_commanderSlot, then_ok, then_error]
  refine ⟨fun _ slot _ => ?_, fun _ => hsame _⟩
  cases slot with
  | none => simpa using hsame _
  | some commanderToDelete =>
    rw [sat_bind, sat_commanderAt]
    intro c _
    rw [then_ok, mySqlCommanderDelete, sat_bind, sat_bind]
    refine (steady_perform env _ w (.refl w)).mono fun r w₁ h₁ => ?_
    cases r with
    | error state => exact h₁.heldAfter hheld _
    | ok answer =>
      simp only [then_ok, sat_pure, sat_ite, sat_bind, sat_updateSession, sat_send]
      refine ⟨fun _ r w' hrun => ?_, fun _ => (h₁.heldAfter hheld _).reply _⟩
      obtain ⟨-, rfl⟩ := destroySlot_sat _ _ _ r w' hrun
      have hnone : NonePlayed w.session.socket.sessionKey w' :=
        nonePlayed_destroySlot _ _ _ (by exact ⟨h₁.key, rfl⟩) _ w' hrun
      simp only [then_ok, sat_bind, sat_send, sat_pure]
      exact ⟨hnone.key, held_of_none hnone.current, fun h => absurd rfl h⟩

/-- A commander that is put into a free slot takes no other one's place. -/
theorem held_setSlot {game : GameSession} {h : Heap Key} {a : CommandersPtr}
    {slots : List (Option CommanderPtr)} {i : ℕ}
    (hcommanders : game.accountSession.commanders = some a) (hslots : h.arrays[a]? = some slots)
    (hfree : slots[i]? = some none) (q : Option CommanderPtr) (hheld : Held game h) :
    Held game (h.setArray a (slots.set i q)) := by
  intro p hp
  obtain ⟨j, hj, hslot⟩ := hheld p hp
  refine ⟨j, hj, ?_⟩
  rw [Heap.slot, hcommanders] at hslot ⊢
  split at hslot
  case isFalse => exact absurd hslot (Option.some_ne_none _).symm
  case isTrue hpos =>
    rw [Option.bind_some, hslots, Option.bind_some] at hslot
    have hother : i ≠ j.toNat := by
      rintro rfl
      cases hfree.symm.trans hslot
    have hlt := (List.getElem?_eq_some_iff.mp hslots).1
    rw [if_pos hpos, Option.bind_some, Heap.setArray, List.getElem?_set_self hlt, Option.bind_some,
      List.getElem?_set_ne hother]
    exact hslot

theorem barrackHandlerCommanderCreate_held (hheld : Held w.session.game w.heap) :
    KeepsHeld (barrackHandlerCommanderCreate env packet packetSize) w := by
  have hsame := (Steady.refl w).heldAfter hheld
  simp only [KeepsHeld, barrackHandlerCommanderCreate, sat_bind, sat_checkSize, sat_readU8,
    sat_gets, then_ok, then_error, accountSessionIsCommanderSlotEmpty, sat_ite, sat_pure,
    sat_commanderSlot, sat_require]
  refine ⟨fun _ => ⟨fun _ => ⟨fun h => absurd h Bool.false_ne_true, fun _ => hsame _⟩,
    fun _ slot hslot => ⟨fun hempty => ?_, fun _ => hsame _⟩⟩, fun _ => hsame _⟩
  obtain rfl := Option.isNone_iff_eq_none.mp hempty
  refine (steady_of_untouched fun _ => preserves_newCommander env _ packet) w (.refl w)
    |>.mono fun r w₁ h₁ => ?_
  rcases r with state | msgType | commander
  · exact h₁.heldAfter hheld _
  · simp only [then_ok, sat_bind, sat_send, sat_pure]
    exact (h₁.heldAfter hheld _).reply _
  rw [then_ok, sat_bind]
  refine (steady_mySqlCommanderInsert env commander w₁ h₁).mono fun r w₂ h₂ => ?_
  rcases r with state | _ | commanderId
  · exact h₂.heldAfter hheld _
  · rw [then_ok, sat_pure]
    exact h₂.heldAfter hheld _
  rw [then_ok, sat_bind]
  have hdup : Preserves (Steady w) (commanderDup env
      (pure { commander with commanderId := commanderId })) :=
    steady_of_untouched fun w₀ => preserves_commanderDup env w₀ (preserves_pure _)
  refine (hdup w₂ h₂).mono fun r w₃ h₃ => ?_
  rcases r with state | _ | dupCommander
  · exact h₃.heldAfter hheld _
  · rw [then_ok, sat_pure]
    exact h₃.heldAfter hheld _
  · simp only [then_ok, sat_bind, sat_setCommanderSlot, sat_send, sat_pure]
    intro a ha slots hslots hlt
    -- The slot is still as free as it was found.
    have hfree : slots[(slotIndex (w.memory packet)).toNat]? = some none := by
      have hstill := slot_of_prefix h₃.arrays hslot
      rw [Heap.slot, ha] at hstill
      split at hstill
      · rw [Option.bind_some, hslots, Option.bind_some] at hstill
        exact hstill
      · cases hstill
    refine ⟨h₃.key, held_setSlot ?_ hslots hfree _ (h₃.heldAfter hheld .ok).held,
      fun h => absurd rfl h⟩
    rw [h₃.game]
    exact ha

theorem barrackHandlers_held {type : PacketType} {handler : Handler Key}
    (hhandler : barrackHandlers.lookup type = some handler)
    (hcareful : Careful env type packet packetSize w) (hheld : Held w.session.game w.heap) :
    KeepsHeld (handler env packet packetSize) w := by
  cases type <;> cases hhandler
  · exact barrackHandlerLogin_held hheld hcareful.current
  · exact barrackHandlerLoginByPassport_held hheld hcareful.current
  · exact barrackHandlerStartBarrack_held hheld hcareful.current
  · exact .of_steady hheld ((steady_send _).bind fun _ => (steady_send _).bind fun _ =>
      preserves_pure _)
  · exact barrackHandlerBarrackNameChange_held hheld
  · exact barrackHandlerCommanderCreate_held hheld
  · exact barrackHandlerCommanderDestroy_held hheld
  · exact barrackHandlerCommanderMove_held hheld
  · exact barrackHandlerStartGame_held hheld fun hsize =>
      hcareful.slotHolds rfl hsize fun h => absurd h Bool.false_ne_true
  · exact .of_steady hheld ((steady_send _).bind fun _ => preserves_pure _)
  · exact barrackHandlerCheckClientIntegrity_held hheld hcareful.current

theorem stays_redisUpdateSession (env : Env Key) (session : Session) :
    Stays (redisUpdateSession env session) := by
  refine Stays.bind ((stays_act _).bind fun _ => stays_pure _) fun saved => .ite ?_ (stays_pure _)
  refine (stays_act _).bind fun account => ?_
  cases session.game.commanderSession.currentCommander with
  | none => exact stays_pure _
  | some p =>
    refine Stays.bind ((stays_gets _).bind fun _ => stays_found _) fun c => (stays_act _).bind
      fun _ => (stays_gets _).bind fun _ => (stays_found _).bind fun eqSlots => ?_
    exact (stays_act _).bind fun _ => stays_pure _

/-- Saving the session leaves it as it is. -/
theorem processOneRequest_held {handler : Handler Key}
    (hhandler : KeepsHeld (handler env packet packetSize) w) :
    KeepsHeld (processOneRequest env handler packet packetSize) w := by
  rw [KeepsHeld, processOneRequest, sat_bind, sat_call]
  refine hhandler.mono fun r w' h => ?_
  rw [then_ok]
  cases hstate : value r with
  | error => exact (sat_pure _ _ _).mpr (hstate ▸ h)
  | ok => exact (sat_pure _ _ _).mpr (hstate ▸ h)
  | updateSession =>
    rw [sat_bind, sat_gets, then_ok]
    rw [sat_bind]
    intro saved w'' hrun
    have hsaved := steady_redisUpdateSession env _ w' (.refl w') _ _ hrun
    obtain ⟨saved, rfl⟩ := stays_redisUpdateSession env _ w' _ _ hrun
    refine (sat_pure _ _ _).mpr ⟨hsaved.key.trans h.key, ?_, fun hne => absurd rfl hne⟩
    exact (hsaved.heldAfter h.held .ok).held
  | deleteSession => exact sat_fault w' _

end Handlers

/-! ### Runs -/

/-- The sessions that a client has in the barrack are its own, and play commanders that are in
slots. -/
def ClientHeld (barrack : UInt16) (sessionKey : Chars 11) (s : Realm Key) : Prop :=
  ∀ session, s.sessions barrack sessionKey = some session ∨
      s.left barrack sessionKey = some session →
    session.socket.sessionKey = sessionKey ∧ Held session.game (s.heap barrack)

/-- A request of the client to the barrack that meets the conditions. -/
structure CarefulRequest (env : Env Key) (barrack : UInt16) (beyond : ℕ → UInt8)
    (sessionKey : Chars 11) (s : Realm Key) (request : ClientRequest) : Prop where
  routerId : request.routerId = barrack
  sessionKey : request.sessionKey = sessionKey
  careful : Careful (env.withRedis barrack) request.type request.packet request.packetSize
    (s.world beyond request)

section Runs
variable {barrack : UInt16} {sessionKey : Chars 11} {s : Realm Key}

/-- What holds of a new session and of all that a client has in a server holds of the session that
is handed to a handler. -/
theorem Realm.session_of_client {Q : Session → Prop} (s : Realm Key) (beyond : ℕ → UInt8)
    (request : ClientRequest) (hnew : Q (sessionNew beyond request.routerId request.sessionKey))
    (h : ∀ session, s.sessions request.routerId request.sessionKey = some session ∨
      s.left request.routerId request.sessionKey = some session → Q session) :
    Q (s.session beyond request) := by
  rw [Realm.session]
  cases hsession : s.session? request with
  | none => exact hnew
  | some session =>
    refine h session ?_
    rw [Realm.session?] at hsession
    split at hsession
    · rcases hleft : s.left request.routerId request.sessionKey with _ | left
      · rw [hleft] at hsession
        exact .inl hsession
      · rw [hleft] at hsession
        exact .inr hsession
    · exact .inl hsession

/-- A new session plays no commander. -/
theorem ClientHeld.session (h : ClientHeld barrack sessionKey s) (beyond : ℕ → UInt8)
    {request : ClientRequest} (hrouter : request.routerId = barrack)
    (hkey : request.sessionKey = sessionKey) :
    (s.session beyond request).socket.sessionKey = sessionKey ∧
      Held (s.session beyond request).game (s.heap barrack) := by
  subst hrouter hkey
  exact s.session_of_client beyond request ⟨rfl, held_of_none rfl⟩ h

theorem update₂_self {α β γ : Type} [DecidableEq α] [DecidableEq β] (f : α → β → γ) (a : α)
    (b : β) (c : γ) : update₂ f a b c a b = c := by
  rw [update₂, Function.update_self, Function.update_self]

/-- What holds of the session that a request leaves, and of the one it was given unless it saves
another, holds of all that the client has then. -/
theorem processed_of_client {Q : Session → Heap Key → Prop} {given : Session}
    {request : ClientRequest} {state : PacketHandlerState} {w : World Key}
    (hkey : w.session.socket.sessionKey = request.sessionKey) (hleft : Q w.session w.heap)
    (hgiven : state ≠ .updateSession → Q given w.heap) (session : Session)
    (hsession : ((s.store request.routerId request.sessionKey given).processed request state
        w).sessions request.routerId request.sessionKey = some session ∨
      ((s.store request.routerId request.sessionKey given).processed request state w).left
        request.routerId request.sessionKey = some session) :
    Q session (((s.store request.routerId request.sessionKey given).processed request state
      w).heap request.routerId) := by
  rcases hsession with hsession | hsession
  · simp only [Realm.processed] at hsession ⊢
    rw [Function.update_self]
    split at hsession
    · rw [hkey, update₂_self] at hsession
      cases hsession
      exact hleft
    case isFalse hstate =>
      dsimp only [Realm.store] at hsession
      rw [update₂_self] at hsession
      cases hsession
      exact hgiven hstate
  · simp only [Realm.processed] at hsession ⊢
    rw [update₂_self] at hsession
    rw [Function.update_self]
    split at hsession
    · cases hsession
    · cases hsession
      exact hleft

/-- What the client has when a request has been processed. -/
theorem clientHeld_processed {beyond : ℕ → UInt8} {request : ClientRequest}
    {state : PacketHandlerState} {w : World Key}
    (hkey : (s.session beyond request).socket.sessionKey = request.sessionKey)
    (h : HeldAfter (s.world beyond request) state w) :
    ClientHeld request.routerId request.sessionKey
      ((s.store request.routerId request.sessionKey (s.session beyond request)).processed request
        state w) := by
  have hkey' : w.session.socket.sessionKey = request.sessionKey := h.key.trans hkey
  exact processed_of_client (Q := fun session heap =>
    session.socket.sessionKey = request.sessionKey ∧ Held session.game heap) hkey'
      ⟨hkey', h.held⟩ fun hstate => ⟨hkey, h.unsaved hstate⟩

variable [DecidableEq Key] {env : Env Key} {beyond : ℕ → UInt8}

theorem realmStep_clientHeld {request : ClientRequest} {s' : Realm Key}
    (h : ClientHeld barrack sessionKey s)
    (hrequest : CarefulRequest env barrack beyond sessionKey s request)
    (hstep : realmStep env barrack beyond s request = some s') :
    ClientHeld barrack sessionKey s' := by
  obtain ⟨hrouter, hsessionKey, hcareful⟩ := hrequest
  obtain ⟨hkey, hheld⟩ := h.session beyond hrouter hsessionKey
  subst hrouter hsessionKey
  unfold realmStep at hstep
  rw [packetHandlers, if_pos rfl] at hstep
  cases hhandler : (barrackHandlers.lookup request.type : Option (Handler Key)) with
  | none =>
    rw [hhandler] at hstep
    cases hstep
    exact clientHeld_processed hkey ((Steady.refl _).heldAfter hheld _)
  | some handler =>
    rw [hhandler] at hstep
    obtain ⟨⟨state, w⟩, hrun, hstep⟩ := Option.bind_eq_some_iff.mp hstep
    cases hstep
    have hkeeps := processOneRequest_held (barrackHandlers_held hhandler hcareful hheld)
    exact clientHeld_processed hkey ((sat_iff_run _ _ _).mp hkeeps _ _ hrun)

theorem clientHeld_inductive : Inductive (realm env barrack beyond)
    (CarefulRequest env barrack beyond sessionKey) (ClientHeld barrack sessionKey) where
  init s hs := by
    obtain ⟨heap, rfl⟩ := hs
    rintro session (hsession | hsession) <;> cases hsession
  step _ _ _ h hrequest hstep := realmStep_clientHeld h hrequest hstep

/-- In every run of requests of one client that all meet the conditions, the commander that is
played is in a slot, every slot that is looked at is one of the array, a request about a slot
that does not suit it is answered with an error and changes nothing, and the commanders are
loaded into slots. -/
theorem commanderSlots_safe (hs : ReachableUnder (realm env barrack beyond)
    (CarefulRequest env barrack beyond sessionKey) s) :
    ClientHeld barrack sessionKey s ∧ ∀ request handler,
      CarefulRequest env barrack beyond sessionKey s request →
        barrackHandlers.lookup request.type = some handler →
          SlotAnswered (env.withRedis barrack) request.type handler request.packet
            request.packetSize (s.world beyond request) ∧
          SlotsLoaded (env.withRedis barrack) request.type (s.world beyond request) :=
  ⟨clientHeld_inductive.reachable hs, fun _ _ hrequest hhandler =>
    ⟨slotAnswered_of_careful hhandler hrequest.careful, slotsLoaded_of_careful hrequest.careful⟩⟩

end Runs

/-! ### One client -/

/-- The client of the requests to the barrack 1000. -/
def oneClient : Chars 11 := Vector.replicate 11 0

/-- The request to start the game with a commander in the zone 0, and the one to destroy it. -/
def startGameRequest (commanderIndex : UInt8) : ClientRequest :=
  barrackRequest .cbStartGame [0, 0, commanderIndex] 3

def destroyRequest (commanderIndex : UInt8) : ClientRequest :=
  barrackRequest .cbCommanderDestroy [commanderIndex] 1

/-- What the client's session has in the barrack, when there is one. -/
def clientHas (p : Session → Heap UInt64 → Bool) (s : Realm UInt64) : Bool :=
  (s.sessions 1000 oneClient).any fun session => p session (s.heap 1000)

/-- The world in which a request of the client is processed. -/
def clientWorld (s : Realm UInt64) (request : ClientRequest) : World UInt64 :=
  s.world (fun _ => 0) request

/-- No commander is played. -/
def idle (s : Realm UInt64) (request : ClientRequest) : Bool :=
  (clientWorld s request).session.game.commanderSession.currentCommander.isNone

/-- The session has an array of five slots. -/
def hasFive (s : Realm UInt64) (request : ClientRequest) : Bool :=
  let w := clientWorld s request
  w.session.game.accountSession.commandersCountMax == 5 &&
    (w.session.game.accountSession.commanders.bind (w.heap.arrays[·]?)).any (·.length == 5)

theorem allocated_of_hasFive {s : Realm UInt64} {request : ClientRequest}
    (h : hasFive s request = true) :
    (clientWorld s request).session.game.accountSession.commandersCountMax = 5 ∧
      Allocated (clientWorld s request).session.game (clientWorld s request).heap := by
  simp only [hasFive, Bool.and_eq_true, beq_iff_eq, Option.any_eq_true] at h
  obtain ⟨hcount, slots, hslots, hlength⟩ := h
  obtain ⟨a, ha, hslots⟩ := Option.bind_eq_some_iff.mp hslots
  exact ⟨hcount, a, slots, ha, hslots, by omega⟩

/-- Once the client has started the barrack, it may start the game with the first commander. -/
theorem commanderSlots_safe_started :
    ∃ s, (realm oneAccountEnv 1000 fun _ => 0).run emptyRealm₀
        [barrackRequest .cbLogin [] 56, barrackRequest .cbStartBarrack [] 0] = some s ∧
      ClientHeld 1000 oneClient s ∧
      SlotAnswered (oneAccountEnv.withRedis 1000) .cbStartGame barrackHandlerStartGame 0 3
        (clientWorld s (startGameRequest 1)) := by
  have hlogin : ((realm oneAccountEnv 1000 fun _ => 0).run emptyRealm₀
      [barrackRequest .cbLogin [] 56]).any (idle · (barrackRequest .cbStartBarrack [] 0)) =
        true := by decide +kernel
  have hstart : ((realm oneAccountEnv 1000 fun _ => 0).run emptyRealm₀
      [barrackRequest .cbLogin [] 56, barrackRequest .cbStartBarrack [] 0]).any
        (hasFive · (startGameRequest 1)) = true := by decide +kernel
  obtain ⟨s₁, hs₁, hidle₁⟩ := (Option.any_eq_true _ _).mp hlogin
  obtain ⟨s₂, hs₂, hfive⟩ := (Option.any_eq_true _ _).mp hstart
  obtain ⟨hcount, hallocated⟩ := allocated_of_hasFive hfive
  have hreached : ReachableUnder (realm oneAccountEnv 1000 fun _ => 0)
      (CarefulRequest oneAccountEnv 1000 (fun _ => 0) oneClient) s₂ := by
    refine .run (.init ⟨_, rfl⟩) _ ?_ hs₂
    refine ⟨⟨rfl, rfl, ?_⟩, fun s hs => ⟨⟨rfl, rfl, ?_⟩, fun _ _ => trivial⟩⟩
    · refine ⟨fun _ hoff => ?_, fun _ hoff => ?_, fun h => absurd h Bool.false_ne_true,
        fun _ => rfl⟩
      · cases hoff
      · cases hoff
    · have hstep : (realm oneAccountEnv 1000 fun _ => 0).run emptyRealm₀
          [barrackRequest .cbLogin [] 56] = some s := Option.bind_eq_some_iff.mpr ⟨s, hs, rfl⟩
      obtain rfl := Option.some.inj (hs₁.symm.trans hstep)
      refine ⟨fun _ hoff => ?_, fun _ hoff => ?_, fun _ rows hrows => ?_, fun _ => ?_⟩
      · cases hoff
      · cases hoff
      · cases hrows
        exact .inr ⟨rfl, Nat.le_add_left 1 4⟩
      · exact Option.isNone_iff_eq_none.mp hidle₁
  have hrequest : CarefulRequest oneAccountEnv 1000 (fun _ => 0) oneClient s₂
      (startGameRequest 1) := by
    refine ⟨rfl, rfl, ?_, ?_, fun h => absurd h Bool.false_ne_true, fun h => h.elim⟩
    · rintro _ ⟨⟩ - -
      exact ⟨Nat.le_refl 1, (show 1 ≤ 5 by decide).trans_eq hcount.symm⟩
    · rintro _ ⟨⟩ - -
      exact hallocated
  obtain ⟨hheld, hanswered⟩ := commanderSlots_safe hreached
  exact ⟨s₂, hs₂, hheld, (hanswered (startGameRequest 1) _ hrequest rfl).1⟩

/-- The commander to destroy is looked for before the first slot, and the one that is played is
forgotten by the array when the barrack is started again. -/
theorem commanderSlots_unsafe :
    (∃ s, (realm oneAccountEnv 1000 fun _ => 0).run emptyRealm₀
        [barrackRequest .cbLogin [] 56, barrackRequest .cbStartBarrack [] 0] = some s ∧
      ¬ SlotAnswered (oneAccountEnv.withRedis 1000) .cbCommanderDestroy
        barrackHandlerCommanderDestroy 0 1 (clientWorld s (destroyRequest 0))) ∧
    ∃ s, (realm oneAccountEnv 1000 fun _ => 0).run emptyRealm₀
        [barrackRequest .cbLogin [] 56, barrackRequest .cbStartBarrack [] 0,
          barrackRequest .cbCommanderMove [1] 21, barrackRequest .cbStartBarrack [] 0] = some s ∧
      ¬ ClientHeld 1000 oneClient s := by
  constructor
  · have hrun : ((realm oneAccountEnv 1000 fun _ => 0).run emptyRealm₀
        [barrackRequest .cbLogin [] 56, barrackRequest .cbStartBarrack [] 0]).any (fun s =>
          ((barrackHandlerCommanderDestroy (oneAccountEnv.withRedis 1000) 0 1).run
            (clientWorld s (destroyRequest 0))).isNone) = true := by decide +kernel
    obtain ⟨s, hs, hfault⟩ := (Option.any_eq_true _ _).mp hrun
    refine ⟨s, hs, fun hanswered => ?_⟩
    rcases hanswered 0 rfl with ⟨slot, ⟨-, hslot⟩, -⟩ | herror
    · exact absurd hslot (Option.some_ne_none slot).symm
    · rw [herror] at hfault
      cases hfault
  · have hrun : ((realm oneAccountEnv 1000 fun _ => 0).run emptyRealm₀
        [barrackRequest .cbLogin [] 56, barrackRequest .cbStartBarrack [] 0,
          barrackRequest .cbCommanderMove [1] 21, barrackRequest .cbStartBarrack [] 0]).any
            (clientHas fun session heap =>
              session.game.commanderSession.currentCommander == some 0 &&
                session.game.accountSession.commanders == some 1 &&
                  heap.arrays[1]? == some [some 1, none, none, none, none]) = true := by
      decide +kernel
    obtain ⟨s, hs, hlost⟩ := (Option.any_eq_true _ _).mp hrun
    obtain ⟨session, hsession, hlost⟩ := (Option.any_eq_true _ _).mp hlost
    simp only [Bool.and_eq_true, beq_iff_eq] at hlost
    obtain ⟨⟨hcurrent, hcommanders⟩, harray⟩ := hlost
    refine ⟨s, hs, fun hheld => ?_⟩
    obtain ⟨-, hheld⟩ := hheld session (.inl hsession)
    obtain ⟨i, -, hslot⟩ := hheld 0 hcurrent
    rw [Heap.slot, hcommanders, Option.bind_some, harray, Option.bind_some] at hslot
    split at hslot
    · have hmem := List.mem_of_getElem? hslot
      revert hmem
      decide
    · cases hslot

end R1Emu.Handler
