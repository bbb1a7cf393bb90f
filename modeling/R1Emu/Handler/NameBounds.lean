import R1Emu.Game.Names
import R1Emu.Game.Payload
import R1Emu.Handler.ErrorDefects

/-!
# The names that clients send

Three handlers of the barrack are given a name in an array of their packet, and read it as a
string. What ends the string is up to the bytes: the first zero may lie in the array, in one of
the fields behind it, or behind the packet.
-/
namespace R1Emu.Handler
open R1Emu.Actor R1Emu.Game R1Emu.Lib R1Emu.Lib.Stage R1Emu.Lib.Bytes R1Emu.Server
open R1Emu.Packet hiding bind_ok bind_error
open R1Emu.Commander (eqSlotCount)

variable {Key : Type}

/-- The handlers that are given a name. -/
inductive NameHandler
  | login
  | barrackNameChange
  | commanderCreate

namespace NameHandler

def type : NameHandler → PacketType
  | login => .cbLogin
  | barrackNameChange => .cbBarracknameChange
  | commanderCreate => .cbCommanderCreate

/-- The size of the structure that is laid over the packet. -/
def structSize : NameHandler → ℕ
  | login => 56
  | barrackNameChange => 64
  | commanderCreate => 82

def handler : NameHandler → Handler Key
  | login => barrackHandlerLogin
  | barrackNameChange => barrackHandlerBarrackNameChange
  | commanderCreate => barrackHandlerCommanderCreate

/-- Where the array with the name lies in the packet. -/
def nameOffset : NameHandler → ℕ
  | login => 0
  | barrackNameChange => 0
  | commanderCreate => 1

def nameSize : NameHandler → ℕ
  | login => 33
  | barrackNameChange => 64
  | commanderCreate => 65

/-- From where, and how many bytes, the functions read of a name: those that look for the end,
the loop over the characters, the comparison of whole arrays, and the copy into an array. -/
def scans (nameLength : ℕ) : NameHandler → List (ℕ × ℕ)
  | login => [(0, nameLength + 1), (0, min 33 (nameLength + 1))]
  | barrackNameChange => [(0, nameLength + 1), (0, nameLength), (0, 64), (0, nameLength + 1),
      (0, min 64 (nameLength + 1))]
  | commanderCreate => [(1, nameLength + 1), (1, nameLength), (1, min 65 (nameLength + 1))]

end NameHandler

/-- The slot that a new commander is for is in range and empty. -/
def FindsSlotEmpty (w : World Key) (packet : ℕ) : Prop :=
  accountSessionIsCommanderSlotEmpty w.session.game.accountSession (slotIndex (w.memory packet)) w =
    some (.ok true, w)

/-- The handler gets to the name. -/
def NameHandler.ReadsName (w : World Key) (packet : ℕ) : NameHandler → Prop
  | login => True
  | barrackNameChange => True
  | commanderCreate => FindsSlotEmpty w packet

/-- The name, up to the first zero in memory. -/
def NameHandler.name (w : World Key) (packet : ℕ) (self : NameHandler) : List UInt8 :=
  stringFrom w.memory (2 ^ 64) (packet + self.nameOffset)

/-- The array that is sent for the name has a terminator. -/
def NameHandler.Terminates (w : World Key) (packet : ℕ) (self : NameHandler) : Prop :=
  0 ∈ w.memory.read (packet + self.nameOffset) self.nameSize

/-- The payload has one, in the array or behind it. -/
def NameHandler.Ends (w : World Key) (packet packetSize : ℕ) (self : NameHandler) : Prop :=
  0 ∈ w.memory.read (packet + self.nameOffset) (packetSize - self.nameOffset)

/-- No update of the session is reported, and none is made. -/
def Rejects (w : World Key) (r : Except PacketHandlerState PacketHandlerState) (w' : World Key) :
    Prop :=
  value r ≠ .updateSession ∧ w'.session = w.session ∧ w'.heap = w.heap

/-- What is read of a name is in the payload, a name without a terminator in its array is
rejected, and all names that are kept end in their arrays. -/
structure NamesBounded (env : Env Key) (w : World Key) (packet packetSize : ℕ)
    (handler : NameHandler) : Prop where
  scanned : handler.ReadsName w packet →
    ∀ scan ∈ handler.scans (handler.name w packet).length, scan.1 + scan.2 ≤ packetSize
  rejected : ¬ handler.Terminates w packet →
    (handler.handler env packet packetSize).Sat w (Rejects w)
  stored : (handler.handler env packet packetSize).Sat w fun _ => World.Named

/-- The database has this account, which is not banned, for the name and the password. -/
def Admits (env : Env Key) (w : World Key) (packet : ℕ) (row : AccountRow) : Prop :=
  row.isBanned = false ∧ ∃ rows,
    env.selectAccount w.writes (NameHandler.login.name w packet)
      (w.memory.read (packet + 33) 16) = .success (some (row :: rows))

/-- The write of the new name of the barrack. -/
def familyNameWrite (w : World Key) (packet : ℕ) : Write :=
  .setFamilyName w.session.game.accountSession.accountId
    (NameHandler.barrackNameChange.name w packet)

/-- All characters are printable, and the database takes the name. -/
def Renames (env : Env Key) (w : World Key) (packet : ℕ) : Prop :=
  (NameHandler.barrackNameChange.name w packet).all isprint = true ∧
    (env.write w.writes (familyNameWrite w packet)).done = true ∧ ∃ flags,
      env.selectFlag (w.written env (familyNameWrite w packet)).writes =
        .success (some (barrackNameChangeOk :: flags))

/-- A name that is read ends in the payload. When the database takes it, it ends in its array,
and so does the family name that the database has. -/
def NamesFit (env : Env Key) (w : World Key) (packet packetSize : ℕ) : NameHandler → Prop
  | .login => NameHandler.login.Ends w packet packetSize ∧ ∀ row, Admits env w packet row →
      NameHandler.login.Terminates w packet ∧ (cString row.familyName).length < 64
  | .barrackNameChange => NameHandler.barrackNameChange.Ends w packet packetSize ∧
      (Renames env w packet → NameHandler.barrackNameChange.Terminates w packet)
  | .commanderCreate => FindsSlotEmpty w packet →
      NameHandler.commanderCreate.Ends w packet packetSize

/-- The size check passes. -/
def NameHandler.Fitting (self : NameHandler) (packetSize : ℕ) : Prop :=
  checkClientPacketSize self.type.size self.structSize packetSize = true

section Decidable
variable (handler : NameHandler) (w : World Key) (packet packetSize : ℕ)

instance : Decidable (handler.Terminates w packet) :=
  inferInstanceAs (Decidable (0 ∈ w.memory.read _ _))

instance : Decidable (handler.Ends w packet packetSize) :=
  inferInstanceAs (Decidable (0 ∈ w.memory.read _ _))

instance : Decidable (handler.Fitting packetSize) :=
  inferInstanceAs (Decidable (checkClientPacketSize _ _ _ = true))

end Decidable

/-! ### Scans -/

section Scans
variable {handler : NameHandler} {w : World Key} {packet packetSize : ℕ}

theorem NameHandler.Fitting.bounds (h : handler.Fitting packetSize) :
    handler.structSize ≤ packetSize ∧ packetSize ≤ handler.structSize + 8 := by
  rw [NameHandler.Fitting, checkClientPacketSize] at h
  simp only [Bool.and_eq_true, decide_eq_true_eq] at h
  have hsmall : handler.structSize + 8 < 2 ^ 64 := by cases handler <;> decide
  rw [Nat.mod_eq_of_lt hsmall] at h
  exact ⟨h.2, h.1.2⟩

theorem NameHandler.Fitting.checkSize (h : handler.Fitting packetSize) :
    checkSize handler.type handler.structSize packetSize w = some (.ok ⟨⟩, w) := by
  rw [Game.checkSize, h]
  rfl

/-- All that is read of a name is in the payload when the name ends there. -/
theorem scans_iff (h : handler.Fitting packetSize) :
    (∀ scan ∈ handler.scans (handler.name w packet).length, scan.1 + scan.2 ≤ packetSize) ↔
      handler.Ends w packet packetSize := by
  obtain ⟨hlower, hupper⟩ := h.bounds
  have hsmall : packetSize - handler.nameOffset ≤ 2 ^ 64 := by
    have hstruct : handler.structSize + 8 ≤ 2 ^ 64 := by cases handler <;> decide
    omega
  rw [NameHandler.Ends, ← length_stringFrom_lt hsmall, ← NameHandler.name]
  generalize (handler.name w packet).length = nameLength
  cases handler <;>
    simp only [NameHandler.scans, NameHandler.nameOffset, NameHandler.structSize,
      List.forall_mem_cons, List.not_mem_nil, false_imp_iff, implies_true, and_true] at * <;>
    omega

end Scans

/-! ### Login -/

section Login
variable {env : Env Key} {w : World Key} {packet packetSize : ℕ}

/-- A login that no account is admitted for. -/
theorem barrackHandlerLogin_rejects (h : ∀ row, ¬ Admits env w packet row) :
    (barrackHandlerLogin env packet packetSize).Sat w (Rejects w) := by
  simp only [barrackHandlerLogin, sat_bind, sat_checkSize, then_ok, then_error, sat_readString,
    sat_readBytes, mySqlGetAccountData, sat_gets]
  refine ⟨fun _ => ?_, fun _ => ⟨by simp, rfl, rfl⟩⟩
  cases hselect : env.selectAccount w.writes (stringFrom w.memory (2 ^ 64) packet)
      (w.memory.read (packet + 33) 16) with
  | error => simp [Rejects]
  | success result =>
    rcases result with _ | _ | ⟨row, rows⟩
    · simp
    · simp [Rejects]
    · have hbanned : row.isBanned = true := by
        by_contra hnot
        exact h row ⟨Bool.eq_false_of_not_eq_true hnot, rows, hselect⟩
      simp [Rejects, hbanned]

/-- A login that an account is admitted for. -/
theorem barrackHandlerLogin_admits (hsize : NameHandler.login.Fitting packetSize)
    {row : AccountRow} (h : Admits env w packet row) : ∃ w',
      barrackHandlerLogin env packet packetSize w = some (.ok .updateSession, w') ∧
        w'.session.game.accountSession.accountName =
          strncpy 33 (NameHandler.login.name w packet) ∧
        w'.session.game.accountSession.familyName = strncpy 64 row.familyName ∧
        w'.heap = w.heap := by
  obtain ⟨hbanned, rows, hselect⟩ := h
  have hdata : mySqlGetAccountData env (stringFrom w.memory (2 ^ 64) packet)
      (w.memory.read (packet + 33) 16) env.uninitialised w = some (.ok (some (true,
        { env.uninitialised with
          accountName := strncpy 33 (stringFrom w.memory (2 ^ 64) packet)
          accountId := row.accountId
          isBanned := row.isBanned
          timeBanned := row.timeBanned
          credits := row.credits
          privilege := row.privilegeLevel
          familyName := strncpy 64 row.familyName
          barrackType := row.barrackType })), w) := by
    rw [mySqlGetAccountData]
    refine (bind_ok rfl _).trans ?_
    change env.selectAccount w.writes (stringFrom w.memory (2 ^ 64) packet) _ = _ at hselect
    rw [hselect]
    rfl
  have hnot : ¬ row.isBanned = true := by rw [hbanned]; exact Bool.false_ne_true
  refine ⟨_, (bind_ok hsize.checkSize _).trans ((bind_ok rfl _).trans ((bind_ok rfl _).trans
    ((bind_ok hdata _).trans ((congrFun (if_neg hnot) w).trans rfl)))), rfl, rfl, rfl⟩

theorem login_bounded_iff (hw : w.Named) (hsize : NameHandler.login.Fitting packetSize) :
    NamesBounded env w packet packetSize .login ↔ NamesFit env w packet packetSize .login := by
  constructor
  · intro hbounded
    refine ⟨(scans_iff hsize).mp (hbounded.scanned trivial), fun row hrow => ?_⟩
    obtain ⟨w', hrun, haccount, hfamily, -⟩ := barrackHandlerLogin_admits hsize hrow
    have hnamed : w'.Named := hbounded.stored _ _ hrun
    constructor
    · apply (terminated_stringFrom (n := 33) (by decide)).mp
      exact haccount ▸ hnamed.accountName
    · exact terminated_strncpy.mp (hfamily ▸ hnamed.familyName)
  · rintro ⟨hends, hadmits⟩
    by_cases hadmitted : ∃ row, Admits env w packet row
    · obtain ⟨row, hrow⟩ := hadmitted
      obtain ⟨w', hrun, haccount, hfamily, hheap⟩ := barrackHandlerLogin_admits hsize hrow
      obtain ⟨hterminates, hshort⟩ := hadmits row hrow
      refine ⟨fun _ => (scans_iff hsize).mpr hends, fun hnot => absurd hterminates hnot, ?_⟩
      rintro r w'' hrun'
      cases hrun.symm.trans hrun'
      refine ⟨haccount ▸ ?_, hfamily ▸ terminated_strncpy.mpr hshort, ?_⟩
      · exact (terminated_stringFrom (by decide)).mpr hterminates
      · rw [hheap]
        exact hw.commanders
    · have hrejects : (barrackHandlerLogin env packet packetSize).Sat w (Rejects w) :=
        barrackHandlerLogin_rejects (not_exists.mp hadmitted)
      refine ⟨fun _ => (scans_iff hsize).mpr hends, fun _ => hrejects, ?_⟩
      exact hrejects.mono fun _ _ h => hw.of_eq h.2.1 (congrArg Heap.commanders h.2.2)

end Login

/-! ### The name of the barrack -/

section BarrackNameChange
variable {env : Env Key} {w : World Key} {packet packetSize : ℕ}

/-- The family name has been set to the name that was sent. -/
structure Renamed (w : World Key) (packet : ℕ) (w' : World Key) : Prop where
  session : w'.session = { w.session with game := { w.session.game with accountSession :=
    { w.session.game.accountSession with
      familyName := strncpy 64 (NameHandler.barrackNameChange.name w packet) } } }
  heap : w'.heap = w.heap

/-- How the change of the name ends: with an error, with the name as it was, or renamed. -/
inductive NameChange (env : Env Key) (w : World Key) (packet : ℕ) :
    Except PacketHandlerState (Int × PacketHandlerState) → World Key → Prop
  | refused {changeStatus : Int} {w' : World Key} (hstatus : changeStatus ≠ barrackNameChangeOk)
      (hsession : w'.session = w.session) (hheap : w'.heap = w.heap) :
      NameChange env w packet (.ok (changeStatus, .error)) w'
  | same (h : w.memory.read packet 64 = w.session.game.accountSession.familyName.toList) :
      NameChange env w packet (.ok (barrackNameChangeOk, .updateSession)) w
  | renamed {w' : World Key} (h : Renames env w packet) (hw' : Renamed w packet w') :
      NameChange env w packet (.ok (barrackNameChangeOk, .updateSession)) w'

theorem mySqlSetFamilyName_answer (env : Env Key) (accountId : UInt64) (familyName : List UInt8)
    (w : World Key) : (mySqlSetFamilyName env accountId familyName).Sat w fun r w' =>
      w' = w.written env (.setFamilyName accountId familyName) ∧ ∃ status, r = .ok status ∧
        (status = barrackNameChangeOk →
          (env.write w.writes (.setFamilyName accountId familyName)).done = true ∧
            ∃ flags, env.selectFlag w'.writes = .success (some (status :: flags))) := by
  simp only [mySqlSetFamilyName, sat_bind, sat_perform, then_ok, sat_ite, sat_gets, sat_pure]
  have herror : barrackNameChangeError ≠ barrackNameChangeOk := by decide
  refine ⟨fun hdone => ?_, fun _ => ⟨trivial, _, rfl, fun h => absurd h herror⟩⟩
  cases hflag : env.selectFlag
      (w.written env (.setFamilyName accountId familyName)).writes with
  | error => exact (sat_pure _ _ _).mpr ⟨rfl, _, rfl, fun h => absurd h herror⟩
  | success result =>
    rcases result with _ | _ | ⟨flag, flags⟩
    · exact sat_fault _ _
    · exact (sat_pure _ _ _).mpr ⟨rfl, _, rfl, fun h => absurd h herror⟩
    · exact (sat_pure _ _ _).mpr ⟨rfl, _, rfl, fun _ => ⟨hdone, flags, hflag⟩⟩

theorem changeBarrackName_ends (env : Env Key) (w : World Key) (packet : ℕ) :
    (changeBarrackName env packet).Sat w (NameChange env w packet) := by
  have herror : barrackNameChangeError ≠ barrackNameChangeOk := by decide
  simp only [changeBarrackName, sat_bind, sat_readString, then_ok, sat_ite, sat_pure, sat_gets,
    sat_readBytes]
  refine ⟨fun _ => .refused herror rfl rfl, fun _ => ⟨fun _ => .refused herror rfl rfl,
    fun hprint => ⟨fun hsame => .same hsame, fun _ => ?_⟩⟩⟩
  refine (mySqlSetFamilyName_answer env _ _ w).mono ?_
  rintro _ w' ⟨rfl, status, rfl, hstatus⟩
  rw [then_ok, sat_ite]
  by_cases hok : status = barrackNameChangeOk
  · obtain rfl := hok
    obtain ⟨hdone, flags, hflags⟩ := hstatus rfl
    have hall : (stringFrom w.memory (2 ^ 64) packet).all isprint = true := by simpa using hprint
    have hrenames : Renames env w packet := ⟨hall, hdone, flags, hflags⟩
    rw [if_neg (not_not.mpr rfl)]
    refine ⟨fun h => absurd rfl h, fun _ => ?_⟩
    rw [updateSession, sat_bind, sat_modify, then_ok, sat_pure]
    apply NameChange.renamed hrenames
    constructor
    · rw [written_session]
      rfl
    · exact written_heap w env (familyNameWrite w packet)
  · have hrefused : NameChange env w packet (.ok (1, .error))
        (w.written env (familyNameWrite w packet)) :=
      .refused (by decide) (written_session w env _) (written_heap w env _)
    rw [if_pos hok]
    exact ⟨fun _ => (sat_pure _ _ _).mpr hrefused, fun h => absurd Int.one_ne_zero h⟩

/-- A name that the database takes, and that is another one, is kept. -/
theorem changeBarrackName_renames (h : Renames env w packet)
    (hempty : ¬ NameHandler.barrackNameChange.name w packet = [])
    (hsame : ¬ w.memory.read packet 64 = w.session.game.accountSession.familyName.toList) :
    ∃ w', changeBarrackName env packet w = some (.ok (barrackNameChangeOk, .updateSession), w') := by
  obtain ⟨hprint, hdone, flags, hflags⟩ := h
  have hprintable : ¬ (!(NameHandler.barrackNameChange.name w packet).all isprint) = true := by
    rw [hprint]
    exact Bool.false_ne_true
  have hset : mySqlSetFamilyName env w.session.game.accountSession.accountId
      (NameHandler.barrackNameChange.name w packet) w =
        some (.ok barrackNameChangeOk, w.written env (familyNameWrite w packet)) := by
    have hwrites : (gets (·.writes) : Handling Key (List Write))
        (w.written env (familyNameWrite w packet)) =
          some (.ok (w.written env (familyNameWrite w packet)).writes,
            w.written env (familyNameWrite w packet)) := rfl
    rw [mySqlSetFamilyName]
    refine (bind_ok rfl _).trans ((congrFun (if_pos hdone) _).trans ((bind_ok hwrites _).trans ?_))
    rw [hflags]
    rfl
  have hname : (readString packet : Handling Key (List UInt8)) w =
      some (.ok (NameHandler.barrackNameChange.name w packet), w) := rfl
  have hbytes : (readBytes packet 64 : Handling Key (List UInt8)) w =
      some (.ok (w.memory.read packet 64), w) := rfl
  refine ⟨{ w.written env (familyNameWrite w packet) with session := { w.session with
    game := { w.session.game with accountSession := { w.session.game.accountSession with
      familyName := strncpy 64 (NameHandler.barrackNameChange.name w packet) } } } }, ?_⟩
  rw [changeBarrackName]
  refine (bind_ok hname _).trans ((congrFun (if_neg hempty) w).trans ?_)
  refine (congrFun (if_neg hprintable) w).trans ((bind_ok rfl _).trans ?_)
  refine (bind_ok hbytes _).trans ((congrFun (if_neg hsame) w).trans ?_)
  refine (bind_ok hset _).trans ?_
  rw [← written_session w env (familyNameWrite w packet)]
  rfl

/-- The handler reports an update only with the status of the change. -/
theorem barrackHandlerBarrackNameChange_ends (env : Env Key) (w : World Key)
    (packet packetSize : ℕ) :
    (barrackHandlerBarrackNameChange env packet packetSize).Sat w fun r w' => Rejects w r w' ∨
      (w'.session = w.session ∧ w'.heap = w.heap ∧
        w.memory.read packet 64 = w.session.game.accountSession.familyName.toList) ∨
      (Renames env w packet ∧ Renamed w packet w') := by
  simp only [barrackHandlerBarrackNameChange, sat_bind, sat_checkSize, then_ok, then_error]
  refine ⟨fun _ => ?_, fun _ => .inl ⟨by simp, rfl, rfl⟩⟩
  refine (changeBarrackName_ends env w packet).mono ?_
  rintro _ w' hchange
  cases hchange with
  | refused hstatus hsession hheap =>
    simp only [then_ok, sat_bind, sat_gets, sat_send, sat_ite, sat_pure]
    exact ⟨fun _ => .inl ⟨by simp, hsession, hheap⟩, fun h => absurd hstatus h⟩
  | same hsame =>
    simp only [then_ok, sat_bind, sat_gets, sat_send, sat_ite, sat_pure]
    exact ⟨fun h => absurd rfl h, fun _ => .inr (.inl ⟨trivial, trivial, hsame⟩)⟩
  | renamed hrenames hrenamed =>
    simp only [then_ok, sat_bind, sat_gets, sat_send, sat_ite, sat_pure]
    exact ⟨fun h => absurd rfl h,
      fun _ => .inr (.inr ⟨hrenames, hrenamed.session, hrenamed.heap⟩)⟩

/-- A family name ends in its array, so it is not the same as a name that does not. -/
theorem not_same_of_not_terminates (hw : w.Named)
    (h : ¬ NameHandler.barrackNameChange.Terminates w packet) :
    ¬ w.memory.read packet 64 = w.session.game.accountSession.familyName.toList := by
  intro hsame
  apply h
  change 0 ∈ w.memory.read packet 64
  rw [hsame]
  exact hw.familyName

theorem not_rejects_of_renames (hw : w.Named)
    (hsize : NameHandler.barrackNameChange.Fitting packetSize) (h : Renames env w packet)
    (hterminates : ¬ NameHandler.barrackNameChange.Terminates w packet) :
    ¬ (barrackHandlerBarrackNameChange env packet packetSize).Sat w (Rejects w) := by
  intro hrejects
  have hempty : ¬ NameHandler.barrackNameChange.name w packet = [] := by
    intro hempty
    apply hterminates
    have hlength : (stringFrom w.memory (2 ^ 64) packet).length < 64 := by
      change stringFrom w.memory (2 ^ 64) packet = [] at hempty
      rw [hempty]
      decide
    exact (length_stringFrom_lt (by decide)).mp hlength
  obtain ⟨w', hrun⟩ := changeBarrackName_renames h hempty (not_same_of_not_terminates hw hterminates)
  have hupdate : ∃ w'', barrackHandlerBarrackNameChange env packet packetSize w =
      some (.ok .updateSession, w'') :=
    ⟨_, (bind_ok hsize.checkSize _).trans ((bind_ok hrun _).trans rfl)⟩
  obtain ⟨w'', hupdate⟩ := hupdate
  exact (hrejects _ _ hupdate).1 rfl

theorem barrackNameChange_bounded_iff (hw : w.Named)
    (hsize : NameHandler.barrackNameChange.Fitting packetSize) :
    NamesBounded env w packet packetSize .barrackNameChange ↔
      NamesFit env w packet packetSize .barrackNameChange := by
  constructor
  · intro hbounded
    refine ⟨(scans_iff hsize).mp (hbounded.scanned trivial), fun hrenames => ?_⟩
    by_contra hterminates
    exact not_rejects_of_renames hw hsize hrenames hterminates (hbounded.rejected hterminates)
  · rintro ⟨hends, hrenames⟩
    have hrun := barrackHandlerBarrackNameChange_ends env w packet packetSize
    refine ⟨fun _ => (scans_iff hsize).mpr hends, fun hterminates => ?_, ?_⟩
    · refine hrun.mono ?_
      rintro r w' (hrejects | ⟨-, -, hsame⟩ | ⟨hrename, -⟩)
      · exact hrejects
      · exact absurd hsame (not_same_of_not_terminates hw hterminates)
      · exact absurd (hrenames hrename) hterminates
    · refine hrun.mono ?_
      rintro r w' (⟨-, hsession, hheap⟩ | ⟨hsession, hheap, -⟩ | ⟨hrename, hrenamed⟩)
      · exact hw.of_eq hsession (congrArg Heap.commanders hheap)
      · exact hw.of_eq hsession (congrArg Heap.commanders hheap)
      · refine ⟨hrenamed.session ▸ hw.accountName, hrenamed.session ▸ ?_, hrenamed.heap ▸ hw.commanders⟩
        exact (terminated_stringFrom (by decide)).mpr (hrenames hrename)

end BarrackNameChange

/-! ### A new commander -/

section CommanderCreate
variable {env : Env Key} {w : World Key} {packet packetSize : ℕ}

/-- No job has a low byte that can be in a name. -/
theorem commanderClass_none {jobId : UInt16} (h : jobId.toNat % 256 < 0x7f) :
    commanderClass jobId = none := by
  unfold commanderClass
  split
  case h_5 => rfl
  all_goals exact absurd h (by decide)

/-- Behind the array of the name comes the job, so a name without a terminator is refused. -/
theorem refused_of_not_terminates (h : ¬ NameHandler.commanderCreate.Terminates w packet)
    (hprint : (NameHandler.commanderCreate.name w packet).all isprint = true) :
    commanderClass (UInt16.ofNat (leValue (w.memory.read (packet + 66) 2))) = none := by
  have hnonzero : ∀ j < 65, w.memory (packet + 1 + j) ≠ 0 := by
    intro j hj hzero
    exact h (Memory.zero_mem_read.mpr ⟨j, hj, hzero⟩)
  have hread : w.memory.read (packet + 66) 2 = [w.memory (packet + 66), w.memory (packet + 67)] := rfl
  have hlow : (w.memory (packet + 66)).toNat < 0x7f := by
    by_cases hzero : w.memory (packet + 66) = 0
    · rw [hzero]
      decide
    · have hmem : w.memory (packet + 1 + 65) ∈ stringFrom w.memory (2 ^ 64) (packet + 1) := by
        apply mem_stringFrom (by decide)
        intro j hj
        rcases Nat.lt_or_eq_of_le hj with hlt | rfl
        · exact hnonzero j hlt
        · rwa [Nat.add_assoc]
      have hchar : isprint (w.memory (packet + 1 + 65)) = true := List.all_eq_true.mp hprint _ hmem
      rw [isprint, Bool.and_eq_true, decide_eq_true_eq, decide_eq_true_eq, UInt8.le_iff_toNat_le,
        UInt8.le_iff_toNat_le, Nat.add_assoc] at hchar
      exact Nat.lt_succ_of_le hchar.2
  apply commanderClass_none
  rw [hread, UInt16.toNat_ofNat']
  simp only [leValue]
  omega

/-- A name without a terminator makes no commander. -/
theorem newCommander_refuses (h : ¬ NameHandler.commanderCreate.Terminates w packet) :
    (newCommander env packet).Sat w fun r w' => w' = w ∧ ∃ msgType, r = .ok (.error msgType) := by
  simp only [newCommander, sat_bind, sat_gets, sat_readString, sat_readU16, sat_readU8, then_ok,
    sat_ite, sat_pure]
  refine ⟨fun _ => ⟨trivial, _, rfl⟩, fun _ => ⟨fun _ => ⟨trivial, _, rfl⟩, fun hprint => ?_⟩⟩
  have hall : (stringFrom w.memory (2 ^ 64) (packet + 1)).all isprint = true := by
    simpa using hprint
  rw [refused_of_not_terminates h hall]
  exact (sat_pure _ _ _).mpr ⟨rfl, _, rfl⟩

theorem sameNames_createDefaultItem (env : Env Key) (slot : Fin eqSlotCount) :
    Preserves w.SameNames (createDefaultItem env slot) :=
  (sameNames_itemFactoryCreate env _ 1).bind fun _ => (preserves_found _).bind fun _ =>
    (sameNames_onHeap fun _ => rfl).bind fun _ => preserves_pure _

theorem sameNames_r1emuGenerateRandom : Preserves w.SameNames (@r1emuGenerateRandom Key) := by
  intro w' h
  rw [sat_r1emuGenerateRandom]
  exact ⟨h.1, h.2⟩

/-- The session and the commanders stay as they are, and a commander that is made has names that
end in their arrays. -/
theorem newCommander_named (env : Env Key) (hw : w.Named)
    (h : NameHandler.commanderCreate.Terminates w packet) :
    (newCommander env packet).Sat w fun r w' => w.SameNames w' ∧
      ∀ c, r = .ok (.ok c) → c.Named := by
  have hself : w.SameNames w := ⟨rfl, rfl⟩
  simp only [newCommander, sat_bind, sat_gets, sat_readString, sat_readU16, sat_readU8, then_ok,
    sat_ite, sat_pure]
  refine ⟨fun _ => ⟨hself, fun _ hc => by cases hc⟩, fun _ =>
    ⟨fun _ => ⟨hself, fun _ hc => by cases hc⟩, fun _ => ?_⟩⟩
  cases commanderClass (UInt16.ofNat (leValue (w.memory.read (packet + 66) 2))) with
  | none => exact (sat_pure _ _ _).mpr ⟨hself, fun _ hc => by cases hc⟩
  | some classId =>
    rw [sat_ite]
    refine ⟨fun _ => (sat_pure _ _ _).mpr ⟨hself, fun _ hc => by cases hc⟩, fun _ => ?_⟩
    have hrandom64 : Preserves w.SameNames (@r1emuGenerateRandom64 Key) :=
      sameNames_r1emuGenerateRandom.bind fun _ => sameNames_r1emuGenerateRandom.bind fun _ =>
        preserves_pure _
    refine (sameNames_r1emuGenerateRandom w hself).bind
      (fun _ _ h => ⟨h, fun _ hc => by cases hc⟩) fun pcId w₁ h₁ => ?_
    refine (hrandom64 w₁ h₁).bind (fun _ _ h => ⟨h, fun _ hc => by cases hc⟩)
      fun socialInfoId w₂ h₂ => ?_
    refine (preserves_equipSlots (sameNames_createDefaultItem env) (List.finRange eqSlotCount) _
      w₂ h₂).bind (fun _ _ h => ⟨h, fun _ hc => by cases hc⟩) fun equippedItems w₃ h₃ => ?_
    rw [sat_pure]
    refine ⟨h₃, fun c hc => ?_⟩
    obtain rfl := Except.ok.inj (Except.ok.inj hc)
    constructor
    · exact (terminated_stringFrom (by decide)).mpr h
    · exact terminated_strncpy.mpr hw.familyName.length_lt

/-- The copy of the new commander has its names. -/
theorem commanderDup_named (hw : w.Named) {c : Commander Key} (hc : c.Named) :
    (commanderDup env (pure c)).Sat w fun _ => World.Named := by
  have hasked : ({ w with heap := { w.heap with attempts := w.heap.attempts + 1 } } :
      World Key).Named := hw.of_eq rfl rfl
  simp only [commanderDup, sat_bind, sat_allocate, then_ok, sat_ite, sat_pure, sat_onHeap]
  exact ⟨fun _ => hasked.newCommander hc, fun _ => hasked⟩

theorem slotEmpty_sat (w : World Key) (accountSession : AccountSession) (i : Int) :
    (accountSessionIsCommanderSlotEmpty accountSession i).Sat w fun r w' => w' = w ∧
      ∃ empty, r = .ok empty := by
  simp only [accountSessionIsCommanderSlotEmpty, sat_ite, sat_pure, sat_bind, sat_commanderSlot,
    then_ok]
  exact ⟨fun _ => ⟨trivial, _, rfl⟩, fun _ _ _ => ⟨trivial, _, rfl⟩⟩

theorem barrackHandlerCommanderCreate_rejects
    (h : ¬ NameHandler.commanderCreate.Terminates w packet) :
    (barrackHandlerCommanderCreate env packet packetSize).Sat w (Rejects w) := by
  have herror : Rejects w (.error .error) w := ⟨by simp, rfl, rfl⟩
  simp only [barrackHandlerCommanderCreate, sat_bind, sat_checkSize, sat_readU8, sat_gets, then_ok,
    then_error]
  refine ⟨fun _ => (slotEmpty_sat w _ _).mono ?_, fun _ => herror⟩
  rintro _ _ ⟨rfl, empty, rfl⟩
  rw [then_ok, sat_bind, sat_require]
  refine ⟨fun _ => ?_, fun _ => herror⟩
  rw [then_ok, sat_bind]
  refine (newCommander_refuses h).mono ?_
  rintro _ _ ⟨rfl, msgType, rfl⟩
  simp only [then_ok, sat_bind, sat_send, sat_pure]
  exact ⟨by simp, rfl, rfl⟩

theorem barrackHandlerCommanderCreate_named (hw : w.Named)
    (h : NameHandler.commanderCreate.Terminates w packet) :
    (barrackHandlerCommanderCreate env packet packetSize).Sat w fun _ => World.Named := by
  simp only [barrackHandlerCommanderCreate, sat_bind, sat_checkSize, sat_readU8, sat_gets, then_ok,
    then_error]
  refine ⟨fun _ => (slotEmpty_sat w _ _).mono ?_, fun _ => hw⟩
  rintro _ _ ⟨rfl, empty, rfl⟩
  rw [then_ok, sat_bind, sat_require]
  refine ⟨fun _ => ?_, fun _ => hw⟩
  rw [then_ok, sat_bind]
  refine (newCommander_named env hw h).mono ?_
  rintro r w₁ ⟨hsame, hcommander⟩
  have h₁ : w₁.Named := hw.of_eq hsame.1 hsame.2
  rcases r with state | msgType | commander
  · exact h₁
  · simp only [then_ok, sat_bind, sat_send, sat_pure]
    exact h₁.of_eq rfl rfl
  have hc := hcommander commander rfl
  simp only [then_ok, mySqlCommanderInsert, sat_bind, sat_gets, sat_found, sat_perform, sat_pure]
  intro eqSlots _
  have h₂ : (w₁.written env (.insertCommander (commanderRow commander eqSlots))).Named :=
    h₁.of_eq (written_session _ _ _) (congrArg Heap.commanders (written_heap _ _ _))
  split
  case h_1 => exact (sat_pure _ _ _).mpr h₂
  case h_2 commanderId hid =>
    rw [sat_bind]
    have hnew : ({ commander with commanderId := commanderId } : Commander Key).Named :=
      ⟨hc.commanderName, hc.familyName⟩
    refine (commanderDup_named h₂ hnew).mono ?_
    rintro (state | _ | dupCommander) w₃ h₃
    · exact h₃
    · exact (sat_pure _ _ _).mpr h₃
    · simp only [then_ok, sat_bind, sat_setCommanderSlot, sat_send, sat_pure]
      exact fun a _ slots _ _ => h₃.of_eq rfl rfl

theorem commanderCreate_bounded_iff (hw : w.Named)
    (hsize : NameHandler.commanderCreate.Fitting packetSize) :
    NamesBounded env w packet packetSize .commanderCreate ↔
      NamesFit env w packet packetSize .commanderCreate := by
  constructor
  · intro hbounded hempty
    exact (scans_iff hsize).mp (hbounded.scanned hempty)
  · intro hends
    refine ⟨fun hempty => (scans_iff hsize).mpr (hends hempty),
      fun h => barrackHandlerCommanderCreate_rejects h, ?_⟩
    by_cases hterminates : NameHandler.commanderCreate.Terminates w packet
    · exact barrackHandlerCommanderCreate_named hw hterminates
    · exact (barrackHandlerCommanderCreate_rejects hterminates).mono
        fun _ _ h => hw.of_eq h.2.1 (congrArg Heap.commanders h.2.2)

end CommanderCreate

/-- For every payload of the right size, the names stay bounded exactly when a name that is read
ends in the payload, and one that the database takes ends in its array. -/
theorem names_bounded_iff (env : Env Key) (w : NamedWorld Key) (packet packetSize : ℕ)
    (handler : NameHandler) (hsize : handler.Fitting packetSize) :
    NamesBounded env w.1 packet packetSize handler ↔ NamesFit env w.1 packet packetSize handler := by
  cases handler with
  | login => exact login_bounded_iff w.2 hsize
  | barrackNameChange => exact barrackNameChange_bounded_iff w.2 hsize
  | commanderCreate => exact commanderCreate_bounded_iff w.2 hsize

/-! ### A database that takes every name -/

def agreeableEnv : Env UInt64 := { deafEnv with selectFlag := fun _ => .success (some [0]) }

/-- The payload lies at the start of the memory, with zeroes behind it. -/
def payloadWorld (bytes : List UInt8) : NamedWorld UInt64 where
  val := { emptyWorld with memory := Memory.ofFrame bytes fun _ => 0 }
  property :=
    { accountName := terminated_replicate (by decide)
      familyName := terminated_replicate (by decide)
      commanders := fun _ _ hc => by cases hc }

theorem holds_payloadWorld (bytes : List UInt8) : Holds (payloadWorld bytes).1.memory 0 bytes := by
  intro i b hb
  change bytes.getD (0 + i) 0 = b
  rw [Nat.zero_add, List.getD_eq_getElem?_getD, hb, Option.getD_some]

/-- A name that ends in its array. -/
def shortName : List UInt8 := [0x52, 0x31] ++ List.replicate 62 0

theorem names_bounded_short :
    NamesBounded agreeableEnv (payloadWorld shortName).1 0 64 .barrackNameChange :=
  (names_bounded_iff agreeableEnv (payloadWorld shortName) 0 64 .barrackNameChange (by decide)).mpr
    ⟨by decide, fun _ => by decide⟩

/-- A name that fills its array. -/
def longName : List UInt8 := List.replicate 64 97

/-- The name is looked for behind the payload, or it is kept without a terminator when one comes
behind the array. -/
theorem names_escape :
    ¬ NamesBounded agreeableEnv (payloadWorld longName).1 0 64 .barrackNameChange ∧
      ¬ NamesBounded agreeableEnv (payloadWorld (longName ++ [0])).1 0 65 .barrackNameChange := by
  constructor
  · rw [barrackNameChange_bounded_iff (payloadWorld longName).2 (by decide)]
    rintro ⟨hends, -⟩
    exact absurd hends (by decide)
  · rw [barrackNameChange_bounded_iff (payloadWorld (longName ++ [0])).2 (by decide)]
    rintro ⟨-, hrenames⟩
    have hname : NameHandler.barrackNameChange.name (payloadWorld (longName ++ [0])).1 0 =
        (longName ++ [0]).takeWhile (· != 0) :=
      stringFrom_of_mem (holds_payloadWorld _) (by decide) (by decide)
    have hprint : (NameHandler.barrackNameChange.name (payloadWorld (longName ++ [0])).1 0).all
        isprint = true := by
      rw [hname]
      decide
    exact absurd (hrenames ⟨hprint, rfl, [], rfl⟩) (by decide)

end R1Emu.Handler
