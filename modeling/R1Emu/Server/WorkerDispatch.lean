import R1Emu.Server.Worker

/-!
# Dispatching one request

A sub-request is decrypted, its header is unwrapped, and the type found there selects the
handler. The header is unwrapped without a look at the size, and the type is compared with
the table's size by `>`: the accesses stay in bounds exactly when the buffer holds the
header, the type is not the table's size, and a sub-request shorter than its header selects
no handler.
-/
namespace R1Emu.Server
open R1Emu.Lib.Bytes

variable {σ : Type*}

/-- The access is inside a buffer of `size` bytes, the lookup inside the table, and the call
goes to an entry, with the bytes left up to the end `stop` of the sub-request. -/
def Event.InBounds (w : Worker σ) (size stop : ℕ) : Event → Prop
  | .read off len => off + len ≤ size
  | .write off len => off + len ≤ size
  | .lookup type => type < w.packetHandlersCount
  | .call type packet packetSize =>
    w.packetHandlers type ≠ none ∧ packet ≤ stop ∧ packet + packetSize = stop

instance (w : Worker σ) (size stop type : ℕ) :
    Decidable ((Event.lookup type).InBounds w size stop) :=
  inferInstanceAs (Decidable (type < w.packetHandlersCount))

/-- Where the client header of a sub-request starts. -/
def headerPos (packet : ℕ) (isCrypted : Bool) : ℕ :=
  if isCrypted then packet + cryptHeaderSize else packet

/-- The memory in which the client header is read. -/
def plainMemory (w : Worker σ) (m : Memory) (packet : ℕ) (info : Bool × ℕ) : Memory :=
  if info.1 then decryptedBlocks w.bfDecrypt m (packet + cryptHeaderSize) (info.2 / 8) else m

def requestType (w : Worker σ) (m : Memory) (packet : ℕ) (info : Bool × ℕ) : ℕ :=
  (clientPacketHeader (plainMemory w m packet info) (headerPos packet info.1) info.1).type

/-- The sub-request has room for its header, and its type has a handler. -/
def Dispatchable (w : Worker σ) (m : Memory) (packet : ℕ) (info : Bool × ℕ) : Prop :=
  clientHeaderSize info.1 ≤ info.2 ∧ requestType w m packet info < w.packetHandlersCount ∧
    w.packetHandlers (requestType w m packet info) ≠ none

/-- Every access of one sub-request is in bounds, and a request that cannot be dispatched is
answered with an error. -/
def DispatchInBounds (w : Worker σ) (s : Machine σ) (packet remaining headerAnswer : ℕ)
    (info : Bool × ℕ) : Prop :=
  let r := workerProcessOneRequest w { s with trace := [] } packet (subPacketSize info)
    headerAnswer info.1
  (∀ e ∈ r.2.trace, e.InBounds w (packet + remaining) (packet + subPacketSize info)) ∧
    (¬ Dispatchable w s.memory packet info → r.1 = false)

/-- What unwrapping the header and looking up its handler does. -/
def dispatchEvents (w : Worker σ) (m : Memory) (packet packetSize : ℕ) (isCrypted : Bool) :
    List Event :=
  let type := (clientPacketHeader m packet isCrypted).type
  .read packet (clientHeaderSize isCrypted) ::
    if w.packetHandlersCount < type then []
    else .lookup type ::
      match w.packetHandlers type with
      | none => []
      | some _ => [.call type (packet + clientHeaderSize isCrypted)
          (sizeSub packetSize (clientHeaderSize isCrypted))]

theorem workerHandlePacket_trace (w : Worker σ) (s : Machine σ) (packet packetSize : ℕ)
    (isCrypted : Bool) :
    (workerHandlePacket w s packet packetSize isCrypted).2.trace =
      s.trace ++ dispatchEvents w s.memory packet packetSize isCrypted := by
  by_cases hlt : w.packetHandlersCount < (clientPacketHeader s.memory packet isCrypted).type
  · simp [workerHandlePacket, dispatchEvents, hlt]
  · cases hh : w.packetHandlers (clientPacketHeader s.memory packet isCrypted).type <;>
      simp [workerHandlePacket, dispatchEvents, hlt, hh]

theorem workerHandlePacket_error {w : Worker σ} {s : Machine σ} {packet packetSize : ℕ}
    {isCrypted : Bool}
    (h : w.packetHandlersCount < (clientPacketHeader s.memory packet isCrypted).type ∨
      w.packetHandlers (clientPacketHeader s.memory packet isCrypted).type = none) :
    (workerHandlePacket w s packet packetSize isCrypted).1 = .error := by
  by_cases hlt : w.packetHandlersCount < (clientPacketHeader s.memory packet isCrypted).type
  · simp [workerHandlePacket, hlt]
  · simp [workerHandlePacket, hlt, h.resolve_left hlt]

theorem finishRequest_trace (w : Worker σ) (headerAnswer : ℕ)
    (r : PacketHandlerState × Machine σ) :
    (finishRequest w headerAnswer r).2.trace = r.2.trace := by
  obtain ⟨state, s⟩ := r
  cases state with
  | error => rfl
  | ok => rfl
  | updateSession =>
    simp only [finishRequest]
    split
    · rfl
    · split <;> rfl
  | deleteSession => rfl

theorem finishRequest_error {w : Worker σ} {headerAnswer : ℕ}
    {r : PacketHandlerState × Machine σ} (h : r.1 = .error) :
    (finishRequest w headerAnswer r).1 = false := by
  obtain ⟨state, s⟩ := r
  cases h
  rfl

theorem blockEvents_inBounds (w : Worker σ) {packet blocks size stop : ℕ}
    (h : packet + blocks * 8 ≤ size) :
    ∀ e ∈ blockEvents packet blocks, e.InBounds w size stop := by
  induction blocks with
  | zero => simp [blockEvents]
  | succ blocks ih =>
    intro e he
    rw [blockEvents, List.mem_append] at he
    rcases he with he | he
    · exact ih (by omega) e he
    · simp only [List.mem_cons, List.not_mem_nil, or_false] at he
      rcases he with rfl | rfl <;> simp only [Event.InBounds] <;> omega

/-- A crypted sub-request of the size its crypt header states is decrypted. -/
theorem cryptoDecryptPacket_eq (w : Worker σ) (s : Machine σ) {packet plainSize : ℕ}
    (h : cryptPacketGetHeader s.memory packet = plainSize) (hlt : plainSize < 2 ^ 16) :
    cryptoDecryptPacket w s packet (plainSize + cryptHeaderSize) =
      (some (packet + cryptHeaderSize, plainSize),
        { s with
          memory := decryptedBlocks w.bfDecrypt s.memory (packet + cryptHeaderSize) (plainSize / 8)
          trace := s.trace ++ .read packet cryptHeaderSize ::
            blockEvents (packet + cryptHeaderSize) (plainSize / 8) }) := by
  have hsub : sizeSub (plainSize + cryptHeaderSize) cryptHeaderSize = plainSize := by
    rw [sizeSub_of_le (by omega) (by simp only [cryptHeaderSize]; omega), Nat.add_sub_cancel]
  simp [cryptoDecryptPacket, hsub, h]

theorem read_length (m : Memory) (off len : ℕ) : (m.read off len).length = len := by
  simp [Memory.read]

theorem cryptPacketGetHeader_lt (m : Memory) (packet : ℕ) :
    cryptPacketGetHeader m packet < 2 ^ 16 := by
  have := leValue_lt (m.read packet cryptHeaderSize)
  rwa [read_length] at this

/-- A packet found in the buffer: its plain size is its crypt header's, and it fits. -/
theorem packetInfo_crypted {serverType : ServerType} {m : Memory} {remaining packet plainSize : ℕ}
    (h : workerGetCryptedPacketInfo serverType m remaining packet = some (true, plainSize)) :
    cryptPacketGetHeader m packet = plainSize ∧ plainSize + cryptHeaderSize ≤ remaining := by
  have key : (if remaining < cryptHeaderSize then none
      else if remaining - cryptHeaderSize < cryptPacketGetHeader m packet then none
      else some (true, cryptPacketGetHeader m packet)) = some (true, plainSize) := by
    cases serverType with
    | global => cases h
    | social => simp [workerGetCryptedPacketInfo] at h
    | barrack => exact h
    | zone => exact h
  split at key
  · cases key
  · split at key
    · cases key
    · cases key
      exact ⟨rfl, by omega⟩

theorem packetInfo_plain {serverType : ServerType} {m : Memory} {remaining packet plainSize : ℕ}
    (h : workerGetCryptedPacketInfo serverType m remaining packet = some (false, plainSize)) :
    plainSize = remaining % 2 ^ 16 := by
  cases serverType with
  | global => cases h
  | social =>
    cases h
    rfl
  | barrack =>
    simp only [workerGetCryptedPacketInfo] at h
    split at h
    · cases h
    · split at h <;> simp at h
  | zone =>
    simp only [workerGetCryptedPacketInfo] at h
    split at h
    · cases h
    · split at h <;> simp at h

/-- The header and the lookup of a sub-request: in bounds exactly on the stated inputs. -/
theorem dispatchEvents_inBounds_iff (w : Worker σ) (m : Memory) (packet size : ℕ)
    {packetSize : ℕ} (isCrypted : Bool) (hsize : packetSize < 2 ^ 64) :
    (∀ e ∈ dispatchEvents w m packet packetSize isCrypted,
        e.InBounds w size (packet + packetSize)) ↔
      packet + clientHeaderSize isCrypted ≤ size ∧
        (clientPacketHeader m packet isCrypted).type ≠ w.packetHandlersCount ∧
        (packetSize < clientHeaderSize isCrypted →
          w.packetHandlersCount < (clientPacketHeader m packet isCrypted).type ∨
            w.packetHandlers (clientPacketHeader m packet isCrypted).type = none) := by
  have hcall : ∀ len, len ≤ 10 →
      ((packet + len ≤ packet + packetSize ∧
        packet + len + sizeSub packetSize len = packet + packetSize) ↔ len ≤ packetSize) := by
    intro len hlen
    by_cases h : len ≤ packetSize
    · rw [sizeSub_of_le h hsize]
      omega
    · omega
  have hhead : clientHeaderSize isCrypted ≤ 10 := by
    cases isCrypted <;> decide
  simp only [dispatchEvents, List.mem_cons, forall_eq_or_imp, Event.InBounds]
  refine and_congr_right fun _ => ?_
  by_cases hlt : w.packetHandlersCount < (clientPacketHeader m packet isCrypted).type
  · simp only [if_pos hlt, List.not_mem_nil, false_implies, implies_true, true_iff]
    exact ⟨by omega, fun _ => .inl hlt⟩
  · simp only [if_neg hlt, List.mem_cons, forall_eq_or_imp]
    cases hh : w.packetHandlers (clientPacketHeader m packet isCrypted).type with
    | none =>
      simp only [List.not_mem_nil, false_implies, implies_true, and_true, or_true]
      omega
    | some handler =>
      simp only [List.mem_singleton, forall_eq, hh, ne_eq, reduceCtorEq, not_false_eq_true,
        true_and, or_false, hcall _ hhead]
      omega

theorem plainSize_lt {serverType : ServerType} {m : Memory} {remaining packet : ℕ}
    {info : Bool × ℕ}
    (h : workerGetCryptedPacketInfo serverType m remaining packet = some info) :
    info.2 < 2 ^ 16 := by
  obtain ⟨isCrypted, plainSize⟩ := info
  cases isCrypted with
  | true => exact (packetInfo_crypted h).1 ▸ cryptPacketGetHeader_lt m packet
  | false => exact packetInfo_plain h ▸ Nat.mod_lt _ (by decide)

/-- The machine that `workerHandlePacket` starts from, for a packet found in the buffer. -/
theorem workerProcessOneRequest_eq (w : Worker σ) (s : Machine σ) (headerAnswer : ℕ)
    {packet remaining : ℕ} {info : Bool × ℕ}
    (h : workerGetCryptedPacketInfo w.serverType s.memory remaining packet = some info) :
    ∃ before : List Event,
      (∀ size stop, packet + remaining ≤ size → ∀ e ∈ before, e.InBounds w size stop) ∧
      workerProcessOneRequest w s packet (subPacketSize info) headerAnswer info.1 =
        finishRequest w headerAnswer (workerHandlePacket w
          { s with memory := plainMemory w s.memory packet info, trace := s.trace ++ before }
          (headerPos packet info.1) info.2 info.1) := by
  obtain ⟨isCrypted, plainSize⟩ := info
  cases isCrypted with
  | true =>
    obtain ⟨hhead, hfit⟩ := packetInfo_crypted h
    refine ⟨.read packet cryptHeaderSize ::
      blockEvents (packet + cryptHeaderSize) (plainSize / 8), ?_, ?_⟩
    · intro size stop hsize e he
      rcases List.mem_cons.mp he with rfl | he
      · simp only [Event.InBounds]
        omega
      · exact blockEvents_inBounds w (by omega) e he
    · simp [workerProcessOneRequest, subPacketSize, plainMemory, headerPos,
        cryptoDecryptPacket_eq w s hhead (plainSize_lt h)]
  | false =>
    refine ⟨[], by simp, ?_⟩
    simp [workerProcessOneRequest, subPacketSize, plainMemory, headerPos]

/-- Dispatch is in bounds exactly when the buffer holds the whole client header, the type is
not the number of handlers, and a sub-request shorter than its header selects no handler. -/
theorem dispatch_inBounds_iff (w : Worker σ) (s : Machine σ) (packet remaining headerAnswer : ℕ)
    (info : Bool × ℕ)
    (h : workerGetCryptedPacketInfo w.serverType s.memory remaining packet = some info) :
    DispatchInBounds w s packet remaining headerAnswer info ↔
      headerPos packet info.1 + clientHeaderSize info.1 ≤ packet + remaining ∧
        requestType w s.memory packet info ≠ w.packetHandlersCount ∧
        (info.2 < clientHeaderSize info.1 →
          w.packetHandlersCount < requestType w s.memory packet info ∨
            w.packetHandlers (requestType w s.memory packet info) = none) := by
  have hlt := plainSize_lt h
  have hstop : headerPos packet info.1 + info.2 = packet + subPacketSize info := by
    rw [headerPos, subPacketSize]
    split <;> omega
  obtain ⟨before, hbefore, heq⟩ := workerProcessOneRequest_eq w { s with trace := [] }
    headerAnswer h
  have htrace : (workerProcessOneRequest w { s with trace := [] } packet (subPacketSize info)
      headerAnswer info.1).2.trace = before ++ dispatchEvents w (plainMemory w s.memory packet info)
        (headerPos packet info.1) info.2 info.1 := by
    rw [heq, finishRequest_trace, workerHandlePacket_trace]
    rfl
  have hiff := dispatchEvents_inBounds_iff w (plainMemory w s.memory packet info)
    (headerPos packet info.1) (packet + remaining) info.1
    (show info.2 < 2 ^ 64 by omega)
  rw [hstop] at hiff
  simp only [DispatchInBounds, htrace, List.mem_append]
  constructor
  · rintro ⟨hin, -⟩
    exact hiff.mp fun e he => hin e (.inr he)
  · intro hc
    refine ⟨?_, fun hno => ?_⟩
    · rintro e (he | he)
      · exact hbefore _ _ le_rfl e he
      · exact hiff.mpr hc e he
    · rw [heq]
      refine finishRequest_error (workerHandlePacket_error ?_)
      obtain ⟨-, hne, hshort⟩ := hc
      simp only [Dispatchable, not_and_or, not_le, not_lt, ne_eq, not_not] at hno
      change w.packetHandlersCount < requestType w s.memory packet info ∨
        w.packetHandlers (requestType w s.memory packet info) = none
      rcases hno with hno | hno | hno
      · exact hshort hno
      · exact .inl (by omega)
      · exact .inr hno

/-- A client of the social server that sends six zero bytes. -/
theorem dispatch_inBounds_iff_header :
    DispatchInBounds (Worker.plain .social fun _ => none) ⟨(), fun _ => 0, [[], []], [], []⟩ 0 6 1
      (false, 6) :=
  (dispatch_inBounds_iff (Worker.plain .social fun _ => none) ⟨(), fun _ => 0, [[], []], [], []⟩
    0 6 1 (false, 6) rfl).mpr ⟨by decide, by decide, fun h => absurd h (by decide)⟩

/-- The type 3596 is the number of packet types: the table is read behind its last entry. -/
theorem dispatch_lookup_past_table :
    workerGetCryptedPacketInfo .social (.ofFrame [0x0c, 0x0e, 0, 0, 0, 0] fun _ => 0) 6 0 =
        some (false, 6) ∧
      ¬ DispatchInBounds (Worker.plain .social fun _ => none)
        ⟨(), .ofFrame [0x0c, 0x0e, 0, 0, 0, 0] fun _ => 0, [[], []], [], []⟩ 0 6 1 (false, 6) := by
  refine ⟨rfl, fun h => ?_⟩
  exact absurd (h.1 (.lookup 3596) (by decide)) (by decide)

end R1Emu.Server
