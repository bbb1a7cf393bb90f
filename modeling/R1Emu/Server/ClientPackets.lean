import R1Emu.Crypto.Blowfish
import R1Emu.Server.WorkerDispatch

/-!
# Packets that a client has encrypted

A client encrypts the whole blocks of a packet, writes its size in front of it, and may send
several packets in one buffer. The worker serves them as if the plain packets stood in the buffer,
one after the other, as long as no handler writes behind its own packet.
-/
namespace R1Emu.Server
open R1Emu.Crypto R1Emu.Lib.Bytes

variable {σ : Type*}

/-! ### Blocks in memory -/

section Blocks
variable {f g : (Fin 8 → UInt8) → Fin 8 → UInt8} {m m' : Memory} {packet n i : ℕ}

theorem bfBlock_of_outside {off : ℕ} (h : i < off ∨ off + 8 ≤ i) : bfBlock f m off i = m i :=
  dif_neg (by omega)

theorem decryptedBlocks_of_outside (h : i < packet ∨ packet + n * 8 ≤ i) :
    decryptedBlocks f m packet n i = m i := by
  induction n with
  | zero => rfl
  | succ n ih =>
    rw [decryptedBlocks, bfBlock_of_outside (by omega), ih (by omega)]

/-- Each block is decrypted from its own bytes. -/
theorem decryptedBlocks_block {k : ℕ} (hk : k < n) (j : Fin 8) :
    decryptedBlocks f m packet n (packet + k * 8 + j) =
      f (fun l => m (packet + k * 8 + l)) j := by
  induction n with
  | zero => omega
  | succ n ih =>
    have hj := j.2
    rw [decryptedBlocks]
    rcases Nat.lt_succ_iff_lt_or_eq.mp hk with hlt | rfl
    · rw [bfBlock_of_outside (by omega), ih hlt]
    · rw [bfBlock, dif_pos (by omega)]
      have hblock : (fun l : Fin 8 => decryptedBlocks f m packet k (packet + k * 8 + l)) =
          fun l : Fin 8 => m (packet + k * 8 + l) := by
        funext l
        exact decryptedBlocks_of_outside (by omega)
      rw [hblock]
      congr 1
      exact Fin.ext (by simp)

end Blocks

/-! ### Reading and writing memory -/

theorem Memory.read_eq_read {m m' : Memory} {off off' len : ℕ} :
    m.read off len = m'.read off' len ↔ ∀ i < len, m (off + i) = m' (off' + i) := by
  simp [Memory.read]

theorem Memory.read_add (m : Memory) (off a b : ℕ) :
    m.read off (a + b) = m.read off a ++ m.read (off + a) b := by
  rw [Memory.read, List.range_add, List.map_append, List.map_map]
  simp [Memory.read, Function.comp_def, Nat.add_assoc]

/-- Put bytes into memory. -/
def Memory.write (m : Memory) (off : ℕ) (bytes : List UInt8) : Memory := fun i =>
  if off ≤ i ∧ i < off + bytes.length then bytes.getD (i - off) 0 else m i

theorem Memory.write_of_le {m : Memory} {off i : ℕ} {bytes : List UInt8}
    (h : off + bytes.length ≤ i) : m.write off bytes i = m i :=
  if_neg (by omega)

/-! ### Encrypted packets -/

/-- The whole blocks of the packet are encrypted where they stand. -/
def encryptPacket (key : BfKey) (packet : List UInt8) : List UInt8 :=
  (decryptedBlocks (bfEcbEncrypt key true) (.ofFrame packet fun _ => 0) 0
    (packet.length / 8)).read 0 packet.length

/-- A packet on its way to the server. -/
def clientPacket (key : BfKey) (packet : List UInt8) : List UInt8 :=
  leBytes cryptHeaderSize packet.length ++ encryptPacket key packet

def clientBuffer (key : BfKey) (packets : List (List UInt8)) : List UInt8 :=
  packets.flatMap (clientPacket key)

theorem length_encryptPacket (key : BfKey) (packet : List UInt8) :
    (encryptPacket key packet).length = packet.length := read_length ..

theorem length_clientPacket (key : BfKey) (packet : List UInt8) :
    (clientPacket key packet).length = packet.length + cryptHeaderSize := by
  rw [clientPacket, List.length_append, leBytes_length, length_encryptPacket, Nat.add_comm]

/-- Decryption leaves the plain packet in the place of the encrypted one. -/
theorem decryptedBlocks_encryptPacket {key : BfKey} {m : Memory} {pos : ℕ} {packet : List UInt8}
    (h : m.read pos packet.length = encryptPacket key packet) :
    decryptedBlocks (bfEcbEncrypt key false) m pos (packet.length / 8) = m.write pos packet := by
  have hbyte : ∀ i < packet.length, m (pos + i) = decryptedBlocks (bfEcbEncrypt key true)
      (.ofFrame packet fun _ => 0) 0 (packet.length / 8) (0 + i) :=
    Memory.read_eq_read.mp h
  funext i
  by_cases hin : pos ≤ i ∧ i < pos + packet.length
  · rw [Memory.write, if_pos hin]
    rcases Nat.lt_or_ge (i - pos) (packet.length / 8 * 8) with hblock | htail
    · -- The byte is in a block, and the whole block was encrypted.
      obtain ⟨k, j, hi⟩ : ∃ (k : ℕ) (j : Fin 8), i = pos + k * 8 + j :=
        ⟨(i - pos) / 8, ⟨(i - pos) % 8, Nat.mod_lt _ (by decide)⟩, by simp only; omega⟩
      have hk : k < packet.length / 8 := by omega
      have hencrypted : (fun l : Fin 8 => m (pos + k * 8 + l)) = bfEcbEncrypt key true fun l =>
          Memory.ofFrame packet (fun _ => 0) (0 + k * 8 + l) := by
        funext l
        have hl := l.2
        rw [Nat.add_assoc, hbyte _ (by omega), ← Nat.add_assoc, decryptedBlocks_block hk]
      have hinverse := congrFun (bfEcbEncrypt_not key true fun l =>
        Memory.ofFrame packet (fun _ => 0) (0 + k * 8 + l)) j
      rw [hi, decryptedBlocks_block hk, hencrypted]
      refine hinverse.trans (congrArg (packet.getD · 0) ?_)
      omega
    · rw [decryptedBlocks_of_outside (by omega)]
      have hi := hbyte (i - pos) (by omega)
      rw [decryptedBlocks_of_outside (by omega), Nat.zero_add, Nat.add_sub_cancel' hin.1] at hi
      exact hi
  · rw [Memory.write, if_neg hin, decryptedBlocks_of_outside (by omega)]

/-! ### Serving the plain packets -/

/-- The machine that has received a plain packet behind a crypt header. -/
def received (s : Machine σ) (pos : ℕ) (packet : List UInt8) : Machine σ :=
  { s with
    memory := s.memory.write (pos + cryptHeaderSize) packet
    trace := s.trace ++ .read pos cryptHeaderSize ::
      blockEvents (pos + cryptHeaderSize) (packet.length / 8) }

/-- Handle one plain packet after the other, until one fails. -/
def serve (w : Worker σ) (headerAnswer : ℕ) : List (List UInt8) → Machine σ → ℕ →
    Bool × Machine σ × List (ℕ × ℕ)
  | [], s, _ => (true, s, [])
  | packet :: packets, s, pos =>
    let size := packet.length + cryptHeaderSize
    let r := finishRequest w headerAnswer (workerHandlePacket w (received s pos packet)
      (pos + cryptHeaderSize) packet.length true)
    if !r.1 then (false, r.2, [(pos, size)])
    else
      let (status, s, handed) := serve w headerAnswer packets r.2 (pos + size)
      (status, s, (pos, size) :: handed)

/-- No handler writes behind its packet. -/
def HandlersKeep (w : Worker σ) : Prop :=
  ∀ type handler, w.packetHandlers type = some handler →
    ∀ world m packet packetSize i, packet + packetSize ≤ i →
      (handler world m packet packetSize).memory i = m i

theorem finishRequest_memory (w : Worker σ) (headerAnswer : ℕ)
    (r : PacketHandlerState × Machine σ) :
    (finishRequest w headerAnswer r).2.memory = r.2.memory := by
  obtain ⟨state, s⟩ := r
  cases state with
  | error => rfl
  | ok => rfl
  | updateSession =>
    simp only [finishRequest]
    split
    · rfl
    · split <;> rfl
  | deleteSession => rfl

theorem workerHandlePacket_memory {w : Worker σ} (hkeep : HandlersKeep w) (s : Machine σ)
    {pos size i : ℕ} (hsize : 10 ≤ size) (hlt : size < 2 ^ 16) (hi : pos + size ≤ i) :
    (workerHandlePacket w s pos size true).2.memory i = s.memory i := by
  have hsub : sizeSub size (clientHeaderSize true) = size - 10 :=
    sizeSub_of_le hsize (hlt.trans (by decide))
  have hend : pos + clientHeaderSize true + sizeSub size (clientHeaderSize true) ≤ i := by
    rw [hsub, clientHeaderSize, if_pos rfl]
    omega
  simp only [workerHandlePacket]
  split
  · rfl
  · split
    · rfl
    next handler hhandler => exact hkeep _ _ hhandler _ _ _ _ _ hend

/-- A packet that stands encrypted in the memory is handled as the plain one. -/
theorem workerProcessOneRequest_clientPacket {w : Worker σ} {key : BfKey}
    (hkey : w.bfDecrypt = bfEcbEncrypt key false) (headerAnswer : ℕ) {s : Machine σ} {pos : ℕ}
    {packet : List UInt8} (hlt : packet.length < 2 ^ 16)
    (hmem : s.memory.read pos (packet.length + cryptHeaderSize) = clientPacket key packet) :
    cryptPacketGetHeader s.memory pos = packet.length ∧
    workerProcessOneRequest w s pos (packet.length + cryptHeaderSize) headerAnswer true =
      finishRequest w headerAnswer (workerHandlePacket w (received s pos packet)
        (pos + cryptHeaderSize) packet.length true) := by
  rw [Nat.add_comm, Memory.read_add, clientPacket] at hmem
  obtain ⟨hheader, hpacket⟩ := List.append_inj hmem (by rw [read_length, leBytes_length])
  have hsize : cryptPacketGetHeader s.memory pos = packet.length := by
    rw [cryptPacketGetHeader, hheader, leValue_leBytes_of_lt hlt]
  refine ⟨hsize, ?_⟩
  simp [workerProcessOneRequest, cryptoDecryptPacket_eq w s hsize hlt, hkey,
    decryptedBlocks_encryptPacket hpacket, received]

theorem packetInfo_clientPacket {w : Worker σ}
    (hserver : w.serverType = .zone ∨ w.serverType = .barrack) {m : Memory}
    {pos size remaining : ℕ} (hheader : cryptPacketGetHeader m pos = size)
    (hfit : size + cryptHeaderSize ≤ remaining) :
    workerGetCryptedPacketInfo w.serverType m remaining pos = some (true, size) := by
  have hroom : ¬ remaining < cryptHeaderSize := by omega
  have hplain : ¬ remaining - cryptHeaderSize < size := by omega
  rcases hserver with hserver | hserver <;>
    simp [hserver, workerGetCryptedPacketInfo, hroom, hheader, hplain]

theorem buildReplyLoop_clientBuffer {w : Worker σ} {key : BfKey}
    (hserver : w.serverType = .zone ∨ w.serverType = .barrack)
    (hkey : w.bfDecrypt = bfEcbEncrypt key false) (hkeep : HandlersKeep w) (headerAnswer : ℕ)
    {packets : List (List UInt8)}
    (hpackets : ∀ packet ∈ packets, 10 ≤ packet.length ∧ packet.length < 2 ^ 16)
    {s : Machine σ} {pos fuel : ℕ} (hfuel : packets.length < fuel)
    (hsize : (clientBuffer key packets).length < 2 ^ 64)
    (hmem : s.memory.read pos (clientBuffer key packets).length = clientBuffer key packets) :
    buildReplyLoop w headerAnswer fuel s pos (clientBuffer key packets).length =
      some (serve w headerAnswer packets s pos) := by
  induction packets generalizing s pos fuel with
  | nil =>
    obtain ⟨fuel, rfl⟩ := Nat.exists_eq_succ_of_ne_zero (Nat.ne_of_gt hfuel)
    rfl
  | cons packet packets ih =>
    obtain ⟨fuel, rfl⟩ := Nat.exists_eq_succ_of_ne_zero (Nat.ne_of_gt (Nat.zero_lt_of_lt hfuel))
    obtain ⟨⟨hlong, hshort⟩, hrest⟩ := List.forall_mem_cons.mp hpackets
    have hlength : (clientBuffer key (packet :: packets)).length =
        packet.length + cryptHeaderSize + (clientBuffer key packets).length := by
      rw [clientBuffer, List.flatMap_cons, List.length_append, length_clientPacket]
      rfl
    have hsplit : s.memory.read pos (packet.length + cryptHeaderSize) = clientPacket key packet ∧
        s.memory.read (pos + (packet.length + cryptHeaderSize)) (clientBuffer key packets).length =
          clientBuffer key packets := by
      rw [hlength, Memory.read_add] at hmem
      exact List.append_inj hmem (by rw [read_length, length_clientPacket])
    obtain ⟨hheader, hrequest⟩ :=
      workerProcessOneRequest_clientPacket hkey headerAnswer hshort hsplit.1
    rw [hlength, buildReplyLoop, if_neg (by simp only [cryptHeaderSize]; omega),
      packetInfo_clientPacket hserver hheader (by omega)]
    simp only [subPacketSize, if_true, hrequest, serve]
    generalize hr : finishRequest w headerAnswer (workerHandlePacket w (received s pos packet)
      (pos + cryptHeaderSize) packet.length true) = r
    split
    · rfl
    · -- What is left of the buffer has not been written.
      have hkept : r.2.memory.read (pos + (packet.length + cryptHeaderSize))
          (clientBuffer key packets).length = clientBuffer key packets := by
        refine Eq.trans (Memory.read_eq_read.mpr fun i _ => ?_) hsplit.2
        rw [← hr, finishRequest_memory, workerHandlePacket_memory hkeep _ hlong hshort (by omega)]
        exact Memory.write_of_le (by omega)
      rw [sizeSub_of_le (by omega) (hlength ▸ hsize), Nat.add_sub_cancel_left,
        ih hrest (by simpa using hfuel) (by omega) hkept]
      rfl

theorem read_ofFrame (frame : Frame) (beyond : Memory) :
    (Memory.ofFrame frame beyond).read 0 frame.length = frame := by
  apply List.ext_getElem
  · simp [Memory.read]
  · intro i hi hi'
    simp [Memory.read, Memory.ofFrame, hi']

theorem workerGetOrCreateSessionObject_memory (w : Worker σ) (sessionKey : SessionKey)
    (s : Machine σ) : (workerGetOrCreateSessionObject w sessionKey s).2.memory = s.memory := by
  simp only [workerGetOrCreateSessionObject]
  split
  · rfl
  · split
    · rfl
    · split <;> rfl

/-- A worker that has received a client's buffer. -/
def clientMachine (world : σ) (frame : Frame) (beyond : Memory) (msg : Message) : Machine σ :=
  ⟨world, .ofFrame frame beyond, msg, [], []⟩

/-- A worker of the zone or the barrack serves the plain packets of a client's buffer. -/
theorem workerBuildReply_clientBuffer {w : Worker σ} {key : BfKey}
    (hserver : w.serverType = .zone ∨ w.serverType = .barrack)
    (hkey : w.bfDecrypt = bfEcbEncrypt key false) (hkeep : HandlersKeep w)
    {packets : List (List UInt8)}
    (hpackets : ∀ packet ∈ packets, 10 ≤ packet.length ∧ packet.length < 2 ^ 16)
    (hsize : (clientBuffer key packets).length < 2 ^ 64) (sessionKey : SessionKey) (world : σ)
    (beyond : Memory) (msg : Message) (headerAnswer : ℕ) :
    workerBuildReply w (packets.length + 1) sessionKey
      (clientMachine world (clientBuffer key packets) beyond msg)
      (clientBuffer key packets).length headerAnswer =
    some (if (workerGetOrCreateSessionObject w sessionKey
        (clientMachine world (clientBuffer key packets) beyond msg)).1 = true then
      serve w headerAnswer packets (workerGetOrCreateSessionObject w sessionKey
        (clientMachine world (clientBuffer key packets) beyond msg)).2 0
    else (false, (workerGetOrCreateSessionObject w sessionKey
        (clientMachine world (clientBuffer key packets) beyond msg)).2, [])) := by
  generalize hr : workerGetOrCreateSessionObject w sessionKey
    (clientMachine world (clientBuffer key packets) beyond msg) = r
  have hmem : r.2.memory.read 0 (clientBuffer key packets).length = clientBuffer key packets := by
    rw [← hr, workerGetOrCreateSessionObject_memory]
    exact read_ofFrame _ _
  have hloop := buildReplyLoop_clientBuffer hserver hkey hkeep headerAnswer hpackets
    (Nat.lt_succ_self _) hsize hmem
  simp only [workerBuildReply, hr, hloop]
  cases r.1 <;> rfl

def zeroKey : BfKey where
  P := Vector.replicate 18 0
  S := Vector.replicate (4 * 256) 0

/-- A zone server of which every handler succeeds. -/
def calmWorker : Worker Unit :=
  { Worker.plain .zone fun _ => some fun _ m _ _ => ⟨.ok, (), m, []⟩ with
    bfDecrypt := bfEcbEncrypt zeroKey false }

theorem handlersKeep_calmWorker : HandlersKeep calmWorker := by
  intro type handler hhandler world m packet packetSize i _
  cases hhandler
  rfl

/-- Two packets, of which the second has a block and a rest. -/
def plainPackets : List (List UInt8) := [List.replicate 16 1, List.replicate 12 2]

theorem plainPackets_served : workerBuildReply calmWorker 3 []
    (clientMachine () (clientBuffer zeroKey plainPackets) (fun _ => 0) [])
    (clientBuffer zeroKey plainPackets).length 1 =
      some (serve calmWorker 1 plainPackets
        (clientMachine () (clientBuffer zeroKey plainPackets) (fun _ => 0) []) 0) :=
  workerBuildReply_clientBuffer (.inl rfl) rfl handlersKeep_calmWorker (by decide)
    (by simp [clientBuffer, plainPackets, length_clientPacket, cryptHeaderSize]) [] () (fun _ => 0) [] 1

end R1Emu.Server
