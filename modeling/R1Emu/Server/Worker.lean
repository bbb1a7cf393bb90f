import R1Emu.Server.Router

/-!
# The worker's request pipeline

A worker takes a client's buffer apart into sub-requests, decrypts each of them, reads its
header, and calls the handler that the table holds for its type. The buffer is the start of
a total memory, so that a read or a write past its end has a meaning; every access, table
lookup and handler call is recorded in a trace. Sizes are `size_t` and subtract modulo
`2 ^ 64`. The rest of the world (sessions, databases) is a parameter.
-/
namespace R1Emu.Server
open R1Emu.Lib.Bytes

inductive ServerType
  | global
  | barrack
  | social
  | zone
  deriving DecidableEq, Repr

inductive PacketHandlerState
  | error
  | ok
  | updateSession
  | deleteSession
  deriving DecidableEq, Repr

/-- Memory from the first byte of the client's buffer on. -/
abbrev Memory := ℕ → UInt8

def Memory.read (m : Memory) (off len : ℕ) : List UInt8 := (List.range len).map fun i => m (off + i)

/-- A client frame, with arbitrary memory behind it. -/
def Memory.ofFrame (frame : Frame) (beyond : Memory) : Memory := fun i => frame.getD i (beyond i)

inductive Event
  | read (off len : ℕ)
  | write (off len : ℕ)
  | lookup (type : ℕ)
  | call (type packet packetSize : ℕ)
  deriving DecidableEq, Repr

abbrev SessionKey := List Char

structure HandlerResult (σ : Type*) where
  state : PacketHandlerState
  world : σ
  memory : Memory
  replies : List Frame

/-- A handler gets the packet, its size, and the memory the packet lies in. -/
abbrev PacketHandler (σ : Type*) := σ → Memory → ℕ → ℕ → HandlerResult σ

/-- A call into the rest of the world that succeeds or fails. -/
abbrev Call (σ : Type*) := σ → Bool × σ

structure Worker (σ : Type*) where
  serverType : ServerType
  packetHandlers : ℕ → Option (PacketHandler σ)
  packetHandlersCount : ℕ
  /-- `BF_ecb_encrypt` in decryption mode under the server's key schedule. -/
  bfDecrypt : (Fin 8 → UInt8) → Fin 8 → UInt8
  dbClientRequestObject : SessionKey → Call σ
  pushHeader : Call σ
  dbClientGetObject : Call σ
  sessionNew : SessionKey → Call σ
  dbObjectNew : Call σ
  dbObjectInit : Call σ
  dbClientUpdateObject : Call σ
  redisUpdateSession : Call σ
  redisFlushSession : Call σ

/-- A worker whose calls into the rest of the world all succeed. -/
def Worker.plain (serverType : ServerType) (handlers : ℕ → Option (PacketHandler Unit)) :
    Worker Unit where
  serverType := serverType
  packetHandlers := handlers
  packetHandlersCount := 3596
  bfDecrypt := id
  dbClientRequestObject _ _ := (true, ())
  pushHeader _ := (true, ())
  dbClientGetObject _ := (true, ())
  sessionNew _ _ := (true, ())
  dbObjectNew _ := (true, ())
  dbObjectInit _ := (true, ())
  dbClientUpdateObject _ := (true, ())
  redisUpdateSession _ := (true, ())
  redisFlushSession _ := (true, ())

/-- What a worker's functions read and write while a request is processed, with the reply
frames that the handlers have produced. -/
structure Machine (σ : Type*) where
  world : σ
  memory : Memory
  msg : Message
  replies : List Frame
  trace : List Event

variable {σ : Type*}

namespace Machine

def log (s : Machine σ) (e : Event) : Machine σ := { s with trace := s.trace ++ [e] }

def inWorld (s : Machine σ) (call : Call σ) : Bool × Machine σ :=
  ((call s.world).1, { s with world := (call s.world).2 })

@[simp] theorem log_memory (s : Machine σ) (e : Event) : (s.log e).memory = s.memory := rfl
@[simp] theorem log_world (s : Machine σ) (e : Event) : (s.log e).world = s.world := rfl
@[simp] theorem log_msg (s : Machine σ) (e : Event) : (s.log e).msg = s.msg := rfl
@[simp] theorem log_replies (s : Machine σ) (e : Event) : (s.log e).replies = s.replies := rfl
@[simp] theorem log_trace (s : Machine σ) (e : Event) : (s.log e).trace = s.trace ++ [e] := rfl

@[simp] theorem inWorld_memory (s : Machine σ) (c : Call σ) : (s.inWorld c).2.memory = s.memory :=
  rfl
@[simp] theorem inWorld_msg (s : Machine σ) (c : Call σ) : (s.inWorld c).2.msg = s.msg := rfl
@[simp] theorem inWorld_replies (s : Machine σ) (c : Call σ) :
    (s.inWorld c).2.replies = s.replies := rfl
@[simp] theorem inWorld_trace (s : Machine σ) (c : Call σ) : (s.inWorld c).2.trace = s.trace := rfl

end Machine

/-- Subtraction in `size_t`. -/
def sizeSub (a b : ℕ) : ℕ := (a + (2 ^ 64 - b)) % 2 ^ 64

theorem sizeSub_of_le {a b : ℕ} (h : b ≤ a) (ha : a < 2 ^ 64) : sizeSub a b = a - b := by
  have : a + (2 ^ 64 - b) = a - b + 2 ^ 64 := by omega
  rw [sizeSub, this, Nat.add_mod_right, Nat.mod_eq_of_lt (by omega)]

/-- `sizeof(CryptPacketHeader)`. -/
def cryptHeaderSize : ℕ := 2

structure ClientPacketHeader where
  type : ℕ
  sequence : ℕ
  /-- Left unread for a packet that is not crypted. -/
  checksum : Option ℕ

def clientHeaderSize (isCrypted : Bool) : ℕ := if isCrypted then 10 else 6

def cryptPacketGetHeader (m : Memory) (packet : ℕ) : ℕ := leValue (m.read packet cryptHeaderSize)

def clientPacketHeader (m : Memory) (packet : ℕ) (isCrypted : Bool) : ClientPacketHeader where
  type := leValue (m.read packet 2)
  sequence := leValue (m.read (packet + 2) 4)
  checksum := if isCrypted then some (leValue (m.read (packet + 6) 4)) else none

/-- Decrypt in place the eight bytes at `off`. -/
def bfBlock (bf : (Fin 8 → UInt8) → Fin 8 → UInt8) (m : Memory) (off : ℕ) : Memory := fun i =>
  if h : off ≤ i ∧ i < off + 8 then bf (fun k => m (off + k)) ⟨i - off, by omega⟩ else m i

/-- The first `blocks` blocks of the packet, in order. -/
def decryptedBlocks (bf : (Fin 8 → UInt8) → Fin 8 → UInt8) (m : Memory) (packet : ℕ) : ℕ → Memory
  | 0 => m
  | blocks + 1 => bfBlock bf (decryptedBlocks bf m packet blocks) (packet + blocks * 8)

def blockEvents (packet : ℕ) : ℕ → List Event
  | 0 => []
  | blocks + 1 => blockEvents packet blocks ++
      [.read (packet + blocks * 8) 8, .write (packet + blocks * 8) 8]

/-- Unwrap the crypt header and decrypt the packet: the new packet and size, unless the
header's size is not the packet's. -/
def cryptoDecryptPacket (w : Worker σ) (s : Machine σ) (packet packetSize : ℕ) :
    Option (ℕ × ℕ) × Machine σ :=
  let s := s.log (.read packet cryptHeaderSize)
  let plainSize := cryptPacketGetHeader s.memory packet
  let packet := packet + cryptHeaderSize
  let packetSize := sizeSub packetSize cryptHeaderSize
  if packetSize ≠ plainSize then (none, s)
  else
    (some (packet, packetSize),
      { s with
        memory := decryptedBlocks w.bfDecrypt s.memory packet (plainSize / 8)
        trace := s.trace ++ blockEvents packet (plainSize / 8) })

def workerHandlePacket (w : Worker σ) (s : Machine σ) (packet packetSize : ℕ) (isCrypted : Bool) :
    PacketHandlerState × Machine σ :=
  let headerSize := clientHeaderSize isCrypted
  let s := s.log (.read packet headerSize)
  let header := clientPacketHeader s.memory packet isCrypted
  let packet := packet + headerSize
  let packetSize := sizeSub packetSize headerSize
  if w.packetHandlersCount < header.type then (.error, s)
  else
    let s := s.log (.lookup header.type)
    match w.packetHandlers header.type with
    | none => (.error, s)
    | some handler =>
      let s := s.log (.call header.type packet packetSize)
      let r := handler s.world s.memory packet packetSize
      (r.state, { s with
        world := r.world, memory := r.memory, msg := s.msg ++ r.replies
        replies := s.replies ++ r.replies })

/-- `zframe_reset` on the frame at a position of the message. -/
def resetFrame (s : Machine σ) (frame : ℕ) (data : Frame) : Machine σ :=
  { s with msg := s.msg.set frame data }

/-- What follows the handler's return state. -/
def finishRequest (w : Worker σ) (headerAnswer : ℕ) :
    PacketHandlerState × Machine σ → Bool × Machine σ
  | (.error, s) => (false, resetFrame s headerAnswer (packetHeader .workerError))
  | (.ok, s) => (true, s)
  | (.updateSession, s) =>
    let (init, s) := s.inWorld w.dbObjectInit
    if !init then (false, s)
    else
      let (updated, s) := s.inWorld w.dbClientUpdateObject
      if !updated then (false, s) else s.inWorld w.redisUpdateSession
  | (.deleteSession, s) => s.inWorld w.redisFlushSession

def workerProcessOneRequest (w : Worker σ) (s : Machine σ) (packet packetSize headerAnswer : ℕ)
    (isCrypted : Bool) : Bool × Machine σ :=
  if isCrypted then
    match cryptoDecryptPacket w s packet packetSize with
    | (none, s) => (false, s)
    | (some (packet, packetSize), s) =>
      finishRequest w headerAnswer (workerHandlePacket w s packet packetSize isCrypted)
  else finishRequest w headerAnswer (workerHandlePacket w s packet packetSize isCrypted)

/-- Whether the packet at the front of what remains is crypted, and its plain size. -/
def workerGetCryptedPacketInfo (serverType : ServerType) (m : Memory) (packetSize packet : ℕ) :
    Option (Bool × ℕ) :=
  match serverType with
  | .zone | .barrack =>
    if packetSize < cryptHeaderSize then none
    else
      let plainSize := cryptPacketGetHeader m packet
      if packetSize - cryptHeaderSize < plainSize then none else some (true, plainSize)
  | .social => some (false, packetSize % 2 ^ 16)
  | .global => none

def subPacketSize (info : Bool × ℕ) : ℕ := if info.1 then info.2 + cryptHeaderSize else info.2

/-- The loop of `workerBuildReply`, with the sub-requests it hands over; `none` when the fuel
runs out before the loop ends. -/
def buildReplyLoop (w : Worker σ) (headerAnswer : ℕ) :
    ℕ → Machine σ → ℕ → ℕ → Option (Bool × Machine σ × List (ℕ × ℕ))
  | 0, _, _, _ => none
  | fuel + 1, s, packetPos, packetSizeRemaining =>
    if packetSizeRemaining = 0 then some (true, s, [])
    else
      match workerGetCryptedPacketInfo w.serverType s.memory packetSizeRemaining packetPos with
      | none => some (false, s, [])
      | some info =>
        let size := subPacketSize info
        let r := workerProcessOneRequest w s packetPos size headerAnswer info.1
        if !r.1 then some (false, r.2, [(packetPos, size)])
        else (buildReplyLoop w headerAnswer fuel r.2 (packetPos + size)
          (sizeSub packetSizeRemaining size)).map
            fun (status, s, handed) => (status, s, (packetPos, size) :: handed)

def workerGetOrCreateSessionObject (w : Worker σ) (sessionKey : SessionKey) (s : Machine σ) :
    Bool × Machine σ :=
  let (found, s) := s.inWorld w.dbClientGetObject
  if found then (true, s)
  else
    let (created, s) := s.inWorld (w.sessionNew sessionKey)
    if !created then (false, s)
    else
      let (wrapped, s) := s.inWorld w.dbObjectNew
      if !wrapped then (false, s) else s.inWorld w.dbClientUpdateObject

def workerBuildReply (w : Worker σ) (fuel : ℕ) (sessionKey : SessionKey) (s : Machine σ)
    (packetSize headerAnswer : ℕ) : Option (Bool × Machine σ × List (ℕ × ℕ)) :=
  let (found, s) := workerGetOrCreateSessionObject w sessionKey s
  if !found then some (false, s, []) else buildReplyLoop w headerAnswer fuel s 0 packetSize

def hexDigits : List Char := "0123456789ABCDEF".toList

/-- The session key: the first five bytes of the identity in hexadecimal. -/
def socketSessionGenSessionKey (sessionId : Frame) : SessionKey :=
  (sessionId.take 5).flatMap fun b =>
    [hexDigits.getD (b.toNat / 16) '0', hexDigits.getD (b.toNat % 16) '0']

/-- Process a client's message in place. The answer's header is the frame that is last in
the message once the header has been pushed. -/
def workerProcessClientPacket (w : Worker σ) (fuel : ℕ) (world : σ) (beyond : Memory)
    (sessionKeyFrame packetFrame : Frame) : Option (Bool × Machine σ) :=
  let sessionKey := socketSessionGenSessionKey sessionKeyFrame
  let s : Machine σ := ⟨world, .ofFrame packetFrame beyond, [sessionKeyFrame], [], []⟩
  let (requested, s) := s.inWorld (w.dbClientRequestObject sessionKey)
  if !requested then some (false, s)
  else
    let (pushed, s) := s.inWorld w.pushHeader
    if !pushed then some (false, s)
    else
      let s := { s with msg := packetHeader .workerNormal :: s.msg }
      let headerAnswer := s.msg.length - 1
      (workerBuildReply w fuel sessionKey s packetFrame.length headerAnswer).map
        fun (status, s, _) => (status, s)

/-- A public request: the machine whose message is sent back. A malformed message has no
answer. -/
def workerHandlePublicRequest (w : Worker σ) (fuel : ℕ) (world : σ) (beyond : Memory)
    (msg : Message) : Option (Option (Machine σ)) :=
  match msg with
  | [sessionKeyFrame, packetFrame] =>
    (workerProcessClientPacket w fuel world beyond sessionKeyFrame packetFrame).map
      fun r => some r.2
  | _ => some none

end R1Emu.Server
