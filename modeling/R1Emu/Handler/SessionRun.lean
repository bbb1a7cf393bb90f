import R1Emu.Lib.Transition
import R1Emu.Game.Redis
import R1Emu.Handler.Zone

/-!
# Requests to a barrack and its zones

A barrack server and zone servers keep their sessions in memories of their own and share
Redis. A request comes from a socket of one of the servers: its session is taken from the
memory, or made, handed to the handler, and saved when the handler asks for it. The requests
of a packet go on with the session that the one before has left.
-/
namespace R1Emu.Handler
open R1Emu.Game R1Emu.Lib R1Emu.Lib.Stage R1Emu.Lib.Transition R1Emu.Packet R1Emu.Server

/-- `SOCKET_SESSION_UNDEFINED_ACCOUNT` and `ACCOUNT_SESSION_PRIVILEGES_PLAYER`. -/
def undefinedAccount : UInt64 := 0xffffffffffffffff
def privilegesPlayer : UInt32 := 3

/-- The bytes copied from the literal `"undefined"`, and from the memory behind it. -/
def undefinedLiteral (beyond : ℕ → UInt8) (n : ℕ) : Chars n :=
  Vector.ofFn fun i => ("undefined".toUTF8.toList ++ [0]).getD i (beyond i)

/-- The session of a new client. The pointer to the commander is copied from the first bytes of
an empty name. -/
def sessionNew (beyond : ℕ → UInt8) (routerId : UInt16) (sessionKey : Chars 11) : Session where
  socket := socketSessionInit undefinedAccount routerId undefinedMap sessionKey false
  game := ⟨accountSessionInit (undefinedLiteral beyond 33) (undefinedLiteral beyond 11)
    privilegesPlayer, ⟨none⟩⟩

/-- The servers' memories, and what was written to the databases. -/
structure Realm (Key : Type) where
  sessions : UInt16 → Chars 11 → Option Session
  /-- The session that a request leaves to the next one of its packet. -/
  left : UInt16 → Chars 11 → Option Session
  heap : UInt16 → Heap Key
  writes : List Write

structure ClientRequest where
  routerId : UInt16
  sessionKey : Chars 11
  /-- Whether another request of the same packet came before. -/
  continues : Bool
  type : PacketType
  memory : Memory
  packet : ℕ
  packetSize : ℕ
  /-- The seed of the worker. -/
  seed : UInt32

/-- The entry of a table that is indexed by two keys. -/
def update₂ {α β γ : Type} [DecidableEq α] [DecidableEq β] (f : α → β → γ) (a : α) (b : β)
    (c : γ) : α → β → γ :=
  Function.update f a (Function.update (f a) b c)

variable {Key : Type} [DecidableEq Key]

/-- The table of handlers of a server. Every server that is not the barrack is a zone. -/
def packetHandlers (barrack routerId : UInt16) (type : PacketType) : Option (Handler Key) :=
  if routerId = barrack then barrackHandlers.lookup type else zoneHandlers.lookup type

omit [DecidableEq Key] in
/-- The session is saved when the handler asks for it; none asks to delete it. -/
def processOneRequest (env : Env Key) (handler : Handler Key) (packet packetSize : ℕ) :
    Handling Key PacketHandlerState := do
  let state ← call (handler env packet packetSize)
  match state with
  | .error => return .error
  | .ok => return .ok
  | .updateSession =>
    let _ ← redisUpdateSession env (← gets (·.session))
    return .updateSession
  | .deleteSession => fault

namespace Realm

omit [DecidableEq Key]

/-- The session of the socket, unless it has none. -/
def session? (s : Realm Key) (request : ClientRequest) : Option Session :=
  if request.continues then
    s.left request.routerId request.sessionKey <|> s.sessions request.routerId request.sessionKey
  else s.sessions request.routerId request.sessionKey

/-- The session that is handed to the handler. -/
def session (s : Realm Key) (beyond : ℕ → UInt8) (request : ClientRequest) : Session :=
  (s.session? request).getD (sessionNew beyond request.routerId request.sessionKey)

/-- The world in which the handler is called. -/
def world (s : Realm Key) (beyond : ℕ → UInt8) (request : ClientRequest) : World Key where
  session := s.session beyond request
  heap := s.heap request.routerId
  seed := request.seed
  writes := s.writes
  memory := request.memory
  reply := []
  events := []
  called := []

/-- A session is stored in the memory of its server. -/
def store (s : Realm Key) (routerId : UInt16) (sessionKey : Chars 11) (session : Session) :
    Realm Key :=
  { s with sessions := update₂ s.sessions routerId sessionKey (some session) }

/-- What is left when a request has been processed. -/
def processed (s : Realm Key) (request : ClientRequest) (state : PacketHandlerState)
    (w : World Key) : Realm Key where
  sessions :=
    if state = .updateSession then
      update₂ s.sessions request.routerId w.session.socket.sessionKey (some w.session)
    else s.sessions
  left := update₂ s.left request.routerId request.sessionKey
    (if state = .error then none else some w.session)
  heap := Function.update s.heap request.routerId w.heap
  writes := w.writes

end Realm

/-- There is no step when the server crashes. A type without a handler is an error. -/
def realmStep (env : Env Key) (barrack : UInt16) (beyond : ℕ → UInt8) (s : Realm Key)
    (request : ClientRequest) : Option (Realm Key) :=
  let session := s.session beyond request
  let s' := s.store request.routerId request.sessionKey session
  match packetHandlers barrack request.routerId request.type with
  | none => some (s'.processed request .error (s.world beyond request))
  | some handler => do
    let (state, w) ← (processOneRequest (env.withRedis request.routerId) handler request.packet
      request.packetSize).run (s.world beyond request)
    return s'.processed request state w

/-- Neither a session nor a key in Redis. -/
def emptyRealm (heap : UInt16 → Heap Key) : Realm Key where
  sessions _ _ := none
  left _ _ := none
  heap := heap
  writes := []

def realm (env : Env Key) (barrack : UInt16) (beyond : ℕ → UInt8) :
    System (Realm Key) ClientRequest where
  init s := ∃ heap, s = emptyRealm heap
  step := realmStep env barrack beyond

end R1Emu.Handler
