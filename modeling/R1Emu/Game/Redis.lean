import R1Emu.Game.Database
import R1Emu.Lib.KeyValue

/-!
# Redis as a map

What the commands that were sent have left in Redis: the socket sessions, and the game
sessions with those of their fields that have been set. `RENAME` moves a key that exists, and
is refused otherwise. The other commands of a save are always acknowledged.
-/
namespace R1Emu.Game
open R1Emu.Lib R1Emu.Lib.KeyValue R1Emu.Lib.Stage R1Emu.Server
open R1Emu.Commander (eqSlotCount)

deriving instance DecidableEq for RedisSocketSessionKey
deriving instance DecidableEq for RedisGameSessionKey

structure SocketHash where
  accountId : UInt64
  routerId : UInt16
  mapId : UInt16
  authenticated : Bool

/-- The key of the game session that a socket session names. -/
def SocketHash.gameKey (socket : SocketHash) : RedisGameSessionKey :=
  ⟨socket.routerId, socket.mapId, socket.accountId⟩

/-- The fields of a game session, by the command that sets them. -/
structure GameHash where
  account : Option AccountFields
  commander : Option CommanderFields
  equipment : Option (Fin eqSlotCount → UInt32)

def GameHash.empty : GameHash := ⟨none, none, none⟩

structure Redis where
  sockets : Map RedisSocketSessionKey SocketHash
  games : Map RedisGameSessionKey GameHash

/-- The game session whose fields are set, and how. -/
def Write.sets : Write → Option (RedisGameSessionKey × (GameHash → GameHash))
  | .hmsetAccount key fields => some (key, fun hash => { hash with account := some fields })
  | .hmsetCommander key fields => some (key, fun hash => { hash with commander := some fields })
  | .hmsetEquipment key eqSlots => some (key, fun hash => { hash with equipment := some eqSlots })
  | _ => none

namespace Redis

/-- `HMSET` of a game session creates the key where it has to. -/
def hmset (self : Redis) (key : RedisGameSessionKey) (set : GameHash → GameHash) : Redis :=
  { self with
    games := Function.update self.games key (some (set ((self.games key).getD .empty))) }

def rename (self : Redis) (source target : RedisGameSessionKey) : Redis :=
  match self.games source with
  | none => self
  | some hash =>
    { self with
      games := Function.update (Function.update self.games source none) target (some hash) }

def apply (self : Redis) (write : Write) : Redis :=
  match write.sets with
  | some (key, set) => self.hmset key set
  | none =>
    match write with
    | .hmsetSocket key accountId routerId mapId authenticated =>
      { self with
        sockets := Function.update self.sockets key
          (some ⟨accountId, routerId, mapId, authenticated⟩) }
    | .rename source target => self.rename source target
    | _ => self

theorem apply_of_sets (self : Redis) {write : Write} {key : RedisGameSessionKey}
    {set : GameHash → GameHash} (h : write.sets = some (key, set)) :
    self.apply write = self.hmset key set := by
  cases write <;> cases h <;> rfl

theorem hmset_games (self : Redis) (key : RedisGameSessionKey) (set : GameHash → GameHash) :
    (self.hmset key set).games =
      Function.update self.games key (some (set ((self.games key).getD .empty))) := rfl

theorem rename_self_games (self : Redis) (key : RedisGameSessionKey) :
    (self.rename key key).games = self.games := by
  unfold rename
  cases hkey : self.games key with
  | none => rfl
  | some hash =>
    change Function.update (Function.update self.games key none) key (some hash) = self.games
    rw [Function.update_idem, ← hkey, Function.update_eq_self]

theorem rename_games_target {self : Redis} {source : RedisGameSessionKey} {hash : GameHash}
    (h : self.games source = some hash) (target : RedisGameSessionKey) :
    (self.rename source target).games target = some hash := by
  rw [rename, h]
  exact Function.update_self ..

theorem rename_sockets (self : Redis) (source target : RedisGameSessionKey) :
    (self.rename source target).sockets = self.sockets := by
  unfold rename
  cases self.games source <;> rfl

end Redis

def redisOf (writes : List Write) : Redis := writes.foldl Redis.apply ⟨Map.empty, Map.empty⟩

/-- The fields of an account's game session as they were last saved, under any key. -/
def lastSaved (writes : List Write) : UInt64 → GameHash :=
  writes.foldl (fun saved write =>
    match write.sets with
    | some (key, set) => Function.update saved key.accountId (set (saved key.accountId))
    | none => saved) fun _ => .empty

theorem redisOf_concat (writes : List Write) (write : Write) :
    redisOf (writes ++ [write]) = (redisOf writes).apply write := by
  rw [redisOf, List.foldl_append]
  rfl

theorem lastSaved_concat (writes : List Write) (write : Write) :
    lastSaved (writes ++ [write]) =
      match write.sets with
      | some (key, set) =>
        Function.update (lastSaved writes) key.accountId (set (lastSaved writes key.accountId))
      | none => lastSaved writes := by
  rw [lastSaved, List.foldl_append]
  rfl

/-- The answer of Redis to a command, or of the other database to a statement. -/
def redisAnswer (write : List Write → Write → Answer) (writes : List Write) : Write → Answer
  | .hmsetSocket .. | .hmsetAccount .. | .hmsetCommander .. | .hmsetEquipment .. =>
    ⟨true, true, fun _ => rfl, 0⟩
  | .rename source _ =>
    let found := ((redisOf writes).games source).isSome
    ⟨found, found, id, 0⟩
  | statement => write writes statement

variable {Key : Type}

/-- A server's environment, with Redis as a map. -/
def Env.withRedis (env : Env Key) (routerId : UInt16) : Env Key :=
  { env with
    routerId := routerId
    write := redisAnswer env.write
    hmgetAccount := fun writes key => .array (((redisOf writes).games key).bind (·.account))
    hmgetGame := fun writes key => .array (((redisOf writes).games key).bind fun hash => do
      return ⟨← hash.account, ← hash.commander, ← hash.equipment⟩) }

end R1Emu.Game
