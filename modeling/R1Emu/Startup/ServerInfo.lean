import R1Emu.Lib.Buffer
import R1Emu.Lib.CountedLoop
import R1Emu.Server.Worker

/-!
# What a server is started with

The server factory makes the start-up information of a router and of each of its workers out of
one list of parameters. The workers are counted by sixteen bits and their array by an `int`.
-/
namespace R1Emu.Startup
open R1Emu.Lib.Buffer R1Emu.Lib.CountedLoop
open R1Emu.Server (ServerType)

structure MySQLInfo where
  hostname : ZString
  user : ZString
  password : ZString
  database : ZString

structure RedisInfo where
  hostname : ZString
  port : Int32

/-- A table of packet handlers, or a handler of disconnections, is named by the kind of server it
is written for. -/
structure RouterInfo where
  routerId : UInt16
  ip : ZString
  port : Int32
  workersCount : Int32
  redisInfo : RedisInfo
  sqlInfo : MySQLInfo
  disconnectHandler : Option ServerType

structure WorkerInfo where
  workerId : UInt16
  routerId : UInt32
  serverType : ServerType
  globalServerIp : ZString
  globalServerPort : Int32
  sqlInfo : MySQLInfo
  redisInfo : RedisInfo
  packetHandlers : Option ServerType
  routerIp : ZString
  routerPort : Int32

/-- An entry of the array of workers is indeterminate until it is stored. -/
structure ServerInfo where
  routerInfo : RouterInfo
  workersInfo : List (Option WorkerInfo)
  workersInfoCount : Int32
  output : ZString
  serverType : ServerType

/-- The parameters of `serverFactoryCreateServer`. -/
structure Parameters where
  serverType : ServerType
  routerId : UInt16
  routerIp : ZString
  routerPort : Int32
  workersCount : Int32
  output : ZString
  globalServerIp : ZString
  globalServerPort : Int32
  sqlHostname : ZString
  sqlUsername : ZString
  sqlPassword : ZString
  sqlDatabase : ZString
  redisHostname : ZString
  redisPort : Int32
  disconnectHandler : Option ServerType

def packetHandlers : ServerType → Option ServerType
  | .global => none
  | .barrack => some .barrack
  | .social => some .social
  | .zone => some .zone

def Parameters.sqlInfo (p : Parameters) : MySQLInfo :=
  ⟨p.sqlHostname, p.sqlUsername, p.sqlPassword, p.sqlDatabase⟩

def Parameters.redisInfo (p : Parameters) : RedisInfo := ⟨p.redisHostname, p.redisPort⟩

def Parameters.routerInfo (p : Parameters) : RouterInfo :=
  ⟨p.routerId, p.routerIp, p.routerPort, p.workersCount, p.redisInfo, p.sqlInfo,
    p.disconnectHandler⟩

/-- `workerInfoInit`, as the factory calls it. -/
def Parameters.workerInfo (p : Parameters) (workerId : ℕ) : WorkerInfo where
  workerId := .ofNat workerId
  routerId := p.routerId.toUInt32
  serverType := p.serverType
  globalServerIp := p.globalServerIp
  globalServerPort := p.globalServerPort
  sqlInfo := p.sqlInfo
  redisInfo := p.redisInfo
  packetHandlers := packetHandlers p.serverType
  routerIp := p.routerIp
  routerPort := p.routerPort

/-- One round of the loop over the workers. -/
def initWorker (p : Parameters) (workerId : ℕ) (workersInfo : List (Option WorkerInfo)) :
    Option (Bool × List (Option WorkerInfo)) :=
  (put workersInfo workerId (some (p.workerInfo workerId))).map (true, ·)

/-- Nothing when it does not come back, and otherwise the information if it succeeds. -/
def serverFactoryInitServerInfo (fuel : ℕ) (p : Parameters) : Option (Option ServerInfo) :=
  -- There is no memory for an array of a negative length: its size wraps around.
  if p.workersCount.toInt < 0 then some none
  else
    let workersCount := p.workersCount.toInt.toNat
    (countedLoop 16 workersCount (initWorker p) fuel 0 (List.replicate workersCount none)).map
      fun r => if r.1 then
        some ⟨p.routerInfo, r.2, p.workersCount, p.output, p.serverType⟩
      else none

/-- Everything that a server of these parameters has. -/
def Parameters.serverInfo (p : Parameters) : ServerInfo where
  routerInfo := p.routerInfo
  workersInfo := (List.range p.workersCount.toInt.toNat).map fun id => some (p.workerInfo id)
  workersInfoCount := p.workersCount
  output := p.output
  serverType := p.serverType

theorem forEach_initWorker (p : Parameters) (done rest : ℕ) :
    forEach (initWorker p) (List.range' done rest)
        ((List.range done).map (fun id => some (p.workerInfo id)) ++ List.replicate rest none) =
      some (true, (List.range (done + rest)).map fun id => some (p.workerInfo id)) := by
  induction rest generalizing done with
  | zero => simp [forEach]
  | succ rest ih =>
    have hput : put ((List.range done).map (fun id => some (p.workerInfo id)) ++
        List.replicate (rest + 1) none) done (some (p.workerInfo done)) =
          some ((List.range (done + 1)).map (fun id => some (p.workerInfo id)) ++
            List.replicate rest none) := by
      rw [put_of_lt _ (by simp), List.set_append_right _ _ (by simp), List.range_succ,
        List.replicate_succ]
      simp
    have hfirst : initWorker p done ((List.range done).map (fun id => some (p.workerInfo id)) ++
        List.replicate (rest + 1) none) =
          some (true, (List.range (done + 1)).map (fun id => some (p.workerInfo id)) ++
            List.replicate rest none) := by
      rw [initWorker, hput]
      rfl
    have hrest := ih (done + 1)
    rw [Nat.add_right_comm, Nat.add_assoc] at hrest
    rw [List.range'_succ, forEach_cons_eq_true]
    exact ⟨_, hfirst, hrest⟩

/-- The factory succeeds when the number of workers is one of the counter's. -/
theorem serverFactoryInitServerInfo_eq_some {fuel : ℕ} {p : Parameters} {info : ServerInfo} :
    serverFactoryInitServerInfo fuel p = some (some info) ↔
      0 ≤ p.workersCount.toInt ∧ p.workersCount.toInt < 2 ^ 16 ∧
        p.workersCount.toInt < fuel ∧ info = p.serverInfo := by
  rw [serverFactoryInitServerInfo]
  by_cases hneg : p.workersCount.toInt < 0
  · rw [if_pos hneg]
    simp [hneg.not_ge]
  · have hworkers := forEach_initWorker p 0 p.workersCount.toInt.toNat
    rw [List.range_zero, List.map_nil, List.nil_append, Nat.zero_add, ← List.range_eq_range']
      at hworkers
    rw [if_neg hneg, Option.map_eq_some_iff]
    constructor
    · rintro ⟨⟨_ | _, workersInfo⟩, hloop, hinfo⟩
      · cases hinfo
      · obtain ⟨hlt, hfuel, hall⟩ := countedLoop_zero_eq_true.mp hloop
        rw [hworkers] at hall
        cases hall
        exact ⟨by omega, by omega, by omega, (Option.some_inj.mp hinfo).symm⟩
    · rintro ⟨hpos, hlt, hfuel, rfl⟩
      exact ⟨_, countedLoop_zero_eq_true.mpr ⟨by omega, by omega, hworkers⟩, rfl⟩

end R1Emu.Startup
