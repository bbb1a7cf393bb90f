import R1Emu.Startup.CreateProcess
import Mathlib.Data.List.Nodup

/-!
# Starting a cluster

The global server launches a process for each barrack, social and zone server of its
configuration. The routers of each kind are counted from a number of that kind.
-/
namespace R1Emu.Startup
open R1Emu.Lib.Buffer R1Emu.Lib.CountedLoop R1Emu.Utils
open R1Emu.Server (ServerType)

/-! ### The three loops -/

structure BasicServerConf where
  ip : ZString
  port : Int32
  workersCount : Int32
  output : ZString

structure GlobalServerInfo where
  ip : ZString
  port : Int32
  barracksConf : List BasicServerConf
  socialsConf : List BasicServerConf
  zonesConf : List BasicServerConf
  sqlInfo : MySQLInfo
  redisInfo : RedisInfo

def zonesServerRouterId : ℕ := 0
def barracksServerRouterId : ℕ := 1000
def socialsServerRouterId : ℕ := 2000

/-- What a server of the configuration is launched with. -/
def GlobalServerInfo.parameters (info : GlobalServerInfo) (serverType : ServerType)
    (firstRouterId : ℕ) (disconnectHandler : Option ServerType) (id : ℕ)
    (conf : BasicServerConf) : Parameters where
  serverType := serverType
  routerId := .ofNat (firstRouterId + id)
  routerIp := conf.ip
  routerPort := conf.port
  workersCount := conf.workersCount
  output := conf.output
  globalServerIp := info.ip
  globalServerPort := info.port
  sqlHostname := info.sqlInfo.hostname
  sqlUsername := info.sqlInfo.user
  sqlPassword := info.sqlInfo.password
  sqlDatabase := info.sqlInfo.database
  redisHostname := info.redisInfo.hostname
  redisPort := info.redisInfo.port
  disconnectHandler := disconnectHandler

def GlobalServerInfo.barrack (info : GlobalServerInfo) : ℕ → BasicServerConf → Parameters :=
  info.parameters .barrack barracksServerRouterId none

def GlobalServerInfo.social (info : GlobalServerInfo) : ℕ → BasicServerConf → Parameters :=
  info.parameters .social socialsServerRouterId none

def GlobalServerInfo.zone (info : GlobalServerInfo) : ℕ → BasicServerConf → Parameters :=
  info.parameters .zone zonesServerRouterId (some .zone)

/-- Launch one process more. The requests for memory are those of the process by its number. -/
def launchNext (fuel : ℕ) (m : ℕ → Allocations) (p : Parameters) (started : List (List ZString)) :
    Option (Bool × List (List ZString)) :=
  (launch fuel (m started.length) p).map fun
    | none => (false, started)
    | some argv => (true, started ++ [argv])

/-- One of the loops, over an array of configurations. -/
def startServers (fuel : ℕ) (m : ℕ → Allocations) (server : ℕ → BasicServerConf → Parameters)
    (confs : List BasicServerConf) (started : List (List ZString)) :
    Option (Bool × List (List ZString)) :=
  countedLoop 16 confs.length (fun id started => (confs[id]?).bind fun conf =>
    launchNext fuel m (server id conf) started) fuel 0 started

/-- Up to the point where the global server is ready, with the arguments of all processes. -/
def globalServerStart (fuel : ℕ) (m : ℕ → Allocations) (cliBound zonesBound : Bool)
    (info : GlobalServerInfo) : Option (Bool × List (List ZString)) :=
  if !cliBound then some (false, [])
  else if !zonesBound then some (false, [])
  else
    andThen (startServers fuel m info.barrack info.barracksConf []) fun started =>
      andThen (startServers fuel m info.social info.socialsConf started)
        (startServers fuel m info.zone info.zonesConf)

/-- The servers of the configuration in the order in which they are launched. -/
def GlobalServerInfo.servers (info : GlobalServerInfo) : List Parameters :=
  info.barracksConf.mapIdx info.barrack ++ (info.socialsConf.mapIdx info.social ++
    info.zonesConf.mapIdx info.zone)

/-- The global server gets ready, each process creates the server of its entry, and each of them
has a router id of its own. -/
def ClusterStarts (m : ℕ → Allocations) (cliBound zonesBound : Bool) (info : GlobalServerInfo) :
    Prop :=
  ∃ fuel started, globalServerStart fuel m cliBound zonesBound info = some (true, started) ∧
    (started.map zoneServerMain = info.servers.map fun p => some (.server p.inherited)) ∧
    (info.servers.map Parameters.routerId).Nodup

/-! ### All launches in a row -/

section Launches
variable {fuel : ℕ} {m : ℕ → Allocations} {p : Parameters} {ps : List Parameters}
  {started started' : List (List ZString)}

theorem launchNext_eq_true : launchNext fuel m p started = some (true, started') ↔
    ∃ argv, launch fuel (m started.length) p = some (some argv) ∧ started' = started ++ [argv] := by
  rw [launchNext, Option.map_eq_some_iff]
  constructor
  · rintro ⟨_ | argv, hlaunch, h⟩
    · cases h
    · cases h
      exact ⟨argv, hlaunch, rfl⟩
  · rintro ⟨argv, hlaunch, rfl⟩
    exact ⟨some argv, hlaunch, rfl⟩

theorem forEach_launchNext_prefix
    (h : forEach (launchNext fuel m) ps started = some (true, started')) : started <+: started' := by
  induction ps generalizing started with
  | nil =>
    cases h
    exact List.prefix_rfl
  | cons p ps ih =>
    obtain ⟨t, hnext, hrest⟩ := forEach_cons_eq_true.mp h
    obtain ⟨argv, -, rfl⟩ := launchNext_eq_true.mp hnext
    exact (List.prefix_append started [argv]).trans (ih hrest)

theorem launchable_of_forEach
    (h : forEach (launchNext fuel m) ps started = some (true, started'))
    (hmain : started'.map zoneServerMain = started.map zoneServerMain ++
      ps.map fun p => some (.server p.inherited)) :
    ∀ k p, ps[k]? = some p → Launchable (m (started.length + k)) p := by
  induction ps generalizing started with
  | nil => simp
  | cons q ps ih =>
    obtain ⟨t, hnext, hrest⟩ := forEach_cons_eq_true.mp h
    obtain ⟨argv, hlaunch, rfl⟩ := launchNext_eq_true.mp hnext
    obtain ⟨later, rfl⟩ := forEach_launchNext_prefix hrest
    simp only [List.map_append, List.append_assoc, List.append_cancel_left_eq, List.map_cons,
      List.cons_append, List.nil_append, List.cons.injEq] at hmain
    intro k p hp
    cases k with
    | zero =>
      obtain rfl : q = p := by simpa using hp
      exact Launches.launchable ⟨hlaunch, hmain.1⟩
    | succ k =>
      have hlater := ih hrest (by simp [hmain]) k p (by simpa using hp)
      rw [List.length_append, List.length_singleton] at hlater
      rwa [Nat.add_assoc, Nat.add_comm 1 k] at hlater

theorem forEach_of_launchable (hfuel : 2 ^ 16 ≤ fuel)
    (h : ∀ k p, ps[k]? = some p → Launchable (m (started.length + k)) p) :
    forEach (launchNext fuel m) ps started = some (true, started ++ ps.map argumentList) := by
  induction ps generalizing started with
  | nil => simp [forEach]
  | cons p ps ih =>
    have hfirst := ((h 0 p rfl).launches hfuel).1
    have hrest : ∀ k q, ps[k]? = some q →
        Launchable (m ((started ++ [argumentList p]).length + k)) q := by
      intro k q hq
      have hlater := h (k + 1) q (by simpa using hq)
      rw [List.length_append, List.length_singleton]
      rwa [Nat.add_assoc, Nat.add_comm 1 k]
    rw [forEach_cons_eq_true]
    refine ⟨_, launchNext_eq_true.mpr ⟨_, hfirst, rfl⟩, ?_⟩
    rw [ih hrest]
    simp

end Launches

/-! ### The whole cluster -/

theorem startServers_eq_true {fuel : ℕ} {m : ℕ → Allocations}
    {server : ℕ → BasicServerConf → Parameters} {confs : List BasicServerConf}
    {started started' : List (List ZString)} :
    startServers fuel m server confs started = some (true, started') ↔
      confs.length < 2 ^ 16 ∧ confs.length < fuel ∧
        forEach (launchNext fuel m) (confs.mapIdx server) started = some (true, started') := by
  have hservers : (List.range confs.length).map (fun id => (confs[id]?).map (server id)) =
      (confs.mapIdx server).map some := by
    apply List.ext_getElem
    · simp
    · intro id hid hid'
      simp at hid
      simp [hid]
  have hloop : forEach (fun id started => (confs[id]?).bind fun conf =>
      launchNext fuel m (server id conf) started) (List.range confs.length) =
        forEach (launchNext fuel m) (confs.mapIdx server) := by
    calc _ = forEach (fun p started => Option.bind p fun p => launchNext fuel m p started)
          ((List.range confs.length).map fun id => (confs[id]?).map (server id)) := by
          rw [forEach_map]
          apply forEach_congr
          intro id _
          cases confs[id]? <;> rfl
      _ = _ := by
          rw [hservers, forEach_map]
          rfl
  rw [startServers, countedLoop_zero_eq_true, hloop]

theorem globalServerStart_eq_true {fuel : ℕ} {m : ℕ → Allocations} {cliBound zonesBound : Bool}
    {info : GlobalServerInfo} {started : List (List ZString)} :
    globalServerStart fuel m cliBound zonesBound info = some (true, started) ↔
      cliBound ∧ zonesBound ∧
        (∀ confs ∈ [info.barracksConf, info.socialsConf, info.zonesConf],
          confs.length < 2 ^ 16 ∧ confs.length < fuel) ∧
        forEach (launchNext fuel m) info.servers [] = some (true, started) := by
  cases cliBound with
  | false => simp [globalServerStart]
  | true =>
    cases zonesBound with
    | false => simp [globalServerStart]
    | true =>
      simp only [globalServerStart, Bool.not_true, Bool.false_eq_true, if_false, andThen_eq_true,
        startServers_eq_true, GlobalServerInfo.servers, forEach_append_eq_true]
      constructor
      · rintro ⟨t, ⟨hbarracks, hbarracks', hfirst⟩, u, ⟨hsocials, hsocials', hsecond⟩, hzones,
          hzones', hthird⟩
        have hcounts : ∀ confs ∈ [info.barracksConf, info.socialsConf, info.zonesConf],
            confs.length < 2 ^ 16 ∧ confs.length < fuel := by
          simp only [List.forall_mem_cons]
          exact ⟨⟨hbarracks, hbarracks'⟩, ⟨hsocials, hsocials'⟩, ⟨hzones, hzones'⟩, by simp⟩
        exact ⟨trivial, trivial, hcounts, t, hfirst, u, hsecond, hthird⟩
      · rintro ⟨-, -, hcounts, t, hfirst, u, hsecond, hthird⟩
        simp only [List.forall_mem_cons] at hcounts
        obtain ⟨⟨hbarracks, hbarracks'⟩, ⟨hsocials, hsocials'⟩, ⟨hzones, hzones'⟩, -⟩ := hcounts
        exact ⟨t, ⟨hbarracks, hbarracks', hfirst⟩, u, ⟨hsocials, hsocials', hsecond⟩, hzones,
          hzones', hthird⟩

/-! ### The ids of the routers -/

theorem routerIds_mapIdx (info : GlobalServerInfo) (serverType : ServerType) (first : ℕ)
    (handler : Option ServerType) (confs : List BasicServerConf) :
    (confs.mapIdx (info.parameters serverType first handler)).map Parameters.routerId =
      (List.range confs.length).map fun id => UInt16.ofNat (first + id) := by
  apply List.ext_getElem
  · simp
  · intro id hid hid'
    simp [GlobalServerInfo.parameters]

theorem routerId_eq_iff (x y : ℕ) : UInt16.ofNat x = UInt16.ofNat y ↔ x % 2 ^ 16 = y % 2 ^ 16 := by
  rw [← UInt16.toNat_inj]
  simp

/-- The ids of two kinds of servers are kept apart. -/
def Apart (first count first' count' : ℕ) : Prop :=
  count = 0 ∨ count' = 0 ∨ count ≤ first' - first ∧ first' + count' ≤ 2 ^ 16 + first

theorem routerIds_disjoint_iff {first count first' count' : ℕ} (h : first ≤ first')
    (hlt : first' < 2 ^ 16) :
    ((List.range count).map fun id => UInt16.ofNat (first + id)).Disjoint
        ((List.range count').map fun id => UInt16.ofNat (first' + id)) ↔
      Apart first count first' count' := by
  rw [Apart, ← ranges_apart_iff h hlt, List.disjoint_left]
  constructor
  · intro hdisjoint i hi j hj heq
    exact hdisjoint (List.mem_map_of_mem (List.mem_range.mpr hi))
      (List.mem_map.mpr ⟨j, List.mem_range.mpr hj, (routerId_eq_iff _ _).mpr heq.symm⟩)
  · intro hapart id hid hid'
    obtain ⟨i, hi, rfl⟩ := List.mem_map.mp hid
    obtain ⟨j, hj, heq⟩ := List.mem_map.mp hid'
    exact hapart i (List.mem_range.mp hi) j (List.mem_range.mp hj)
      ((routerId_eq_iff _ _).mp heq).symm

theorem routerIds_nodup {first count : ℕ} (h : count ≤ 2 ^ 16) :
    ((List.range count).map fun id => UInt16.ofNat (first + id)).Nodup := by
  apply List.Nodup.map_on
  · intro i hi j hj hij
    rw [routerId_eq_iff] at hij
    rw [List.mem_range] at hi hj
    omega
  · exact List.nodup_range

/-- The ids of the routers are distinct. -/
def RouterIdsApart (info : GlobalServerInfo) : Prop :=
  Apart zonesServerRouterId info.zonesConf.length barracksServerRouterId
      info.barracksConf.length ∧
    Apart zonesServerRouterId info.zonesConf.length socialsServerRouterId
      info.socialsConf.length ∧
    Apart barracksServerRouterId info.barracksConf.length socialsServerRouterId
      info.socialsConf.length

theorem routerIds_nodup_iff {info : GlobalServerInfo}
    (hcounts : ∀ confs ∈ [info.barracksConf, info.socialsConf, info.zonesConf],
      confs.length < 2 ^ 16) :
    (info.servers.map Parameters.routerId).Nodup ↔ RouterIdsApart info := by
  simp only [List.forall_mem_cons] at hcounts
  obtain ⟨hbarracks, hsocials, hzones, -⟩ := hcounts
  rw [RouterIdsApart, ← routerIds_disjoint_iff (by decide) (by decide),
    ← routerIds_disjoint_iff (by decide) (by decide),
    ← routerIds_disjoint_iff (by decide) (by decide), GlobalServerInfo.servers, List.map_append,
    List.map_append, GlobalServerInfo.barrack, GlobalServerInfo.social, GlobalServerInfo.zone,
    routerIds_mapIdx, routerIds_mapIdx, routerIds_mapIdx, List.nodup_append', List.nodup_append',
    List.disjoint_append_right]
  constructor
  · rintro ⟨-, ⟨-, -, hsocial⟩, hbarrack, hzone⟩
    exact ⟨List.disjoint_symm hzone, List.disjoint_symm hsocial, hbarrack⟩
  · rintro ⟨hzone, hsocial, hbarrack⟩
    exact ⟨routerIds_nodup hbarracks.le, ⟨routerIds_nodup hsocials.le, routerIds_nodup hzones.le,
      List.disjoint_symm hsocial⟩, hbarrack, List.disjoint_symm hzone⟩

/-- A cluster is started as it is configured exactly when both sockets are bound, there are fewer
than 65536 servers of each kind, their router ids are distinct, and each server can be launched. -/
theorem cluster_starts_iff (m : ℕ → Allocations) (cliBound zonesBound : Bool)
    (info : GlobalServerInfo) :
    ClusterStarts m cliBound zonesBound info ↔ cliBound ∧ zonesBound ∧
      (∀ confs ∈ [info.barracksConf, info.socialsConf, info.zonesConf], confs.length < 2 ^ 16) ∧
      RouterIdsApart info ∧ ∀ k p, info.servers[k]? = some p → Launchable (m k) p := by
  constructor
  · rintro ⟨fuel, started, hstart, hmain, hids⟩
    obtain ⟨hcli, hzones, hcounts, hall⟩ := globalServerStart_eq_true.mp hstart
    have hshort : ∀ confs ∈ [info.barracksConf, info.socialsConf, info.zonesConf],
        confs.length < 2 ^ 16 := fun confs hconfs => (hcounts confs hconfs).1
    have hlaunchable := launchable_of_forEach hall hmain
    simp only [List.length_nil, Nat.zero_add] at hlaunchable
    exact ⟨hcli, hzones, hshort, (routerIds_nodup_iff hshort).mp hids, hlaunchable⟩
  · rintro ⟨hcli, hzones, hcounts, hids, hlaunchable⟩
    have hall : forEach (launchNext (2 ^ 16) m) info.servers [] =
        some (true, info.servers.map argumentList) :=
      forEach_of_launchable le_rfl (by simpa using hlaunchable)
    refine ⟨2 ^ 16, _, globalServerStart_eq_true.mpr ⟨hcli, hzones, fun confs hconfs =>
      ⟨hcounts confs hconfs, hcounts confs hconfs⟩, hall⟩, ?_, (routerIds_nodup_iff hcounts).mpr hids⟩
    apply List.ext_getElem
    · simp
    · intro k hk hk'
      have hlaunch := hlaunchable k _ (List.getElem?_eq_getElem (by simpa using hk))
      simpa using (hlaunch.launches le_rfl).2

end R1Emu.Startup
