import R1Emu.Game.Position
import R1Emu.Game.Redis
import R1Emu.Lib.Collect
import Mathlib.Tactic.NormNum

/-!
# The clients within a distance

The keys of a map's game sessions are asked for in batches: each answer has a cursor for the
next request, until it is zero. The cursor is kept in an `int`, and every key of a batch is
looked at, whether it has come before or not.
-/
namespace R1Emu.Zone
open R1Emu.Game R1Emu.Lib R1Emu.Lib.KeyValue

/-- The fields of a game session that are asked for, a coordinate as the bits of what `strtof`
makes of it. A field that is not set is nil. -/
structure PositionFields where
  posX : Option UInt32
  posZ : Option UInt32
  sessionKey : Option (List UInt8)

/-- Everything that `redisGetClientsWithinDistance` is called with, and what Redis holds. -/
structure RangeQuery where
  games : Map RedisGameSessionKey PositionFields
  routerId : UInt16
  mapId : UInt16
  center : PositionXZ
  range : UInt32
  ignoredSessionKey : Option (List UInt8)

/-- An entry of the list of clients. The list has the session key alone; the key tells the client
that it was found for. -/
structure FoundClient where
  key : RedisGameSessionKey
  socketId : List UInt8

/-- An answer to `SCAN`: a cursor, and a batch of keys. -/
abbrev ScanReply := UInt64 × List RedisGameSessionKey

/-- `(int) strtoul(reply->element[0]->str, NULL, 10)`. -/
def toIterator (cursor : UInt64) : ℤ := Int.bmod cursor.toNat (2 ^ 32)

namespace RangeQuery

/-- `HMGET`. A key that does not exist has only nils. -/
def hmget (self : RangeQuery) (key : RedisGameSessionKey) : PositionFields :=
  (self.games key).getD ⟨none, none, none⟩

/-- A string that is nil is a null pointer that is followed. -/
def addClient (self : RangeQuery) (clients : List FoundClient) (key : RedisGameSessionKey) :
    Option (List FoundClient) := do
  let posReply := self.hmget key
  let curPos : PositionXZ := ⟨← posReply.posX, ← posReply.posZ⟩
  if Game.mathIsWithin2DManhattanDistance curPos self.center self.range then do
    let socketId ← posReply.sessionKey
    return if self.ignoredSessionKey = some socketId then clients
      else clients ++ [⟨key, socketId⟩]
  else return clients

/-- The cursors that are passed to `SCAN`, and the clients. There is no result when the function
crashes, or goes on for longer than the fuel lasts. -/
def scanFrom (self : RangeQuery) (scan : ℕ → ℤ → ScanReply) :
    (fuel call : ℕ) → ℤ → List FoundClient → Option (List ℤ × List FoundClient)
  | 0, _, _, _ => none
  | fuel + 1, call, iterator, clients => do
    let reply := scan call iterator
    let clients ← reply.2.foldlM self.addClient clients
    if toIterator reply.1 = 0 then return ([iterator], clients)
    else
      let (passed, clients) ← self.scanFrom scan fuel (call + 1) (toIterator reply.1) clients
      return (iterator :: passed, clients)

def redisGetClientsWithinDistance (self : RangeQuery) (scan : ℕ → ℤ → ScanReply) (fuel : ℕ) :
    Option (List ℤ × List FoundClient) :=
  self.scanFrom scan fuel 0 0 []

/-- The key is one of the map's game sessions: `zone%x:map%x:acc*`. -/
def Matches (self : RangeQuery) (key : RedisGameSessionKey) : Prop :=
  key.routerId = self.routerId ∧ key.mapId = self.mapId ∧ (self.games key).isSome = true

end RangeQuery

/-! ### Iterations -/

/-- The requests and the batches of an iteration in which every cursor is passed back: it goes on
from a cursor until the cursor that is returned is zero. -/
inductive Scans (scan : ℕ → ℤ → ScanReply) : ℕ → ℤ → List (ℤ × List RedisGameSessionKey) → Prop
  | last {call : ℕ} {cursor : ℤ} {keys : List RedisGameSessionKey}
      (h : scan call cursor = (0, keys)) : Scans scan call cursor [(cursor, keys)]
  | next {call : ℕ} {cursor : ℤ} {keys : List RedisGameSessionKey} {returned : UInt64}
      {steps : List (ℤ × List RedisGameSessionKey)} (h : scan call cursor = (returned, keys))
      (hmore : returned ≠ 0) (hsteps : Scans scan (call + 1) returned.toNat steps) :
      Scans scan call cursor ((cursor, keys) :: steps)

/-- The keys of all batches. -/
def scannedKeys (steps : List (ℤ × List RedisGameSessionKey)) : List RedisGameSessionKey :=
  steps.flatMap Prod.snd

/-- What Redis answers to `SCAN`, which may depend on everything that was asked before. An
iteration that is followed ends, returns every key of the map, and no other. -/
structure ScanServer (query : RangeQuery) where
  scan : ℕ → ℤ → ScanReply
  steps : List (ℤ × List RedisGameSessionKey)
  scans : Scans scan 0 0 steps
  mem_iff : ∀ key, key ∈ scannedKeys steps ↔ query.Matches key

/-! ### What the query should do -/

/-- What "within the distance" can be taken to mean: what the function tests, or what its
description says. -/
inductive Distance
  | tested
  | manhattan

def Distance.within (pos1 pos2 : PositionXZ) (range : UInt32) : Distance → Bool
  | tested => Game.mathIsWithin2DManhattanDistance pos1 pos2 range
  | manhattan => isWithinManhattanDistance pos1 pos2 range

namespace RangeQuery

/-- A client that is within the distance and is not ignored, with its session key. -/
def clientWithin (self : RangeQuery) (distance : Distance) (key : RedisGameSessionKey) :
    Option FoundClient := do
  let fields := self.hmget key
  let curPos : PositionXZ := ⟨← fields.posX, ← fields.posZ⟩
  if distance.within curPos self.center self.range then do
    let socketId ← fields.sessionKey
    if self.ignoredSessionKey = some socketId then none else some ⟨key, socketId⟩
  else none

/-- The function ends with the iteration and passes every cursor back, and its result has the
session key of each client of the map within the distance once, and no other. -/
def Exact (self : RangeQuery) (server : ScanServer self) (distance : Distance) : Prop :=
  ∃ (fuel : ℕ) (result : List FoundClient) (clients : List RedisGameSessionKey),
    self.redisGetClientsWithinDistance server.scan fuel =
      some (server.steps.map Prod.fst, result) ∧
    clients.Nodup ∧ (∀ key, key ∈ clients ↔ self.Matches key) ∧
    result.Perm (clients.filterMap (self.clientWithin distance))

/-- No string that is needed is nil. -/
structure Readable (query : RangeQuery) (key : RedisGameSessionKey) : Prop where
  posX : (query.hmget key).posX.isSome = true
  posZ : (query.hmget key).posZ.isSome = true
  sessionKey : ∀ x ∈ (query.hmget key).posX, ∀ z ∈ (query.hmget key).posZ,
    Game.mathIsWithin2DManhattanDistance ⟨x, z⟩ query.center query.range = true →
      (query.hmget key).sessionKey.isSome = true

/-- The cursors fit the `int`, the game sessions of the map have their fields, a client that is
found is in the batches once, and the clients that are found are those within the distance. -/
structure Fits (query : RangeQuery) (server : ScanServer query) (distance : Distance) : Prop where
  cursors : ∀ step ∈ server.steps, step.1 < 2 ^ 31
  readable : ∀ key, query.Matches key → query.Readable key
  once : ((scannedKeys server.steps).filter
    fun key => (query.clientWithin .tested key).isSome).Nodup
  within : ∀ key, query.Matches key → query.clientWithin .tested key = query.clientWithin distance key

end RangeQuery

/-! ### One batch -/

section Batch
variable {query : RangeQuery} {key : RedisGameSessionKey} {keys : List RedisGameSessionKey}
  {clients result : List FoundClient}

theorem addClient_readable (h : query.Readable key) (clients : List FoundClient) :
    query.addClient clients key = some (clients ++ (query.clientWithin .tested key).toList) := by
  obtain ⟨hx, hz, hkey⟩ := h
  obtain ⟨x, hx⟩ := Option.isSome_iff_exists.mp hx
  obtain ⟨z, hz⟩ := Option.isSome_iff_exists.mp hz
  rw [RangeQuery.addClient, RangeQuery.clientWithin]
  simp only [hx, hz, Option.bind_eq_bind, Option.bind_some]
  by_cases hnear : Game.mathIsWithin2DManhattanDistance ⟨x, z⟩ query.center query.range = true
  · have hwithin : Distance.tested.within ⟨x, z⟩ query.center query.range = true := hnear
    obtain ⟨socketId, hsocketId⟩ := Option.isSome_iff_exists.mp (hkey x hx z hz hnear)
    rw [if_pos hnear, if_pos hwithin, hsocketId, Option.bind_some, Option.bind_some]
    by_cases hignored : query.ignoredSessionKey = some socketId <;> simp [hignored]
  · have hwithin : ¬ Distance.tested.within ⟨x, z⟩ query.center query.range = true := hnear
    rw [if_neg hnear, if_neg hwithin]
    simp

theorem addClient_unreadable (h : ¬ query.Readable key) (clients : List FoundClient) :
    query.addClient clients key = none := by
  rw [RangeQuery.addClient]
  cases hx : (query.hmget key).posX with
  | none => rfl
  | some x =>
    cases hz : (query.hmget key).posZ with
    | none => rfl
    | some z =>
      cases hkey : (query.hmget key).sessionKey with
      | none =>
        by_cases hnear : Game.mathIsWithin2DManhattanDistance ⟨x, z⟩ query.center query.range = true
        · simp [hnear]
        · refine absurd ⟨by rw [hx]; rfl, by rw [hz]; rfl, ?_⟩ h
          rintro x' hx' z' hz' hnear'
          cases hx.symm.trans hx'
          cases hz.symm.trans hz'
          exact absurd hnear' hnear
      | some socketId =>
        refine absurd ⟨by rw [hx]; rfl, by rw [hz]; rfl, fun _ _ _ _ _ => ?_⟩ h
        rw [hkey]
        rfl

/-- A batch is added when all of it can be read. -/
theorem foldlM_addClient : keys.foldlM query.addClient clients = some result ↔
    (∀ key ∈ keys, query.Readable key) ∧
      result = clients ++ keys.filterMap (query.clientWithin .tested) := by
  induction keys generalizing clients with
  | nil => simp [eq_comm]
  | cons key keys ih =>
    rw [List.foldlM_cons, Option.bind_eq_bind, List.forall_mem_cons]
    by_cases hreadable : query.Readable key
    · rw [addClient_readable hreadable, Option.bind_some, ih]
      simp only [hreadable, true_and, List.append_assoc]
      cases hfound : query.clientWithin .tested key with
      | none => simp [hfound]
      | some socketId => simp [hfound]
    · rw [addClient_unreadable hreadable, Option.bind_none]
      simp [hreadable]

end Batch

/-! ### The loop -/

section Loop
variable {query : RangeQuery} {scan : ℕ → ℤ → ScanReply} {fuel call : ℕ} {cursor iterator : ℤ}
  {steps : List (ℤ × List RedisGameSessionKey)} {clients result : List FoundClient}

/-- The `int` holds the cursor when it is small enough. -/
theorem toIterator_eq_iff (returned : UInt64) :
    toIterator returned = returned.toNat ↔ returned.toNat < 2 ^ 31 := by
  unfold toIterator
  generalize returned.toNat = n
  have hbmod : Int.bmod n (2 ^ 32) = if (n : ℤ) % 4294967296 < 2147483648 then
      (n : ℤ) % 4294967296 else (n : ℤ) % 4294967296 - 4294967296 := Int.bmod_def ..
  rw [hbmod]
  split <;> omega

theorem toIterator_zero : toIterator 0 = 0 := by decide

theorem toIterator_ne_zero {returned : UInt64} (hmore : returned ≠ 0)
    (h : toIterator returned = returned.toNat) : ¬ toIterator returned = 0 := by
  intro hzero
  apply hmore
  rw [h] at hzero
  exact UInt64.toNat_inj.mp (Int.ofNat_eq_zero.mp hzero)

theorem Scans.head (h : Scans scan call cursor steps) :
    ∃ keys rest, steps = (cursor, keys) :: rest := by
  cases h with
  | last h => exact ⟨_, _, rfl⟩
  | next h hmore hsteps => exact ⟨_, _, rfl⟩

theorem scanFrom_succ (scan : ℕ → ℤ → ScanReply) (fuel call : ℕ) (iterator : ℤ)
    (clients : List FoundClient) : query.scanFrom scan (fuel + 1) call iterator clients =
      ((scan call iterator).2.foldlM query.addClient clients).bind fun clients =>
        if toIterator (scan call iterator).1 = 0 then some ([iterator], clients)
        else (query.scanFrom scan fuel (call + 1) (toIterator (scan call iterator).1) clients).bind
          fun rest => some (iterator :: rest.1, rest.2) := rfl

theorem scanFrom_head {passed : List ℤ}
    (h : query.scanFrom scan fuel call iterator clients = some (passed, result)) :
    ∃ rest, passed = iterator :: rest := by
  cases fuel with
  | zero => cases h
  | succ fuel =>
    rw [scanFrom_succ] at h
    obtain ⟨clients', -, h⟩ := Option.bind_eq_some_iff.mp h
    split at h
    · cases h
      exact ⟨[], rfl⟩
    · obtain ⟨⟨passed', result'⟩, -, h⟩ := Option.bind_eq_some_iff.mp h
      cases h
      exact ⟨passed', rfl⟩

/-- An iteration with small cursors is followed to its end. -/
theorem scanFrom_scans (h : Scans scan call cursor steps)
    (hcursors : ∀ step ∈ steps, step.1 < 2 ^ 31)
    (hreadable : ∀ key ∈ scannedKeys steps, query.Readable key) (clients : List FoundClient) :
    query.scanFrom scan steps.length call cursor clients = some (steps.map Prod.fst,
      clients ++ (scannedKeys steps).filterMap (query.clientWithin .tested)) := by
  induction h generalizing clients with
  | @last call cursor keys h =>
    rw [scannedKeys, List.flatMap_singleton] at *
    have hbatch : keys.foldlM query.addClient clients =
        some (clients ++ keys.filterMap (query.clientWithin .tested)) :=
      foldlM_addClient.mpr ⟨hreadable, rfl⟩
    rw [List.length_singleton, scanFrom_succ, h, hbatch, Option.bind_some, if_pos toIterator_zero,
      List.map_singleton]
  | @next call cursor keys returned steps h hmore hsteps ih =>
    rw [scannedKeys, List.flatMap_cons, List.forall_mem_append] at hreadable
    have hbatch : keys.foldlM query.addClient clients =
        some (clients ++ keys.filterMap (query.clientWithin .tested)) :=
      foldlM_addClient.mpr ⟨hreadable.1, rfl⟩
    have hiterator : toIterator returned = returned.toNat := by
      obtain ⟨keys', rest, rfl⟩ := hsteps.head
      have hsmall := hcursors _ (List.mem_cons_of_mem _ List.mem_cons_self)
      simp only at hsmall
      exact (toIterator_eq_iff returned).mpr (by omega)
    have hrest := ih (fun step hstep => hcursors step (List.mem_cons_of_mem _ hstep)) hreadable.2
      (clients ++ keys.filterMap (query.clientWithin .tested))
    rw [List.length_cons, scanFrom_succ, h, hbatch, Option.bind_some,
      if_neg (toIterator_ne_zero hmore hiterator), hiterator, hrest, Option.bind_some, scannedKeys,
      scannedKeys, List.flatMap_cons, List.filterMap_append, List.append_assoc, List.map_cons]

/-- A run that passes the cursors of an iteration has kept them, and has read its keys. -/
theorem small_of_scanFrom (h : Scans scan call cursor steps)
    (hrun : query.scanFrom scan fuel call cursor clients = some (steps.map Prod.fst, result)) :
    (∀ step ∈ steps.tail, step.1 < 2 ^ 31) ∧
      (∀ key ∈ scannedKeys steps, query.Readable key) ∧
      result = clients ++ (scannedKeys steps).filterMap (query.clientWithin .tested) := by
  induction h generalizing fuel clients with
  | @last call cursor keys h =>
    cases fuel with
    | zero => cases hrun
    | succ fuel =>
      rw [scanFrom_succ, h] at hrun
      obtain ⟨added, hbatch, hrun⟩ := Option.bind_eq_some_iff.mp hrun
      rw [if_pos toIterator_zero] at hrun
      obtain rfl : added = result := congrArg Prod.snd (Option.some.inj hrun)
      rw [scannedKeys, List.flatMap_singleton]
      exact ⟨fun _ hstep => absurd hstep List.not_mem_nil, foldlM_addClient.mp hbatch⟩
  | @next call cursor keys returned steps h hmore hsteps ih =>
    cases fuel with
    | zero => cases hrun
    | succ fuel =>
      rw [scanFrom_succ, h] at hrun
      obtain ⟨added, hbatch, hrun⟩ := Option.bind_eq_some_iff.mp hrun
      obtain ⟨hreadable, rfl⟩ := foldlM_addClient.mp hbatch
      obtain ⟨keys', rest, hhead⟩ := hsteps.head
      split at hrun
      · have hpassed := congrArg Prod.fst (Option.some.inj hrun)
        rw [hhead] at hpassed
        cases hpassed
      · obtain ⟨⟨passed, final⟩, htail, hrun⟩ := Option.bind_eq_some_iff.mp hrun
        obtain ⟨hpassed, rfl⟩ := Prod.mk.inj (Option.some.inj hrun)
        obtain rfl : passed = steps.map Prod.fst := (List.cons.inj hpassed).2
        -- what is passed next is what was returned
        have hiterator : toIterator returned = returned.toNat := by
          obtain ⟨others, hothers⟩ := scanFrom_head htail
          rw [hhead] at hothers
          exact (List.cons.inj hothers).1.symm
        rw [hiterator] at htail
        obtain ⟨hsmall, hrest, rfl⟩ := ih htail
        refine ⟨?_, ?_, ?_⟩
        · rw [hhead] at hsmall ⊢
          rw [List.tail_cons, List.forall_mem_cons]
          refine ⟨?_, hsmall⟩
          have hlt := (toIterator_eq_iff returned).mp hiterator
          simp only
          omega
        · rw [scannedKeys, List.flatMap_cons, List.forall_mem_append]
          exact ⟨hreadable, hrest⟩
        · rw [scannedKeys, scannedKeys, List.flatMap_cons, List.filterMap_append,
            List.append_assoc]

end Loop

/-- What is found tells the client. -/
theorem key_of_clientWithin {query : RangeQuery} {distance : Distance}
    (key : RedisGameSessionKey) (found : FoundClient)
    (h : query.clientWithin distance key = some found) : found.key = key := by
  rw [RangeQuery.clientWithin] at h
  obtain ⟨x, -, h⟩ := Option.bind_eq_some_iff.mp h
  obtain ⟨z, -, h⟩ := Option.bind_eq_some_iff.mp h
  simp only at h
  split at h
  · obtain ⟨socketId, -, h⟩ := Option.bind_eq_some_iff.mp h
    split at h
    · cases h
    · cases h
      rfl
  · cases h

section Exact
variable {query : RangeQuery} {server : ScanServer query} {distance : Distance}

theorem RangeQuery.Exact.fits (h : query.Exact server distance) : query.Fits server distance := by
  obtain ⟨fuel, result, clients, hrun, hnodup, hclients, hperm⟩ := h
  obtain ⟨hsmall, hreadable, rfl⟩ := small_of_scanFrom server.scans hrun
  rw [List.nil_append] at hperm
  have hmem : ∀ key, key ∈ clients ↔ key ∈ scannedKeys server.steps :=
    fun key => (hclients key).trans (server.mem_iff key).symm
  obtain ⟨honce, hagree⟩ :=
    (Collect.perm_filterMap_iff key_of_clientWithin key_of_clientWithin hnodup hmem).mp hperm
  refine ⟨?_, fun key hkey => hreadable key ((server.mem_iff key).mpr hkey), honce,
    fun key hkey => hagree key ((server.mem_iff key).mpr hkey)⟩
  obtain ⟨keys, rest, hsteps⟩ := server.scans.head
  rw [hsteps] at hsmall ⊢
  rw [List.forall_mem_cons]
  exact ⟨by norm_num, hsmall⟩

theorem RangeQuery.Fits.exact (h : query.Fits server distance) : query.Exact server distance := by
  obtain ⟨hcursors, hreadable, honce, hwithin⟩ := h
  have hmem : ∀ key, key ∈ (scannedKeys server.steps).dedup ↔ key ∈ scannedKeys server.steps :=
    fun key => List.mem_dedup
  refine ⟨server.steps.length, _, (scannedKeys server.steps).dedup,
    scanFrom_scans server.scans hcursors
      (fun key hkey => hreadable key ((server.mem_iff key).mp hkey)) [],
    List.nodup_dedup _, fun key => (hmem key).trans (server.mem_iff key), ?_⟩
  rw [List.nil_append]
  refine (Collect.perm_filterMap_iff key_of_clientWithin key_of_clientWithin
    (List.nodup_dedup _) hmem).mpr ⟨honce, fun key hkey => ?_⟩
  exact hwithin key ((server.mem_iff key).mp hkey)

end Exact

/-- For every set of sessions and every iteration, and whatever is meant by the distance, the
result is exact when the cursors are small, the sessions have their fields, no client that is
found is in the batches twice, and the test finds those that are within the distance. -/
theorem range_query_exact_iff (query : RangeQuery) (server : ScanServer query)
    (distance : Distance) : query.Exact server distance ↔ query.Fits server distance :=
  ⟨RangeQuery.Exact.fits, RangeQuery.Fits.exact⟩

/-! ### One client -/

def onlyKey : RedisGameSessionKey := ⟨0, 0, 0⟩

/-- The only client of the map, 250 around a center. -/
def oneClient (x center : UInt32) : RangeQuery where
  games key := if key = onlyKey then some ⟨some x, some 0, some [65]⟩ else none
  routerId := 0
  mapId := 0
  center := ⟨center, 0⟩
  range := 0x437a0000
  ignoredSessionKey := none

/-- The client is in the first batch, and possibly in the second. -/
def twoBatches (x center : UInt32) (returned : UInt64) (hmore : returned ≠ 0)
    (keys : List RedisGameSessionKey) (hkeys : ∀ key ∈ keys, key = onlyKey) :
    ScanServer (oneClient x center) where
  scan call _ := if call = 0 then (returned, [onlyKey]) else (0, keys)
  steps := [(0, [onlyKey]), (returned.toNat, keys)]
  scans := .next rfl hmore (.last rfl)
  mem_iff key := by
    have hmatches : (oneClient x center).Matches key ↔ key = onlyKey := by
      by_cases h : key = onlyKey
      · rw [h]
        exact iff_of_true ⟨rfl, rfl, rfl⟩ rfl
      · refine iff_of_false (fun hmatches => ?_) h
        simp [RangeQuery.Matches, oneClient, h] at hmatches
    rw [hmatches]
    simp only [scannedKeys, List.flatMap_cons, List.flatMap_nil, List.append_nil, List.mem_append,
      List.mem_singleton]
    exact ⟨fun h => h.elim id (hkeys key), .inl⟩

/-- A cursor that needs more than 31 bits is not passed back, and a client that is in both batches
is in the result twice. A client at 3000000000 is found around zero, and one at 250 is not found
around the billionth part of one. -/
theorem range_query_inexact :
    ¬ (oneClient 0 0).Exact (twoBatches 0 0 2147483648 (by decide) [] (by simp)) .tested ∧
      ¬ (oneClient 0 0).Exact (twoBatches 0 0 1 (by decide) [onlyKey] (by simp)) .tested ∧
      ¬ (oneClient 0x4f32d05e 0).Exact (twoBatches 0x4f32d05e 0 1 (by decide) [] (by simp))
        .manhattan ∧
      ¬ (oneClient 0x437a0000 0x3089705f).Exact
        (twoBatches 0x437a0000 0x3089705f 1 (by decide) [] (by simp)) .manhattan := by
  refine ⟨fun hexact => ?_, fun hexact => ?_, fun hexact => ?_, fun hexact => ?_⟩
  · have hsmall := hexact.fits.cursors _ (List.mem_cons_of_mem _ List.mem_cons_self)
    have hreturned : ((2147483648 : UInt64).toNat : ℤ) = 2147483648 := rfl
    rw [hreturned] at hsmall
    norm_num at hsmall
  · have honce := hexact.fits.once
    have hfound : ((oneClient 0 0).clientWithin .tested onlyKey).isSome = true := by
      decide +kernel
    simp [twoBatches, scannedKeys, hfound] at honce
  · have hwithin := congrArg Option.isSome (hexact.fits.within onlyKey ⟨rfl, rfl, rfl⟩)
    exact absurd hwithin (by decide +kernel)
  · have hwithin := congrArg Option.isSome (hexact.fits.within onlyKey ⟨rfl, rfl, rfl⟩)
    exact absurd hwithin (by decide +kernel)

end R1Emu.Zone
