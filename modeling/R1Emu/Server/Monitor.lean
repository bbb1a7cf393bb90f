import R1Emu.Server.Router
import R1Emu.Lib.Transition
import Mathlib.Data.List.Nodup

/-!
# The router monitor

The monitor learns of its clients on two channels. The router tells it with each packet of a
client which file descriptor the client has, and the frontend's socket tells it of each
connection and disconnection, by the descriptor alone. A channel keeps its order, but nothing
orders the two. Every server registers a disconnect handler, and what the handler answers is
not used.
-/
namespace R1Emu.Server
open R1Emu.Lib.Transition

variable {Key : Type}

/-- The file descriptors that the system hands out, and how they are formatted as keys. -/
structure Platform (Key : Type) where
  handsOut : UInt64 → Bool
  routerMonitorGenKey : UInt64 → Key
  genKey_inj : ∀ fd fd', handsOut fd → handsOut fd' →
    routerMonitorGenKey fd = routerMonitorGenKey fd' → fd = fd'

structure RouterMonitor (Key : Type) where
  connected : Key → Option Frame

def routerMonitorInit : RouterMonitor Key := ⟨fun _ => none⟩

/-- What the socket monitor reports. -/
inductive MonitorMessage
  | interrupt
  | empty
  | accepted (fdClient : UInt64)
  | disconnected (fdClient : UInt64)
  | other

/-- What the router reports. -/
inductive SubscribeMessage
  | interrupt
  | empty
  | addFd (fdClient : UInt64) (identityClient : Frame)
  | unknown

section Handlers
variable [DecidableEq Key] (p : Platform Key) (self : RouterMonitor Key)

def routerMonitorDisconnectClient (fdClientKey : Key) : RouterMonitor Key :=
  ⟨Function.update self.connected fdClientKey none⟩

/-- The result, and the client that the disconnect handler is called for. A connection is only
looked up. -/
def routerMonitorProcess : MonitorMessage → ℤ × Option Frame × RouterMonitor Key
  | .interrupt => (0, none, self)
  | .empty => (-1, none, self)
  | .accepted _ => (0, none, self)
  | .disconnected fdClient =>
    let fdClientKey := p.routerMonitorGenKey fdClient
    match self.connected fdClientKey with
    | none => (0, none, self)
    | some clientFrame =>
      (0, some clientFrame, routerMonitorDisconnectClient self fdClientKey)
  | .other => (0, none, self)

def routerMonitorSubscribe : SubscribeMessage → ℤ × RouterMonitor Key
  | .interrupt => (0, self)
  | .empty => (-1, self)
  | .addFd fdClient identityClient =>
    let fdClientKey := p.routerMonitorGenKey fdClient
    match self.connected fdClientKey with
    | none => (0, ⟨Function.update self.connected fdClientKey (some identityClient)⟩)
    | some clientFrame => if clientFrame = identityClient then (0, self) else (-1, self)
  | .unknown => (0, self)

end Handlers

/-- The router does not report empty packets, nor an invalid descriptor. -/
def routerInformsMonitor (dataSize : ℕ) (fdClient : UInt64) : Bool :=
  !(dataSize == 0 || fdClient == UInt64.ofNat (2 ^ 64 - 1))

/-- A client's connection. Its identity is never given to another one. -/
structure Connection where
  fd : UInt64
  identity : Frame
  deriving DecidableEq

inductive SocketEvent
  | accepted (c : Connection)
  | disconnected (c : Connection)
  deriving DecidableEq

/-- An event bears the descriptor only. -/
def SocketEvent.message : SocketEvent → MonitorMessage
  | .accepted c => .accepted c.fd
  | .disconnected c => .disconnected c.fd

/-- The disconnection that an event reports. -/
def SocketEvent.parting : SocketEvent → Option Connection
  | .accepted _ => none
  | .disconnected c => some c

/-- The connections, the two channels, and what has come of them. -/
structure Monitoring (Key : Type) where
  alive : List Connection
  closed : List Connection
  requests : List Connection
  events : List SocketEvent
  monitor : RouterMonitor Key
  /-- For each request that the router has sent. -/
  informed : List Connection
  /-- For each request that the monitor has received. -/
  registered : List Connection
  /-- For each disconnection that the monitor has received. -/
  parted : List Connection
  /-- The disconnect handler's calls: whose disconnection, and for which client. -/
  calls : List (Connection × Frame)
  /-- The reactor has ended. -/
  stopped : Bool

def Monitoring.start : Monitoring Key :=
  ⟨[], [], [], [], routerMonitorInit, [], [], [], [], false⟩

inductive MonitorAction
  | connect (c : Connection)
  | disconnect (c : Connection)
  | routerFrontend (c : Connection) (dataSize : ℕ)
  | process
  | subscribe

namespace Monitoring

/-- A connection gets a descriptor that is free and an identity of its own. -/
def connect (p : Platform Key) (s : Monitoring Key) (c : Connection) : Option (Monitoring Key) :=
  if p.handsOut c.fd ∧ c.fd ∉ s.alive.map (·.fd) ∧
      c.identity ∉ (s.closed ++ s.alive).map (·.identity) then
    some { s with alive := s.alive ++ [c], events := s.events ++ [.accepted c] }
  else none

def disconnect (s : Monitoring Key) (c : Connection) : Option (Monitoring Key) :=
  if c ∈ s.alive then
    some { s with
      alive := s.alive.erase c
      closed := s.closed ++ [c]
      events := s.events ++ [.disconnected c] }
  else none

/-- The router may read a packet of a client after its disconnection. -/
def frontend (s : Monitoring Key) (c : Connection) (dataSize : ℕ) : Option (Monitoring Key) :=
  if c ∈ s.closed ++ s.alive then
    if routerInformsMonitor dataSize c.fd then
      some { s with requests := s.requests ++ [c], informed := s.informed ++ [c] }
    else some s
  else none

/-- The monitor receives an event. -/
def process [DecidableEq Key] (p : Platform Key) (s : Monitoring Key) : Option (Monitoring Key) :=
  if s.stopped then none
  else
    match s.events with
    | [] => none
    | event :: events =>
      let (result, called, monitor) := routerMonitorProcess p s.monitor event.message
      some { s with
        events := events
        monitor := monitor
        parted := s.parted ++ event.parting.toList
        calls := s.calls ++ called.toList.flatMap fun client =>
          event.parting.toList.map fun c => (c, client)
        stopped := decide (result = -1) }

/-- The monitor receives a request. -/
def subscribe [DecidableEq Key] (p : Platform Key) (s : Monitoring Key) :
    Option (Monitoring Key) :=
  if s.stopped then none
  else
    match s.requests with
    | [] => none
    | c :: requests =>
      let (result, monitor) := routerMonitorSubscribe p s.monitor (.addFd c.fd c.identity)
      some { s with
        requests := requests
        monitor := monitor
        registered := s.registered ++ [c]
        stopped := decide (result = -1) }

/-- Whoever takes a step next, the other channel waits. -/
def system [DecidableEq Key] (p : Platform Key) : System (Monitoring Key) MonitorAction where
  init s := s = start
  step s
    | .connect c => s.connect p c
    | .disconnect c => s.disconnect c
    | .routerFrontend c dataSize => s.frontend c dataSize
    | .process => s.process p
    | .subscribe => s.subscribe p

/-- The connections whose disconnection waits. -/
def leaving (s : Monitoring Key) : List Connection := s.events.filterMap SocketEvent.parting

/-- Whose disconnection would be the next to be received on a descriptor. -/
def holder (s : Monitoring Key) (fd : UInt64) : Option Connection :=
  (s.leaving ++ s.alive).find? (·.fd = fd)

/-- A request is received after the disconnections of those that had the descriptor before, and
before that of its own client. -/
def InTurn (s : Monitoring Key) : MonitorAction → Prop
  | .subscribe => ∀ c ∈ s.requests.head?, s.holder c.fd = some c
  | _ => True

instance (s : Monitoring Key) : (a : MonitorAction) → Decidable (InTurn s a)
  | .subscribe => inferInstanceAs (Decidable (∀ c ∈ s.requests.head?, s.holder c.fd = some c))
  | .connect _ => .isTrue trivial
  | .disconnect _ => .isTrue trivial
  | .routerFrontend _ _ => .isTrue trivial
  | .process => .isTrue trivial

def Drained (s : Monitoring Key) : Prop := s.requests = [] ∧ s.events = []

/-- The reactor goes on. The disconnect handler is called at most once for a client, and then on
the disconnection of this client, which the router had reported. When nothing waits it has
been called for all of these, and the table has no entry but those of open connections. -/
structure Bookkept (p : Platform Key) (s : Monitoring Key) : Prop where
  running : s.stopped = false
  own : ∀ call ∈ s.calls, call.2 = call.1.identity ∧ call.1 ∈ s.closed ∧ call.1 ∈ s.informed
  once : (s.calls.map (·.2)).Nodup
  called : s.Drained → ∀ c ∈ s.closed, c ∈ s.informed → (c, c.identity) ∈ s.calls
  tidy : s.Drained → ∀ fdClientKey client, s.monitor.connected fdClientKey = some client →
    ∃ c ∈ s.alive, c.identity = client ∧ p.routerMonitorGenKey c.fd = fdClientKey

/-- What holds while requests come in turn. -/
structure Invariant (p : Platform Key) (s : Monitoring Key) : Prop where
  running : s.stopped = false
  closed_eq : s.closed = s.parted ++ s.leaving
  identities : ((s.closed ++ s.alive).map (·.identity)).Nodup
  fds : (s.alive.map (·.fd)).Nodup
  handed : ∀ c ∈ s.closed ++ s.alive, p.handsOut c.fd
  informed_eq : s.informed = s.registered ++ s.requests
  known : ∀ c ∈ s.informed, c ∈ s.closed ++ s.alive
  table : ∀ fdClientKey client, s.monitor.connected fdClientKey = some client →
    ∃ c, c.identity = client ∧ p.routerMonitorGenKey c.fd = fdClientKey ∧
      c ∈ s.registered ∧ s.holder c.fd = some c
  kept : ∀ c ∈ s.registered, c ∉ s.parted →
    s.monitor.connected (p.routerMonitorGenKey c.fd) = some c.identity
  called : ∀ c ∈ s.registered, c ∈ s.parted → (c, c.identity) ∈ s.calls
  own : ∀ call ∈ s.calls, call.2 = call.1.identity ∧ call.1 ∈ s.parted ∧ call.1 ∈ s.registered
  once : (s.calls.map (·.2)).Nodup

variable {p : Platform Key} {s s' : Monitoring Key} {c : Connection}

theorem holder_mem {fd : UInt64} (h : s.holder fd = some c) :
    c ∈ s.leaving ++ s.alive ∧ c.fd = fd := by
  refine ⟨List.mem_of_find?_eq_some h, ?_⟩
  simpa using List.find?_some h

section Invariants

theorem Invariant.start : Invariant p (start : Monitoring Key) where
  running := rfl
  closed_eq := rfl
  identities := List.nodup_nil
  fds := List.nodup_nil
  handed c hc := absurd hc List.not_mem_nil
  informed_eq := rfl
  known c hc := absurd hc List.not_mem_nil
  table fdClientKey client h := absurd h (by simp [Monitoring.start, routerMonitorInit])
  kept c hc := absurd hc List.not_mem_nil
  called c hc := absurd hc List.not_mem_nil
  own call hc := absurd hc List.not_mem_nil
  once := List.nodup_nil

/-- With nothing waiting, the invariant is what the monitor is for. -/
theorem Invariant.bookkept (h : Invariant p s) : Bookkept p s where
  running := h.running
  own call hcall := by
    obtain ⟨hclient, hparted, hregistered⟩ := h.own call hcall
    refine ⟨hclient, ?_, ?_⟩
    · rw [h.closed_eq]
      exact List.mem_append_left _ hparted
    · rw [h.informed_eq]
      exact List.mem_append_left _ hregistered
  once := h.once
  called hdrained c hclosed hinformed := by
    have hleaving : s.leaving = [] := by rw [leaving, hdrained.2, List.filterMap_nil]
    rw [h.closed_eq, hleaving, List.append_nil] at hclosed
    rw [h.informed_eq, hdrained.1, List.append_nil] at hinformed
    exact h.called c hinformed hclosed
  tidy hdrained fdClientKey client hentry := by
    have hleaving : s.leaving = [] := by rw [leaving, hdrained.2, List.filterMap_nil]
    obtain ⟨c, hidentity, hkey, -, hholder⟩ := h.table fdClientKey client hentry
    have hmem := (holder_mem hholder).1
    rw [hleaving, List.nil_append] at hmem
    exact ⟨c, hmem, hidentity, hkey⟩

/-- Identities tell the connections apart. -/
theorem Invariant.eq_of_identity (h : Invariant p s) {d : Connection}
    (hc : c ∈ s.closed ++ s.alive) (hd : d ∈ s.closed ++ s.alive) (he : c.identity = d.identity) :
    c = d :=
  List.inj_on_of_nodup_map h.identities hc hd he

theorem Invariant.parted_known (h : Invariant p s) (hc : c ∈ s.parted) :
    c ∈ s.closed ++ s.alive := by
  rw [h.closed_eq]
  exact List.mem_append_left _ (List.mem_append_left _ hc)

theorem Invariant.present_known (h : Invariant p s) (hc : c ∈ s.leaving ++ s.alive) :
    c ∈ s.closed ++ s.alive := by
  rw [h.closed_eq, List.append_assoc]
  exact List.mem_append_right _ hc

/-- A connection whose disconnection has been received has none that waits. -/
theorem Invariant.not_parted (h : Invariant p s) (hc : c ∈ s.leaving ++ s.alive) :
    c ∉ s.parted := by
  intro hparted
  have hnodup := h.identities.of_map
  rw [h.closed_eq, List.append_assoc] at hnodup
  exact List.disjoint_of_nodup_append hnodup hparted hc

/-- The one with a descriptor is found by it. -/
theorem find_fd {l : List Connection} (hc : c ∈ l) (h : ∀ d ∈ l, d.fd = c.fd → d = c) :
    l.find? (·.fd = c.fd) = some c := by
  cases hfind : l.find? (·.fd = c.fd) with
  | none => exact absurd (List.find?_eq_none.mp hfind c hc) (by simp)
  | some d =>
    have hfd : d.fd = c.fd := by simpa using List.find?_some hfind
    rw [h d (List.mem_of_find?_eq_some hfind) hfd]

/-- Under the key of a descriptor there is at most its holder. -/
theorem Invariant.entry (h : Invariant p s) {client : Frame} (hc : s.holder c.fd = some c)
    (hentry : s.monitor.connected (p.routerMonitorGenKey c.fd) = some client) :
    client = c.identity ∧ c ∈ s.registered := by
  obtain ⟨d, hidentity, hkey, hregistered, hholder⟩ := h.table _ client hentry
  have hd := h.handed d (h.present_known (holder_mem hholder).1)
  have hhanded := h.handed c (h.present_known (holder_mem hc).1)
  rw [p.genKey_inj d.fd c.fd hd hhanded hkey, hc] at hholder
  obtain rfl := Option.some.inj hholder
  exact ⟨hidentity.symm, hregistered⟩

theorem Invariant.connect (h : Invariant p s) (hs : s.connect p c = some s') : Invariant p s' := by
  rw [Monitoring.connect] at hs
  split at hs
  case isFalse => exact absurd hs (Option.some_ne_none s').symm
  case isTrue hfree =>
    obtain rfl := Option.some.inj hs
    have hleaving : (s.events ++ [SocketEvent.accepted c]).filterMap SocketEvent.parting =
        s.leaving := by
      rw [List.filterMap_append, leaving]
      exact List.append_nil _
    refine { h with
      closed_eq := by rw [leaving, hleaving]; exact h.closed_eq
      identities := ?_
      fds := ?_
      handed := ?_
      known := fun d hd => ?_
      table := fun fdClientKey client hentry => ?_ }
    · rw [← List.append_assoc, List.map_append]
      refine h.identities.append (List.nodup_singleton _) ?_
      simpa using hfree.2.2
    · rw [List.map_append]
      refine h.fds.append (List.nodup_singleton _) ?_
      simpa using hfree.2.1
    · intro d hd
      rw [← List.append_assoc, List.mem_append] at hd
      rcases hd with hd | hd
      · exact h.handed d hd
      · rw [List.mem_singleton.mp hd]
        exact hfree.1
    · rw [← List.append_assoc]
      exact List.mem_append_left _ (h.known d hd)
    · obtain ⟨d, hidentity, hkey, hregistered, hholder⟩ := h.table fdClientKey client hentry
      refine ⟨d, hidentity, hkey, hregistered, ?_⟩
      rw [holder, leaving, hleaving, ← List.append_assoc, List.find?_append]
      rw [holder] at hholder
      rw [hholder]
      rfl

theorem Invariant.disconnect (h : Invariant p s) (hs : s.disconnect c = some s') :
    Invariant p s' := by
  rw [Monitoring.disconnect] at hs
  split at hs
  case isFalse => exact absurd hs (Option.some_ne_none s').symm
  case isTrue halive =>
    obtain rfl := Option.some.inj hs
    have hleaving : (s.events ++ [SocketEvent.disconnected c]).filterMap SocketEvent.parting =
        s.leaving ++ [c] := List.filterMap_append
    have hperm : (s.closed ++ [c] ++ s.alive.erase c).Perm (s.closed ++ s.alive) := by
      rw [List.append_assoc]
      exact (List.perm_cons_erase halive).symm.append_left s.closed
    refine { h with
      closed_eq := ?_
      identities := (hperm.map _).nodup_iff.mpr h.identities
      fds := h.fds.sublist (List.erase_sublist.map _)
      handed := fun d hd => h.handed d (hperm.mem_iff.mp hd)
      known := fun d hd => hperm.mem_iff.mpr (h.known d hd)
      table := fun fdClientKey client hentry => ?_ }
    · rw [leaving, hleaving, ← List.append_assoc, ← h.closed_eq]
    · obtain ⟨d, hidentity, hkey, hregistered, hholder⟩ := h.table fdClientKey client hentry
      refine ⟨d, hidentity, hkey, hregistered, ?_⟩
      rw [holder, List.find?_append, Option.or_eq_some_iff] at hholder
      rw [holder, leaving, hleaving, List.append_assoc, List.find?_append, Option.or_eq_some_iff]
      rcases hholder with hwaits | ⟨hnone, hopen⟩
      · exact .inl hwaits
      · refine .inr ⟨hnone, find_fd ?_ fun e he hfd => ?_⟩
        · exact (List.perm_cons_erase halive).mem_iff.mp (List.mem_of_find?_eq_some hopen)
        · exact List.inj_on_of_nodup_map h.fds ((List.perm_cons_erase halive).mem_iff.mpr he)
            (List.mem_of_find?_eq_some hopen) hfd

theorem Invariant.frontend (h : Invariant p s) {dataSize : ℕ}
    (hs : s.frontend c dataSize = some s') : Invariant p s' := by
  rw [Monitoring.frontend] at hs
  split at hs
  case isFalse => exact absurd hs (Option.some_ne_none s').symm
  case isTrue hknown =>
    split at hs
    · obtain rfl := Option.some.inj hs
      refine { h with
        informed_eq := ?_
        known := fun d hd => ?_ }
      · rw [h.informed_eq, List.append_assoc]
      · rcases List.mem_append.mp hd with hd | hd
        · exact h.known d hd
        · rw [List.mem_singleton.mp hd]
          exact hknown
    · exact Option.some.inj hs ▸ h

/-- A connection is only looked up. -/
theorem Invariant.accepted (h : Invariant p s) {events : List SocketEvent}
    (hevents : s.events = .accepted c :: events) : Invariant p { s with events := events } := by
  have hleaving : events.filterMap SocketEvent.parting = s.leaving := by
    rw [leaving, hevents]
    rfl
  have hholder : ∀ fd, ({ s with events := events } : Monitoring Key).holder fd = s.holder fd := by
    intro fd
    rw [holder, leaving, hleaving]
    rfl
  refine { h with
    closed_eq := by rw [leaving, hleaving]; exact h.closed_eq
    table := fun fdClientKey client hentry => ?_ }
  simp only [hholder]
  exact h.table fdClientKey client hentry

/-- The state after a disconnection. -/
def departed (s : Monitoring Key) (events : List SocketEvent) (monitor : RouterMonitor Key)
    (c : Connection) (calls : List (Connection × Frame)) : Monitoring Key :=
  { s with
    events := events
    monitor := monitor
    parted := s.parted ++ [c]
    calls := s.calls ++ calls
    stopped := false }

/-- A disconnection clears the entry of its descriptor, and the handler is called if the client
was registered. -/
theorem Invariant.departed (h : Invariant p s) {events : List SocketEvent}
    (hevents : s.events = .disconnected c :: events) {monitor : RouterMonitor Key}
    {calls : List (Connection × Frame)}
    (hcleared : monitor.connected (p.routerMonitorGenKey c.fd) = none)
    (hothers : ∀ fdClientKey, fdClientKey ≠ p.routerMonitorGenKey c.fd →
      monitor.connected fdClientKey = s.monitor.connected fdClientKey)
    (hcalls : calls = [] ∧ c ∉ s.registered ∨ calls = [(c, c.identity)] ∧ c ∈ s.registered) :
    Invariant p (s.departed events monitor c calls) := by
  have hleaving : s.leaving = c :: events.filterMap SocketEvent.parting := by
    rw [leaving, hevents]
    rfl
  have hpresent : c ∈ s.leaving ++ s.alive := by
    rw [hleaving]
    exact List.mem_append_left _ List.mem_cons_self
  have hfirst : s.holder c.fd = some c := by
    rw [holder, hleaving, List.cons_append, List.find?_cons_of_pos (by simp)]
  refine { h with
    running := rfl
    closed_eq := ?_
    table := fun fdClientKey client hentry => ?_
    kept := fun d hd hparted => ?_
    called := fun d hd hparted => ?_
    own := fun call hcall => ?_
    once := ?_ }
  · have hclosed := h.closed_eq
    rw [hleaving, List.append_cons] at hclosed
    exact hclosed
  · have hkey : fdClientKey ≠ p.routerMonitorGenKey c.fd := by
      rintro rfl
      exact absurd (hcleared.symm.trans hentry) (Option.some_ne_none client).symm
    obtain ⟨d, hidentity, rfl, hregistered, hholder⟩ :=
      h.table fdClientKey client ((hothers _ hkey).symm.trans hentry)
    refine ⟨d, hidentity, rfl, hregistered, ?_⟩
    rw [holder, hleaving, List.cons_append, List.find?_cons_of_neg] at hholder
    · exact hholder
    · simpa using fun hfd : c.fd = d.fd => hkey (by rw [hfd])
  · obtain ⟨hnew, hother⟩ : d ∉ s.parted ∧ d ≠ c := by simpa [Monitoring.departed] using hparted
    have hentry := h.kept d hd hnew
    refine (hothers _ fun hkey => hother ?_).trans hentry
    rw [hkey] at hentry
    refine h.eq_of_identity (h.known d ?_) (h.present_known hpresent) (h.entry hfirst hentry).1
    rw [h.informed_eq]
    exact List.mem_append_left _ hd
  · rcases List.mem_append.mp hparted with hparted | hparted
    · exact List.mem_append_left _ (h.called d hd hparted)
    · obtain rfl := List.mem_singleton.mp hparted
      rcases hcalls with ⟨-, habsent⟩ | ⟨rfl, -⟩
      · exact absurd hd habsent
      · exact List.mem_append_right _ (List.mem_singleton_self _)
  · rcases List.mem_append.mp hcall with hcall | hcall
    · obtain ⟨hclient, hparted, hregistered⟩ := h.own call hcall
      exact ⟨hclient, List.mem_append_left _ hparted, hregistered⟩
    · rcases hcalls with ⟨rfl, -⟩ | ⟨rfl, hregistered⟩
      · exact absurd hcall List.not_mem_nil
      · obtain rfl := List.mem_singleton.mp hcall
        exact ⟨rfl, List.mem_append_right _ (List.mem_singleton_self c), hregistered⟩
  · rcases hcalls with ⟨rfl, -⟩ | ⟨rfl, -⟩
    · simpa [Monitoring.departed] using h.once
    · rw [Monitoring.departed, List.map_append]
      refine h.once.append (List.nodup_singleton _) ?_
      -- A client that was called for has parted, and this one had not.
      rintro client hmem hclient
      obtain ⟨call, hcall, rfl⟩ := List.mem_map.mp hmem
      obtain ⟨hidentity, hparted, -⟩ := h.own call hcall
      have hsame : call.1 = c := h.eq_of_identity (h.parted_known hparted) (h.present_known hpresent)
        (hidentity.symm.trans (List.mem_singleton.mp hclient))
      exact h.not_parted hpresent (hsame ▸ hparted)

/-- The state after a request that is registered. -/
def enrolled (s : Monitoring Key) (requests : List Connection) (monitor : RouterMonitor Key)
    (c : Connection) : Monitoring Key :=
  { s with
    requests := requests
    monitor := monitor
    registered := s.registered ++ [c]
    stopped := false }

/-- A request that comes in turn is the first one of its client, or finds the entry of an
earlier one. -/
theorem Invariant.enrolled (h : Invariant p s) {requests : List Connection}
    (hrequests : s.requests = c :: requests) (hholder : s.holder c.fd = some c)
    {monitor : RouterMonitor Key}
    (hentered : monitor.connected (p.routerMonitorGenKey c.fd) = some c.identity)
    (hothers : ∀ fdClientKey, fdClientKey ≠ p.routerMonitorGenKey c.fd →
      monitor.connected fdClientKey = s.monitor.connected fdClientKey) :
    Invariant p (s.enrolled requests monitor c) := by
  have hpresent := (holder_mem hholder).1
  refine { h with
    running := rfl
    informed_eq := ?_
    table := fun fdClientKey client hentry => ?_
    kept := fun d hd hparted => ?_
    called := fun d hd hparted => ?_
    own := fun call hcall => ?_ }
  · have hinformed := h.informed_eq
    rw [hrequests, List.append_cons] at hinformed
    exact hinformed
  · by_cases hkey : fdClientKey = p.routerMonitorGenKey c.fd
    · subst hkey
      refine ⟨c, Option.some.inj (hentered.symm.trans hentry), rfl, ?_, hholder⟩
      exact List.mem_append_right _ (List.mem_singleton_self c)
    · obtain ⟨d, hidentity, hkey', hregistered, hd⟩ :=
        h.table fdClientKey client ((hothers _ hkey).symm.trans hentry)
      exact ⟨d, hidentity, hkey', List.mem_append_left _ hregistered, hd⟩
  · rcases List.mem_append.mp hd with hd | hd
    · have hentry := h.kept d hd hparted
      by_cases hkey : p.routerMonitorGenKey d.fd = p.routerMonitorGenKey c.fd
      · rw [hkey] at hentry ⊢
        rw [(h.entry hholder hentry).1]
        exact hentered
      · exact (hothers _ hkey).trans hentry
    · obtain rfl := List.mem_singleton.mp hd
      exact hentered
  · rcases List.mem_append.mp hd with hd | hd
    · exact h.called d hd hparted
    · obtain rfl := List.mem_singleton.mp hd
      exact absurd hparted (h.not_parted hpresent)
  · obtain ⟨hclient, hparted, hregistered⟩ := h.own call hcall
    exact ⟨hclient, hparted, List.mem_append_left _ hregistered⟩

variable [DecidableEq Key]

theorem process_accepted (hrunning : s.stopped = false) {events : List SocketEvent}
    (hevents : s.events = .accepted c :: events) :
    s.process p = some { s with events := events } := by
  rw [Monitoring.process, if_neg (by rw [hrunning]; exact Bool.false_ne_true), hevents]
  simp [routerMonitorProcess, SocketEvent.message, SocketEvent.parting, ← hrunning]

theorem process_unknown (hrunning : s.stopped = false) {events : List SocketEvent}
    (hevents : s.events = .disconnected c :: events)
    (hentry : s.monitor.connected (p.routerMonitorGenKey c.fd) = none) :
    s.process p = some (s.departed events s.monitor c []) := by
  rw [Monitoring.process, if_neg (by rw [hrunning]; exact Bool.false_ne_true), hevents]
  simp [routerMonitorProcess, SocketEvent.message, SocketEvent.parting, hentry, departed]

theorem process_known (hrunning : s.stopped = false) {events : List SocketEvent}
    (hevents : s.events = .disconnected c :: events) {client : Frame}
    (hentry : s.monitor.connected (p.routerMonitorGenKey c.fd) = some client) :
    s.process p = some (s.departed events
      (routerMonitorDisconnectClient s.monitor (p.routerMonitorGenKey c.fd)) c [(c, client)]) := by
  rw [Monitoring.process, if_neg (by rw [hrunning]; exact Bool.false_ne_true), hevents]
  simp [routerMonitorProcess, SocketEvent.message, SocketEvent.parting, hentry, departed]

theorem subscribe_new (hrunning : s.stopped = false) {requests : List Connection}
    (hrequests : s.requests = c :: requests)
    (hentry : s.monitor.connected (p.routerMonitorGenKey c.fd) = none) :
    s.subscribe p = some (s.enrolled requests
      ⟨Function.update s.monitor.connected (p.routerMonitorGenKey c.fd) (some c.identity)⟩ c) := by
  rw [Monitoring.subscribe, if_neg (by rw [hrunning]; exact Bool.false_ne_true), hrequests]
  simp [routerMonitorSubscribe, hentry, enrolled]

theorem subscribe_same (hrunning : s.stopped = false) {requests : List Connection}
    (hrequests : s.requests = c :: requests)
    (hentry : s.monitor.connected (p.routerMonitorGenKey c.fd) = some c.identity) :
    s.subscribe p = some (s.enrolled requests s.monitor c) := by
  rw [Monitoring.subscribe, if_neg (by rw [hrunning]; exact Bool.false_ne_true), hrequests]
  simp [routerMonitorSubscribe, hentry, enrolled]

theorem Invariant.process (h : Invariant p s) (hs : s.process p = some s') : Invariant p s' := by
  cases hevents : s.events with
  | nil => simp [Monitoring.process, hevents] at hs
  | cons event events =>
    cases event with
    | accepted c =>
      rw [process_accepted h.running hevents] at hs
      exact Option.some.inj hs ▸ h.accepted hevents
    | disconnected c =>
      have hpresent : c ∈ s.leaving ++ s.alive := by
        rw [leaving, hevents]
        exact List.mem_append_left _ List.mem_cons_self
      have hfirst : s.holder c.fd = some c := by
        rw [holder, leaving, hevents]
        simp [SocketEvent.parting]
      cases hentry : s.monitor.connected (p.routerMonitorGenKey c.fd) with
      | none =>
        rw [process_unknown h.running hevents hentry] at hs
        refine Option.some.inj hs ▸ h.departed hevents hentry (fun _ _ => rfl) (.inl ⟨rfl, ?_⟩)
        intro hregistered
        exact absurd (hentry.symm.trans (h.kept c hregistered (h.not_parted hpresent)))
          (Option.some_ne_none _).symm
      | some client =>
        rw [process_known h.running hevents hentry] at hs
        obtain ⟨rfl, hregistered⟩ := h.entry hfirst hentry
        exact Option.some.inj hs ▸ h.departed hevents (Function.update_self _ _ _)
          (fun _ hkey => Function.update_of_ne hkey _ _) (.inr ⟨rfl, hregistered⟩)

theorem Invariant.subscribe (h : Invariant p s) (hturn : InTurn s .subscribe)
    (hs : s.subscribe p = some s') : Invariant p s' := by
  cases hrequests : s.requests with
  | nil => simp [Monitoring.subscribe, hrequests] at hs
  | cons c requests =>
    have hholder := hturn c (by rw [hrequests]; rfl)
    cases hentry : s.monitor.connected (p.routerMonitorGenKey c.fd) with
    | none =>
      rw [subscribe_new h.running hrequests hentry] at hs
      exact Option.some.inj hs ▸ h.enrolled hrequests hholder (Function.update_self _ _ _)
        fun _ hkey => Function.update_of_ne hkey _ _
    | some client =>
      obtain ⟨rfl, -⟩ := h.entry hholder hentry
      rw [subscribe_same h.running hrequests hentry] at hs
      exact Option.some.inj hs ▸ h.enrolled hrequests hholder hentry fun _ _ => rfl

/-- The invariant of the runs whose requests come in turn. -/
theorem invariant_inductive (p : Platform Key) : Inductive (system p) InTurn (Invariant p) where
  init s hs := hs ▸ Invariant.start
  step s a s' h hturn hs := by
    cases a with
    | connect c => exact h.connect hs
    | disconnect c => exact h.disconnect hs
    | routerFrontend c dataSize => exact h.frontend hs
    | process => exact h.process hs
    | subscribe => exact h.subscribe hturn hs

/-- In every run whose requests come in turn, whatever the order of the channels is otherwise,
the monitor's books are kept. -/
theorem bookkept_of_inTurn (p : Platform Key) (hs : ReachableUnder (system p) InTurn s) :
    Bookkept p s :=
  ((invariant_inductive p).reachable hs).bookkept

end Invariants

section Example

/-- Descriptors are small numbers, and told apart. -/
def smallDescriptors : Platform UInt64 where
  handsOut fd := decide (fd < 1024)
  routerMonitorGenKey fd := fd
  genKey_inj _ _ _ _ h := h

def firstClient : Connection := ⟨5, [0, 1, 2, 3, 4]⟩

/-- Gets the descriptor of the first one. -/
def secondClient : Connection := ⟨5, [0, 1, 2, 3, 5]⟩

/-- Two clients have one descriptor in turn. -/
def orderlyMerge : List MonitorAction :=
  [.connect firstClient, .routerFrontend firstClient 14, .process, .subscribe,
    .disconnect firstClient, .connect secondClient, .routerFrontend secondClient 14, .process,
    .process, .subscribe]

theorem bookkept_orderlyMerge :
    ∃ s, (system smallDescriptors).run start orderlyMerge = some s ∧
      s.calls = [(firstClient, firstClient.identity)] ∧ Bookkept smallDescriptors s := by
  have hrun : ((system smallDescriptors).run start orderlyMerge).any fun s =>
      decide (s.calls = [(firstClient, firstClient.identity)]) := by decide +kernel
  obtain ⟨s, hs, hcalls⟩ := Option.any_eq_true _ _ |>.mp hrun
  exact ⟨s, hs, of_decide_eq_true hcalls, bookkept_of_inTurn smallDescriptors
    (ReachableUnder.run (.init rfl) orderlyMerge (by decide +kernel) hs)⟩

/-- The disconnection of a client overtakes its first request. -/
def overtakingMerge : List MonitorAction :=
  [.connect firstClient, .routerFrontend firstClient 14, .disconnect firstClient, .process,
    .process, .subscribe]

/-- A client that has left stays in the table, and the next one with its descriptor ends the
reactor. -/
theorem not_bookkept_overtakingMerge :
    (∃ s, Reachable (system smallDescriptors) s ∧ s.Drained ∧ s.stopped = false ∧
        ¬ Bookkept smallDescriptors s) ∧
      ∃ s, Reachable (system smallDescriptors) s ∧ s.stopped = true ∧
        ¬ Bookkept smallDescriptors s := by
  constructor
  · have hrun : ((system smallDescriptors).run start overtakingMerge).any fun s =>
        decide (s.requests = [] ∧ s.events = []) && !s.stopped && decide (s.alive = []) &&
          decide (s.monitor.connected 5 = some firstClient.identity) := by decide +kernel
    obtain ⟨s, hs, hstate⟩ := Option.any_eq_true _ _ |>.mp hrun
    simp only [Bool.and_eq_true, decide_eq_true_eq, Bool.not_eq_true'] at hstate
    obtain ⟨⟨⟨hdrained, hrunning⟩, halive⟩, hentry⟩ := hstate
    refine ⟨s, Reachable.run (.init rfl) _ hs, hdrained, hrunning, fun h => ?_⟩
    obtain ⟨c, hc, -⟩ := h.tidy hdrained 5 _ hentry
    rw [halive] at hc
    exact List.not_mem_nil hc
  · have hrun : ((system smallDescriptors).run start (overtakingMerge ++
        [.connect secondClient, .routerFrontend secondClient 14, .process, .subscribe])).any
          fun s => s.stopped := by decide +kernel
    obtain ⟨s, hs, hstopped⟩ := Option.any_eq_true _ _ |>.mp hrun
    refine ⟨s, Reachable.run (.init rfl) _ hs, hstopped, fun h => ?_⟩
    exact absurd (hstopped.symm.trans h.running) (by decide)

end Example

end Monitoring

end R1Emu.Server
