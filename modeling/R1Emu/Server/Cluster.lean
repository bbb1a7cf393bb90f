import R1Emu.Lib.Transition
import R1Emu.Server.Router

/-!
# A router and its workers

Clients write to the frontend, workers answer on the backend. Every worker owns a request
socket: it announces itself once, then answers the requests of its queue one at a time and
in order, and whatever is still queued when it answers may be discarded by the socket.
A step handles one message, so a run is any interleaving of the parties.
-/
namespace R1Emu.Server
open R1Emu.Lib.Bytes R1Emu.Lib.Transition

/-- The workers started behind a router. Their number is a `uint16_t`, and the backend socket
gives each of them a routing id of its own. -/
structure Deployment where
  workersCount : ℕ
  workersCount_lt : workersCount < 2 ^ 16
  routingId : ℕ → Frame
  routingId_inj : ∀ i < workersCount, ∀ j < workersCount, routingId i = routingId j → i = j

/-- The router, with the client of every request queued at a worker and of every request
dispatched to a worker and not yet answered. -/
structure Cluster where
  router : Router
  inbox : ℕ → List Frame
  pending : ℕ → List Frame
  running : Bool

inductive Action
  /-- A worker's message; its socket discards the given number of queued requests. -/
  | worker (w : ℕ) (calls : BackendCalls) (msg : Message) (discarded : ℕ)
  | client (calls : FrontendCalls) (msg : Message)

def messageHeader (msg : Message) : Option RouterHeader := msg.head?.bind headerOf

namespace Cluster

def registered (s : Cluster) (w : ℕ) : Prop := (s.router.workers w).identity.frame ≠ none

def curClient (s : Cluster) (w : ℕ) : Option Frame := (s.router.workers w).curClientId

def ready (s : Cluster) : List ℕ := s.router.readyWorkers

instance (s : Cluster) (w : ℕ) : Decidable (s.registered w) := by
  unfold registered
  infer_instance

/-- The worker takes the oldest request of its queue and answers it. -/
def answer (s : Cluster) (w discarded : ℕ) : Cluster :=
  match s.inbox w with
  | [] => s
  | c :: queued =>
    { s with
      inbox := Function.update s.inbox w (queued.drop discarded)
      pending := Function.update s.pending w ((s.pending w).erase c) }

/-- A request of the client is queued at the worker. -/
def give (s : Cluster) (w : ℕ) (c : Frame) : Cluster :=
  { s with
    inbox := Function.update s.inbox w (s.inbox w ++ [c])
    pending := Function.update s.pending w (s.pending w ++ [c]) }

theorem answer_pending_sublist (s : Cluster) (w discarded v : ℕ) :
    ((s.answer w discarded).pending v).Sublist (s.pending v) := by
  rw [answer]
  split
  · exact List.Sublist.refl _
  · by_cases h : v = w
    · subst v
      simpa using List.erase_sublist
    · simp [h]

theorem answer_pending_of_ne (s : Cluster) {w v : ℕ} (discarded : ℕ) (h : v ≠ w) :
    (s.answer w discarded).pending v = s.pending v := by
  rw [answer]
  split
  · rfl
  · simp [h]

/-- The answered request leaves the queue, so what stays queued is still unanswered. -/
theorem answer_queued {s : Cluster} (hq : ∀ v, (s.inbox v).Sublist (s.pending v))
    (w discarded v : ℕ) :
    ((s.answer w discarded).inbox v).Sublist ((s.answer w discarded).pending v) := by
  rw [answer]
  split
  · exact hq v
  · next c queued hi =>
    by_cases h : v = w
    · subst v
      have hc := (hq w).erase c
      rw [hi, List.erase_cons_head] at hc
      simpa using (List.drop_sublist discarded queued).trans hc
    · simpa [Function.update_apply, h] using hq v

theorem give_pending (s : Cluster) (w : ℕ) (c : Frame) (v : ℕ) :
    (s.give w c).pending v = if v = w then s.pending w ++ [c] else s.pending v := by
  simp [give, Function.update_apply]

theorem mem_give_pending {s : Cluster} {w v : ℕ} {c b : Frame} :
    b ∈ (s.give w c).pending v ↔ b ∈ s.pending v ∨ b = c ∧ v = w := by
  rw [give_pending]
  by_cases h : v = w
  · subst v
    simp
  · simp [h]

theorem give_queued {s : Cluster} (hq : ∀ v, (s.inbox v).Sublist (s.pending v)) (w : ℕ)
    (c : Frame) (v : ℕ) : ((s.give w c).inbox v).Sublist ((s.give w c).pending v) := by
  by_cases h : v = w
  · subst v
    simpa [give] using (hq w).append (List.Sublist.refl [c])
  · simpa [give, Function.update_apply, h] using hq v

/-- The reactor goes on with the router a handler left, unless the handler returned -1. -/
def proceed (s : Cluster) (out : Outcome) : Cluster :=
  { s with router := out.self, running := out.result == 0 }

end Cluster

namespace Deployment

/-- Workers numbered by the routing ids the backend socket generates: a zero byte and a
counter. -/
def counted (workersCount : ℕ) (h : workersCount < 2 ^ 16) : Deployment where
  workersCount := workersCount
  workersCount_lt := h
  routingId w := 0 :: leBytes 4 w
  routingId_inj i hi j hj he :=
    leBytes_injective (w := 4) (by omega) (by omega) (List.cons.inj he).2

variable (d : Deployment)

/-- The peer of the backend socket with the given routing id. -/
def workerAt (dest : Frame) : Option ℕ :=
  (List.range d.workersCount).find? fun w => d.routingId w == dest

/-- What a worker may send: first its registration, then an answer to a queued request. A
registration carries the worker's own id. -/
def Sends (s : Cluster) (w : ℕ) (msg : Message) : Prop :=
  w < d.workersCount ∧
    (s.inbox w ≠ [] ∨ ¬ s.registered w ∧ messageHeader msg = some .workerReady) ∧
    (messageHeader msg = some .workerReady → msg[1]? = some (leBytes 2 w))

instance (s : Cluster) (w : ℕ) (msg : Message) : Decidable (d.Sends s w msg) := by
  unfold Sends
  infer_instance

/-- The backend socket queues a dispatched message at its worker. -/
def deliver (s : Cluster) : Option (Frame × Message) → Cluster
  | some (dest, c :: _) =>
    match d.workerAt dest with
    | some w => s.give w c
    | none => s
  | _ => s

def step (s : Cluster) : Action → Option Cluster
  | .worker w calls msg discarded =>
    if s.running ∧ d.Sends s w msg then
      (routerBackend s.router calls (d.routingId w) msg).map fun out =>
        (s.answer w discarded).proceed out
    else none
  | .client calls msg =>
    if s.running ∧ s.router.frontendBound then
      (routerFrontend s.router calls msg).map fun out => d.deliver (s.proceed out) out.backend
    else none

def start : Cluster where
  router := routerInit d.workersCount
  inbox _ := []
  pending _ := []
  running := true

def system : System Cluster Action where
  init s := s = d.start
  step := d.step

/-- A worker announces itself. -/
def announce (w : ℕ) : Action :=
  .worker w ⟨true, true, true⟩ [packetHeader .workerReady, leBytes 2 w] 0

/-- A worker sends one reply frame and discards the given number of queued requests. -/
def reply (w : ℕ) (client : Frame) (discarded : ℕ) : Action :=
  .worker w ⟨true, true, true⟩ [packetHeader .workerNormal, client, [0]] discarded

/-- A client sends a packet. -/
def request (client : Frame) : Action := .client ⟨some 0, true, true⟩ [client, [0]]

theorem workerAt_routingId {w : ℕ} (hw : w < d.workersCount) :
    d.workerAt (d.routingId w) = some w := by
  cases h : d.workerAt (d.routingId w) with
  | none =>
    rw [workerAt, List.find?_eq_none] at h
    exact absurd (beq_self_eq_true _) (h w (List.mem_range.mpr hw))
  | some v =>
    unfold workerAt at h
    have hv := List.mem_range.mp (List.mem_of_find?_eq_some h)
    have he : d.routingId v = d.routingId w := by simpa using List.find?_some h
    exact congrArg some (d.routingId_inj v hv w hw he)

end Deployment

/-- The bookkeeping that every step keeps, whatever the parties send. -/
structure Registry (d : Deployment) (s : Cluster) : Prop where
  workersCount : s.router.workersCount = d.workersCount
  identity : ∀ i f, (s.router.workers i).identity.frame = some f →
    i < d.workersCount ∧ f = d.routingId i ∧ (s.router.workers i).identity.id = i
  ready : ∀ w ∈ s.ready, s.registered w
  curClient : ∀ i c, s.curClient i = some c → s.registered i
  queued : ∀ w, (s.inbox w).Sublist (s.pending w)
  pending : ∀ w, s.pending w ≠ [] → s.registered w

/-- What a worker's message does: the request it answers is accounted for, and the worker
returns to the ready list with its client released unless the handler left early. -/
structure WorkerEffect (d : Deployment) (s : Cluster) (w : ℕ) (msg : Message) (discarded : ℕ)
    (s' : Cluster) : Prop where
  workersCount : s'.router.workersCount = s.router.workersCount
  inbox : s'.inbox = (s.answer w discarded).inbox
  pending : s'.pending = (s.answer w discarded).pending
  registered : s'.registered w
  identity : ∀ i, (s'.router.workers i).identity = (s.router.workers i).identity ∨
    i = w ∧ (s'.router.workers i).identity = ⟨some (d.routingId w), w⟩
  outcome :
    (messageHeader msg ≠ some .workerError ∧ s'.running = true ∧ s'.ready = s.ready ++ [w] ∧
      s'.curClient = Function.update s.curClient w none) ∨
    ((messageHeader msg = some .workerError ∨ s'.running = false) ∧ s'.ready = s.ready ∧
      s'.curClient = s.curClient)

/-- What a client's message does: it is dropped, or it goes to the client's worker, or to a
ready worker, or with none ready to the overload worker. -/
inductive ClientEffect (s : Cluster) (calls : FrontendCalls) (msg : Message) (s' : Cluster) : Prop
  | ignored (hr : s'.router = s.router) (hi : s'.inbox = s.inbox) (hp : s'.pending = s.pending)
  | given (c : Frame) (w : ℕ) (hc : requestOf calls msg = some c) (hw : s.registered w)
      (workersCount : s'.router.workersCount = s.router.workersCount)
      (identity : ∀ i, (s'.router.workers i).identity = (s.router.workers i).identity)
      (queued : s'.inbox = (s.give w c).inbox ∧ s'.pending = (s.give w c).pending ∨
        s'.running = false ∧ s'.inbox = s.inbox ∧ s'.pending = s.pending)
      (choice : s.curClient w = some c ∧ s'.ready = s.ready ∧ s'.curClient = s.curClient ∨
        (∀ i, s.curClient i ≠ some c) ∧ s'.curClient = Function.update s.curClient w (some c) ∧
          (s.ready = w :: s'.ready ∨ s.ready = [] ∧ s'.ready = []))

namespace Registry
variable {d : Deployment} {s s' : Cluster}

theorem registered_lt (hr : Registry d s) {w : ℕ} (hw : s.registered w) : w < d.workersCount := by
  obtain ⟨f, hf⟩ := Option.ne_none_iff_exists'.mp hw
  exact (hr.identity w f hf).1

theorem registered_frame (hr : Registry d s) {w : ℕ} (hw : s.registered w) :
    (s.router.workers w).identity = ⟨some (d.routingId w), w⟩ := by
  obtain ⟨f, hf⟩ := Option.ne_none_iff_exists'.mp hw
  obtain ⟨-, rfl, hid⟩ := hr.identity w f hf
  cases hi : (s.router.workers w).identity
  simp_all

theorem inbox_registered (hr : Registry d s) {w : ℕ} (h : s.inbox w ≠ []) : s.registered w :=
  hr.pending w fun hp => h (List.sublist_nil.mp (hp ▸ hr.queued w))

/-- The workers array is scanned for the frame of a registered worker: it finds that worker. -/
theorem workerOf_routingId {r : Router} {w : ℕ} (hc : r.workersCount = d.workersCount)
    (hi : ∀ i f, (r.workers i).identity.frame = some f → i < d.workersCount ∧ f = d.routingId i)
    (hw : (r.workers w).identity.frame = some (d.routingId w)) :
    workerOf r (d.routingId w) = some w := by
  have hwn := (hi w _ hw).1
  cases h : workerOf r (d.routingId w) with
  | none =>
    have := lastIndex_eq_none.mp h w (by omega)
    simp [hw] at this
  | some i =>
    obtain ⟨hin, hb⟩ := lastIndex_eq_some h
    have hf : (r.workers i).identity.frame = some (d.routingId w) := by simpa using hb
    have he := (hi i _ hf).2
    rw [d.routingId_inj w hwn i (by omega) he]

theorem stickyDest_eq_none (hr : Registry d s) {c : Frame} (h : stickyDest s.router c = none) :
    ∀ i, s.curClient i ≠ some c := by
  intro i hi
  have hreg := hr.curClient i c hi
  have hin := hr.registered_lt hreg
  rw [stickyDest] at h
  cases hs : stickyWorker s.router c with
  | none =>
    have := lastIndex_eq_none.mp hs i (by rw [hr.workersCount]; exact hin)
    simp only [beq_eq_false_iff_ne] at this
    exact this hi
  | some j =>
    have hj : s.curClient j = some c := by simpa [Cluster.curClient] using (lastIndex_eq_some hs).2
    rw [hs, Option.bind_some] at h
    exact hr.curClient j c hj h

theorem stickyDest_eq_some (hr : Registry d s) {c dest : Frame}
    (h : stickyDest s.router c = some dest) :
    ∃ w, s.curClient w = some c ∧ s.registered w ∧ dest = d.routingId w := by
  obtain ⟨w, hs, hf⟩ := Option.bind_eq_some_iff.mp h
  have hw : s.curClient w = some c := by simpa [Cluster.curClient] using (lastIndex_eq_some hs).2
  exact ⟨w, hw, hr.curClient w c hw, (hr.identity w dest hf).2.1⟩

end Registry

section Effects
variable {d : Deployment} {s s' : Cluster}

private theorem registered_after_switch {w : ℕ} {header : Frame} {rest : Message}
    {switched : Switched} (hr : Registry d s)
    (hs : d.Sends s w (header :: rest))
    (hsw : SwitchEffect s.router (d.routingId w) header rest switched) :
    (switched.self.workers w).identity = ⟨some (d.routingId w), w⟩ ∧
      ∀ i, (switched.self.workers i).identity = (s.router.workers i).identity ∨
        i = w ∧ (switched.self.workers i).identity = ⟨some (d.routingId w), w⟩ := by
  obtain ⟨hw, hsend, hid⟩ := hs
  by_cases hh : headerOf header = some .workerReady
  · obtain ⟨idFrame, hf, hi⟩ := hsw.identity_ready hh
    have hle : idFrame = leBytes 2 w := by
      have h1 : (header :: rest)[1]? = some (leBytes 2 w) := hid (by simpa [messageHeader] using hh)
      cases rest <;> simp_all
    have hval : leValue (idFrame.take 2) = w := by
      have htake : (leBytes 2 w).take 2 = leBytes 2 w :=
        List.take_of_length_le (by simp)
      have hlt : w < 256 ^ 2 := hw.trans d.workersCount_lt
      rw [hle, htake, leValue_leBytes_of_lt hlt]
    simp only [hval] at hi
    refine ⟨by simp [hi], fun i => ?_⟩
    by_cases h : i = w <;> simp [hi, h]
  · have hreg : s.registered w := by
      rcases hsend with h | h
      · exact hr.inbox_registered h
      · exact absurd (by simpa [messageHeader] using h.2) hh
    exact ⟨by rw [hsw.identity hh, hr.registered_frame hreg], fun i => .inl (hsw.identity hh i)⟩

theorem worker_effect {w discarded : ℕ} {calls : BackendCalls} {msg : Message}
    (hr : Registry d s) (h : d.step s (.worker w calls msg discarded) = some s') :
    WorkerEffect d s w msg discarded s' := by
  rw [Deployment.step] at h
  split at h
  · next hg =>
    obtain ⟨-, hs⟩ := hg
    obtain ⟨out, ho, rfl⟩ := Option.map_eq_some_iff.mp h
    cases msg with
    | nil =>
      cases ho
      have hreg : s.registered w := by
        rcases hs.2.1 with h | h
        · exact hr.inbox_registered h
        · simp [messageHeader] at h
      exact ⟨rfl, rfl, rfl, hreg, fun i => .inl rfl, .inr ⟨.inr rfl, rfl, rfl⟩⟩
    | cons header rest =>
      obtain ⟨switched, hsw, ho⟩ := Option.bind_eq_some_iff.mp ho
      have heff := routerBackendSwitch_effect hsw
      obtain ⟨hself, hid⟩ := registered_after_switch hr hs heff
      cases hc : switched.cleanup with
      | some r =>
        rw [hc] at ho
        cases ho
        refine ⟨heff.workersCount, rfl, rfl, ?_, hid, .inr ⟨?_, heff.readyWorkers, ?_⟩⟩
        · simp [Cluster.registered, Cluster.proceed, hself]
        · rcases heff.cleanup r hc with h | rfl
          · exact .inl (by simpa [messageHeader] using h)
          · exact .inr rfl
        · exact funext heff.curClientId
      | none =>
        have hne : headerOf header ≠ some .workerError := fun he => by
          rw [heff.cleanup_error he] at hc
          cases hc
        have hof : workerOf switched.self (d.routingId w) = some w := by
          refine Registry.workerOf_routingId (heff.workersCount.trans hr.workersCount)
            (fun i f hf => ?_) (by rw [hself])
          rcases hid i with h | ⟨rfl, h⟩
          · rw [h] at hf
            exact ⟨(hr.identity i f hf).1, (hr.identity i f hf).2.1⟩
          · rw [h] at hf
            cases hf
            exact ⟨hs.1, rfl⟩
        rw [hc] at ho
        simp only [releaseWorker, hof, hself] at ho
        cases ho
        refine ⟨heff.workersCount, rfl, rfl, ?_, fun i => ?_, .inl ⟨?_, rfl, ?_, ?_⟩⟩
        · simp [Cluster.registered, Cluster.proceed, hself]
        · simpa [Cluster.proceed] using hid i
        · simpa [messageHeader] using hne
        · simp [Cluster.ready, Cluster.proceed, heff.readyWorkers]
        · funext i
          simp [Cluster.curClient, Cluster.proceed, heff.curClientId, Function.update_apply]
  · cases h

private theorem forwarded (s : Cluster) (r : Router) (calls : FrontendCalls) (c : Frame)
    (rest : Message) {w : ℕ} (hw : w < d.workersCount) :
    let out := forward r calls (d.routingId w) (c :: rest)
    (d.deliver (s.proceed out) out.backend).router = r ∧
      ((d.deliver (s.proceed out) out.backend).inbox = (s.give w c).inbox ∧
          (d.deliver (s.proceed out) out.backend).pending = (s.give w c).pending ∨
        (d.deliver (s.proceed out) out.backend).running = false ∧
          (d.deliver (s.proceed out) out.backend).inbox = s.inbox ∧
          (d.deliver (s.proceed out) out.backend).pending = s.pending) := by
  intro out
  by_cases hc : calls.sendBackend
  · have ho : out = ⟨r, 0, [], some (d.routingId w, c :: rest)⟩ := if_pos hc
    rw [ho, Deployment.deliver, d.workerAt_routingId hw]
    exact ⟨rfl, .inl ⟨rfl, rfl⟩⟩
  · have ho : out = ⟨r, -1, [], none⟩ := if_neg hc
    rw [ho]
    exact ⟨rfl, .inr ⟨rfl, rfl, rfl⟩⟩

/-- A fresh choice comes from the head of the ready list, or finds that list empty. -/
theorem pickWorker_cases {r r' : Router} {w : ℕ} {state : WorkerState}
    (h : pickWorker r = some (r', w, state)) :
    r'.workers = r.workers ∧ r'.workersCount = r.workersCount ∧
      ((∃ v, r.readyWorkers = v :: r'.readyWorkers ∧ w = (r.workers v).identity.id ∧
          state = r.workers v) ∨
        r.readyWorkers = [] ∧ r'.readyWorkers = [] ∧ state = r.workers w) := by
  rw [pickWorker] at h
  split at h
  · next v ready hv =>
    cases h
    exact ⟨rfl, rfl, .inl ⟨v, hv, rfl, rfl⟩⟩
  · next hv =>
    split at h
    · cases h
    · cases h
      exact ⟨rfl, rfl, .inr ⟨hv, hv, rfl⟩⟩

theorem client_effect {calls : FrontendCalls} {msg : Message} (hr : Registry d s)
    (h : d.step s (.client calls msg) = some s') : ClientEffect s calls msg s' := by
  rw [Deployment.step] at h
  split at h
  · obtain ⟨out, ho, rfl⟩ := Option.map_eq_some_iff.mp h
    rcases routerFrontend_cases ho with rfl | ⟨c, data, rest, rfl, hreq, hd⟩
    · exact .ignored rfl rfl rfl
    · rcases hd with ⟨dest, hs, rfl⟩ | ⟨hs, r', w, state, dest, hp, hw, hf, rfl⟩
      · obtain ⟨w, hcur, hreg, rfl⟩ := hr.stickyDest_eq_some hs
        obtain ⟨hrouter, hq⟩ := forwarded s s.router calls c (data :: rest)
          (hr.registered_lt hreg)
        refine .given c w hreq hreg ?_ ?_ hq (.inl ⟨hcur, ?_, ?_⟩)
        · rw [hrouter]
        · exact fun i => by rw [hrouter]
        · rw [Cluster.ready, hrouter]
          rfl
        · funext i
          rw [Cluster.curClient, hrouter]
          rfl
      · obtain ⟨hworkers, hcount, hchoice⟩ := pickWorker_cases hp
        have hfree := hr.stickyDest_eq_none hs
        have hwd : s.registered w ∧ dest = d.routingId w := by
          rcases hchoice with ⟨v, -, rfl, rfl⟩ | ⟨-, -, rfl⟩
          · have hv : s.registered v := Option.ne_none_iff_exists'.mpr ⟨dest, hf⟩
            rw [hr.registered_frame hv]
            exact ⟨hv, (hr.identity v dest hf).2.1⟩
          · exact ⟨Option.ne_none_iff_exists'.mpr ⟨dest, hf⟩, (hr.identity w dest hf).2.1⟩
        obtain ⟨hreg, rfl⟩ := hwd
        obtain ⟨hrouter, hq⟩ := forwarded s (r'.setCurClient w (some c)) calls c
          (data :: rest) (hr.registered_lt hreg)
        refine .given c w hreq hreg ?_ ?_ hq (.inr ⟨hfree, ?_, ?_⟩)
        · rw [hrouter, Router.setCurClient_workersCount, hcount]
        · intro i
          rw [hrouter, Router.setCurClient_identity, hworkers]
        · funext i
          simp [Cluster.curClient, hrouter, hworkers, Function.update_apply]
        · rw [Cluster.ready, Cluster.ready, hrouter, Router.setCurClient_readyWorkers]
          rcases hchoice with ⟨v, hv, rfl, rfl⟩ | ⟨hv, hv', -⟩
          · have hvr : s.registered v := Option.ne_none_iff_exists'.mpr ⟨_, hf⟩
            rw [hr.registered_frame hvr]
            exact .inl hv
          · exact .inr ⟨hv, hv'⟩
  · cases h

theorem Registry.worker_step {w discarded : ℕ} {msg : Message} (hr : Registry d s)
    (h : WorkerEffect d s w msg discarded s') (hw : w < d.workersCount) : Registry d s' := by
  have hreg : ∀ i, s.registered i → s'.registered i := by
    intro i hi
    rcases h.identity i with he | ⟨rfl, -⟩
    · rwa [Cluster.registered, he]
    · exact h.registered
  refine ⟨h.workersCount.trans hr.workersCount, ?_, ?_, ?_, ?_, ?_⟩
  · intro i f hf
    rcases h.identity i with he | ⟨rfl, he⟩
    · rw [he] at hf ⊢
      exact hr.identity i f hf
    · rw [he] at hf ⊢
      cases hf
      exact ⟨hw, rfl, rfl⟩
  · intro v hv
    rcases h.outcome with ⟨-, -, he, -⟩ | ⟨-, he, -⟩
    · rw [he, List.mem_append, List.mem_singleton] at hv
      rcases hv with hv | rfl
      · exact hreg v (hr.ready v hv)
      · exact h.registered
    · exact hreg v (hr.ready v (he ▸ hv))
  · intro i c hc
    rcases h.outcome with ⟨-, -, -, he⟩ | ⟨-, -, he⟩
    · rw [he, Function.update_apply] at hc
      split at hc
      · cases hc
      · exact hreg i (hr.curClient i c hc)
    · exact hreg i (hr.curClient i c (he ▸ hc))
  · intro v
    rw [h.inbox, h.pending]
    exact Cluster.answer_queued hr.queued w discarded v
  · intro v hv
    rw [h.pending] at hv
    refine hreg v (hr.pending v fun h0 => hv ?_)
    exact List.sublist_nil.mp (h0 ▸ s.answer_pending_sublist w discarded v)

theorem Registry.client_step {calls : FrontendCalls} {msg : Message} (hr : Registry d s)
    (h : ClientEffect s calls msg s') : Registry d s' := by
  cases h with
  | ignored hrouter hi hp =>
    constructor
    · exact hrouter ▸ hr.workersCount
    · exact hrouter ▸ hr.identity
    · simpa only [Cluster.ready, Cluster.registered, hrouter] using hr.ready
    · simpa only [Cluster.curClient, Cluster.registered, hrouter] using hr.curClient
    · simpa only [hi, hp] using hr.queued
    · simpa only [hp, Cluster.registered, hrouter] using hr.pending
  | given c w hc hw hcount hid hq hchoice =>
    have hreg : ∀ i, s.registered i → s'.registered i := by
      intro i hi
      rwa [Cluster.registered, hid i]
    refine ⟨hcount.trans hr.workersCount, ?_, ?_, ?_, ?_, ?_⟩
    · intro i f hf
      rw [hid i] at hf ⊢
      exact hr.identity i f hf
    · intro v hv
      apply hreg v
      rcases hchoice with ⟨-, he, -⟩ | ⟨-, -, he | ⟨-, he⟩⟩
      · exact hr.ready v (he ▸ hv)
      · exact hr.ready v (he ▸ List.mem_cons_of_mem _ hv)
      · simp [he] at hv
    · intro i b hb
      apply hreg i
      rcases hchoice with ⟨-, -, he⟩ | ⟨-, he, -⟩
      · exact hr.curClient i b (he ▸ hb)
      · rw [he, Function.update_apply] at hb
        split at hb
        · next h => exact h ▸ hw
        · exact hr.curClient i b hb
    · intro v
      rcases hq with ⟨hi, hp⟩ | ⟨-, hi, hp⟩ <;> rw [hi, hp]
      · exact Cluster.give_queued hr.queued w c v
      · exact hr.queued v
    · intro v hv
      apply hreg v
      rcases hq with ⟨-, hp⟩ | ⟨-, -, hp⟩
      · rw [hp, Cluster.give_pending] at hv
        split at hv
        · next h => exact h ▸ hw
        · exact hr.pending v hv
      · exact hr.pending v (hp ▸ hv)

theorem registry_start : Registry d d.start := by
  constructor <;> simp [Deployment.start, routerInit, Cluster.ready, Cluster.curClient]

theorem Deployment.step_sends {w discarded : ℕ} {calls : BackendCalls} {msg : Message}
    (h : d.step s (.worker w calls msg discarded) = some s') : d.Sends s w msg := by
  rw [Deployment.step] at h
  split at h
  · next hg => exact hg.2
  · cases h

/-- The bookkeeping holds in every state that any interleaving reaches. -/
theorem registry_inductive (ok : Cluster → Action → Prop) :
    Inductive d.system ok (Registry d) where
  init s hs := by
    rw [show s = d.start from hs]
    exact registry_start
  step s a s' hr _ h := by
    cases a with
    | worker w calls msg discarded =>
      exact hr.worker_step (worker_effect hr h) (d.step_sends h).1
    | client calls msg => exact hr.client_step (client_effect hr h)

end Effects

end R1Emu.Server
