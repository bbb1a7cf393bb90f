import R1Emu.Lib.Bytes
import Mathlib.Logic.Function.Basic

/-!
# The router

The router accepts client packets on its frontend and hands each of them to a worker
behind its backend. A message is the list of its frames. A worker pointer in the ready
list is the index of the worker in the workers array, and a function returns `none`
where the source dereferences NULL or writes outside the array.
-/
namespace R1Emu.Server
open R1Emu.Lib.Bytes

abbrev Frame := List UInt8
abbrev Message := List Frame

inductive RouterHeader
  | workerReady
  | workerNormal
  | workerMulticast
  | workerError
  | ping
  | pong
  deriving DecidableEq, Repr

/-- The value of the enumeration constant. -/
def RouterHeader.code : RouterHeader → ℕ
  | .workerReady => 0
  | .workerNormal => 1
  | .workerMulticast => 2
  | .workerError => 3
  | .ping => 4
  | .pong => 5

def RouterHeader.ofCode : ℕ → Option RouterHeader
  | 0 => some .workerReady
  | 1 => some .workerNormal
  | 2 => some .workerMulticast
  | 3 => some .workerError
  | 4 => some .ping
  | 5 => some .pong
  | _ => none

@[simp] theorem RouterHeader.ofCode_code (h : RouterHeader) : ofCode h.code = some h := by
  cases h <;> rfl

/-- The frame `PACKET_HEADER` builds: the constant has type `int`. -/
def packetHeader (h : RouterHeader) : Frame := leBytes 4 h.code

/-- The header read back from a frame; `none` is a value outside the enumeration. -/
def headerOf (frame : Frame) : Option RouterHeader := RouterHeader.ofCode (leValue (frame.take 4))

@[simp] theorem headerOf_packetHeader (h : RouterHeader) : headerOf (packetHeader h) = some h := by
  cases h <;> rfl

structure WorkerIdentity where
  frame : Option Frame
  id : ℕ

structure WorkerState where
  identity : WorkerIdentity
  /-- The client being treated, NULL if there is none. -/
  curClientId : Option Frame

structure Router where
  workersCount : ℕ
  workers : ℕ → WorkerState
  readyWorkers : List ℕ
  workersReadyCount : ℕ
  overloadWorker : ℕ
  /-- The frontend socket is bound. -/
  frontendBound : Bool

def routerInit (workersCount : ℕ) : Router where
  workersCount := workersCount
  workers _ := ⟨⟨none, 0⟩, none⟩
  readyWorkers := []
  workersReadyCount := 0
  overloadWorker := 0
  frontendBound := false

namespace Router

def registerWorker (self : Router) (frame : Frame) (workerId : ℕ) : Router :=
  { self with
    workers := Function.update self.workers workerId
      { self.workers workerId with identity := ⟨some frame, workerId⟩ }
    workersReadyCount := self.workersReadyCount + 1 }

def setCurClient (self : Router) (workerId : ℕ) (client : Option Frame) : Router :=
  { self with
    workers := Function.update self.workers workerId
      { self.workers workerId with curClientId := client } }

def bindFrontend (self : Router) : Router := { self with frontendBound := true }

def appendReady (self : Router) (worker : ℕ) : Router :=
  { self with readyWorkers := self.readyWorkers ++ [worker] }

variable (self : Router)

@[simp] theorem registerWorker_readyWorkers (f : Frame) (w : ℕ) :
    (self.registerWorker f w).readyWorkers = self.readyWorkers := rfl

@[simp] theorem registerWorker_workersCount (f : Frame) (w : ℕ) :
    (self.registerWorker f w).workersCount = self.workersCount := rfl

@[simp] theorem registerWorker_identity (f : Frame) (w i : ℕ) :
    ((self.registerWorker f w).workers i).identity =
      if i = w then ⟨some f, w⟩ else (self.workers i).identity := by
  by_cases h : i = w <;> simp [registerWorker, h]

@[simp] theorem registerWorker_curClientId (f : Frame) (w i : ℕ) :
    ((self.registerWorker f w).workers i).curClientId = (self.workers i).curClientId := by
  by_cases h : i = w <;> simp [registerWorker, h]

@[simp] theorem setCurClient_readyWorkers (w : ℕ) (c : Option Frame) :
    (self.setCurClient w c).readyWorkers = self.readyWorkers := rfl

@[simp] theorem setCurClient_workersCount (w : ℕ) (c : Option Frame) :
    (self.setCurClient w c).workersCount = self.workersCount := rfl

@[simp] theorem setCurClient_identity (w : ℕ) (c : Option Frame) (i : ℕ) :
    ((self.setCurClient w c).workers i).identity = (self.workers i).identity := by
  by_cases h : i = w <;> simp [setCurClient, h]

@[simp] theorem setCurClient_curClientId (w : ℕ) (c : Option Frame) (i : ℕ) :
    ((self.setCurClient w c).workers i).curClientId =
      if i = w then c else (self.workers i).curClientId := by
  by_cases h : i = w <;> simp [setCurClient, h]

@[simp] theorem bindFrontend_workers : self.bindFrontend.workers = self.workers := rfl

@[simp] theorem bindFrontend_readyWorkers :
    self.bindFrontend.readyWorkers = self.readyWorkers := rfl

@[simp] theorem bindFrontend_workersCount :
    self.bindFrontend.workersCount = self.workersCount := rfl

@[simp] theorem appendReady_workers (w : ℕ) : (self.appendReady w).workers = self.workers := rfl

@[simp] theorem appendReady_readyWorkers (w : ℕ) :
    (self.appendReady w).readyWorkers = self.readyWorkers ++ [w] := rfl

@[simp] theorem appendReady_workersCount (w : ℕ) :
    (self.appendReady w).workersCount = self.workersCount := rfl

end Router

/-- The last index below `n` that satisfies `p`: what a scan without `break` retains. -/
def lastIndex (p : ℕ → Bool) : ℕ → Option ℕ
  | 0 => none
  | n + 1 => if p n then some n else lastIndex p n

theorem lastIndex_eq_none {p : ℕ → Bool} {n : ℕ} :
    lastIndex p n = none ↔ ∀ i < n, p i = false := by
  induction n with
  | zero => simp [lastIndex]
  | succ n ih =>
    by_cases hp : p n
    · simp only [lastIndex, if_pos hp, reduceCtorEq, false_iff, not_forall]
      exact ⟨n, by omega, by simp [hp]⟩
    · rw [lastIndex, if_neg hp, ih]
      constructor
      · intro h i hi
        by_cases he : i = n
        · simpa [he] using hp
        · exact h i (by omega)
      · exact fun h i hi => h i (by omega)

theorem lastIndex_eq_some {p : ℕ → Bool} {n i : ℕ} (h : lastIndex p n = some i) :
    i < n ∧ p i = true := by
  induction n with
  | zero => simp [lastIndex] at h
  | succ n ih =>
    by_cases hp : p n
    · rw [lastIndex, if_pos hp] at h
      cases h
      exact ⟨by omega, hp⟩
    · rw [lastIndex, if_neg hp] at h
      have := ih h
      exact ⟨by omega, this.2⟩

/-- What a call of a router handler leaves behind: the router, the value returned to the
reactor (which stops on -1), the messages sent to the frontend and the worker's frame
with the message sent to the backend. -/
structure Outcome where
  self : Router
  result : ℤ
  frontend : List Message
  backend : Option (Frame × Message)

/-- Whether the calls of the backend handler that may fail succeed. -/
structure BackendCalls where
  initMonitor : Bool
  initFrontend : Bool
  sendFrontend : Bool

/-- The router after the switch on the header, the messages sent to the frontend, and the
result with which it left for the cleanup, if it did. -/
structure Switched where
  self : Router
  frontend : List Message
  cleanup : Option ℤ

/-- Register a worker; the last one to register opens the frontend. -/
def routerBackendReady (self : Router) (calls : BackendCalls) (workerStateFrame : Frame)
    (msg : Message) : Option Switched :=
  match msg with
  | [] => none
  | workerIdFrame :: _ =>
    let workerId := leValue (workerIdFrame.take 2)
    if workerIdFrame.length < 2 ∨ self.workersCount ≤ workerId then none
    else
      let self := self.registerWorker workerStateFrame workerId
      if self.workersReadyCount ≠ self.workersCount then some ⟨self, [], none⟩
      else if !calls.initMonitor then some ⟨self, [], some (-1)⟩
      else if !calls.initFrontend then some ⟨self, [], some (-1)⟩
      else some ⟨self.bindFrontend, [], none⟩

/-- One message to the frontend for each reply frame, addressed to the identity frame. -/
def splitReply : Message → List Message
  | [] => []
  | identity :: replies => replies.map fun reply => [identity, reply]

def routerBackendNormal (self : Router) (calls : BackendCalls) (msg : Message) : Switched :=
  if msg.length = 2 then
    if calls.sendFrontend then ⟨self, [msg], none⟩ else ⟨self, [], some (-1)⟩
  else ⟨self, splitReply msg, none⟩

def routerBackendSwitch (self : Router) (calls : BackendCalls) (workerStateFrame header : Frame)
    (msg : Message) : Option Switched :=
  match headerOf header with
  | some .workerError => some ⟨self, [], some 0⟩
  | some .workerReady => routerBackendReady self calls workerStateFrame msg
  | some .workerNormal => some (routerBackendNormal self calls msg)
  | _ => some ⟨self, [], none⟩

/-- The worker of the frame, as the scan of the workers array finds it. -/
def workerOf (self : Router) (frame : Frame) : Option ℕ :=
  lastIndex (fun i => (self.workers i).identity.frame == some frame) self.workersCount

/-- The end of the handler: release the worker's client and append the worker to the
ready list. -/
def releaseWorker (self : Router) (workerStateFrame : Frame) : Router × ℤ :=
  match workerOf self workerStateFrame with
  | none => (self, -1)
  | some i => ((self.setCurClient (self.workers i).identity.id none).appendReady i, 0)

/-- A message of a worker, its identity frame unwrapped. -/
def routerBackend (self : Router) (calls : BackendCalls) (workerStateFrame : Frame) :
    Message → Option Outcome
  | [] => some ⟨self, -1, [], none⟩
  | header :: msg => do
    let switched ← routerBackendSwitch self calls workerStateFrame header msg
    match switched.cleanup with
    | some result => some ⟨switched.self, result, switched.frontend, none⟩
    | none =>
      let (self, result) := releaseWorker switched.self workerStateFrame
      some ⟨self, result, switched.frontend, none⟩

/-- What the frontend handler asks of its surroundings. -/
structure FrontendCalls where
  /-- The socket descriptor of the client; `none` is the invalid descriptor. -/
  fdClient : Option ℕ
  informMonitor : Bool
  sendBackend : Bool

/-- The worker that already treats the client. -/
def stickyWorker (self : Router) (identityClient : Frame) : Option ℕ :=
  lastIndex (fun i => (self.workers i).curClientId == some identityClient) self.workersCount

def stickyDest (self : Router) (identityClient : Frame) : Option Frame :=
  (stickyWorker self identityClient).bind fun i => (self.workers i).identity.frame

/-- The next ready worker, else the overload worker; `none` when no worker has registered. -/
def pickWorker (self : Router) : Option (Router × ℕ × WorkerState) :=
  match self.readyWorkers with
  | worker :: ready =>
    some ({ self with readyWorkers := ready }, (self.workers worker).identity.id,
      self.workers worker)
  | [] =>
    if self.workersReadyCount = 0 then none
    else
      some ({ self with overloadWorker := (self.overloadWorker + 1) % self.workersReadyCount },
        self.overloadWorker, self.workers self.overloadWorker)

/-- Wrap the message with the worker's identity and forward it to the backend. -/
def forward (self : Router) (calls : FrontendCalls) (worker : Frame) (msg : Message) : Outcome :=
  if calls.sendBackend then ⟨self, 0, [], some (worker, msg)⟩ else ⟨self, -1, [], none⟩

def routerDispatch (self : Router) (calls : FrontendCalls) (identityClient : Frame)
    (msg : Message) : Option Outcome :=
  match stickyDest self identityClient with
  | some dest => some (forward self calls dest msg)
  | none =>
    match pickWorker self with
    | none => some ⟨self, 0, [], none⟩
    | some (self, workerIdInCharge, workerState) =>
      if self.workersCount ≤ workerIdInCharge then none
      else workerState.identity.frame.map fun dest =>
        forward (self.setCurClient workerIdInCharge (some identityClient)) calls dest msg

/-- A message of a client: its identity frame and its data frame. -/
def routerFrontend (self : Router) (calls : FrontendCalls) (msg : Message) : Option Outcome :=
  match msg with
  | identityClient :: data :: _ =>
    if data.length = 0 ∨ calls.fdClient = none then some ⟨self, 0, [], none⟩
    else if !calls.informMonitor then some ⟨self, 0, [], none⟩
    else routerDispatch self calls identityClient msg
  | _ => none

/-- The client of a message that the frontend handler dispatches. -/
def requestOf (calls : FrontendCalls) : Message → Option Frame
  | identityClient :: data :: _ =>
    if data.length = 0 ∨ calls.fdClient = none ∨ calls.informMonitor = false then none
    else some identityClient
  | _ => none

/-- A dispatched request: the client's worker if it has one, else a fresh assignment. -/
theorem routerFrontend_cases {self : Router} {calls : FrontendCalls} {msg : Message}
    {out : Outcome} (h : routerFrontend self calls msg = some out) :
    out = ⟨self, 0, [], none⟩ ∨
      ∃ c data rest, msg = c :: data :: rest ∧ requestOf calls msg = some c ∧
        ((∃ dest, stickyDest self c = some dest ∧ out = forward self calls dest msg) ∨
          stickyDest self c = none ∧ ∃ self' w state dest,
            pickWorker self = some (self', w, state) ∧ w < self.workersCount ∧
            state.identity.frame = some dest ∧
            out = forward (self'.setCurClient w (some c)) calls dest msg) := by
  rcases msg with _ | ⟨c, _ | ⟨data, rest⟩⟩
  · cases h
  · cases h
  · rw [routerFrontend] at h
    split at h
    · cases h
      exact .inl rfl
    · next hd =>
      split at h
      · cases h
        exact .inl rfl
      · next hm =>
        have hreq : requestOf calls (c :: data :: rest) = some c := by
          simp only [requestOf]
          rw [if_neg (by simp_all)]
        rw [routerDispatch] at h
        split at h
        · next dest hs =>
          cases h
          exact .inr ⟨c, data, rest, rfl, hreq, .inl ⟨dest, hs, rfl⟩⟩
        · next hs =>
          split at h
          · cases h
            exact .inl rfl
          · next self' w state hp =>
            split at h
            · cases h
            · next hw =>
              obtain ⟨dest, hd, rfl⟩ := Option.map_eq_some_iff.mp h
              have hc : self'.workersCount = self.workersCount := by
                rw [pickWorker] at hp
                split at hp
                on_goal 2 => split at hp
                all_goals cases hp
                all_goals rfl
              exact .inr ⟨c, data, rest, rfl, hreq, .inr ⟨hs, self', w, state, dest, hp,
                by omega, hd, rfl⟩⟩

/-- The router after the header's switch: only a registration changes it, in the identity of
the registered worker, and the handler leaves early on an error message or on a failure. -/
structure SwitchEffect (r : Router) (frame header : Frame) (msg : Message)
    (switched : Switched) : Prop where
  workersCount : switched.self.workersCount = r.workersCount
  readyWorkers : switched.self.readyWorkers = r.readyWorkers
  curClientId : ∀ i, (switched.self.workers i).curClientId = (r.workers i).curClientId
  identity : headerOf header ≠ some .workerReady →
    ∀ i, (switched.self.workers i).identity = (r.workers i).identity
  identity_ready : headerOf header = some .workerReady →
    ∃ idFrame, msg.head? = some idFrame ∧
      ∀ i, (switched.self.workers i).identity =
        if i = leValue (idFrame.take 2) then ⟨some frame, leValue (idFrame.take 2)⟩
        else (r.workers i).identity
  cleanup : ∀ result, switched.cleanup = some result →
    headerOf header = some .workerError ∨ result = -1
  cleanup_error : headerOf header = some .workerError → switched.cleanup = some 0

theorem routerBackendReady_effect {self : Router} {calls : BackendCalls} {frame header : Frame}
    {msg : Message} {switched : Switched} (hh : headerOf header = some .workerReady)
    (h : routerBackendReady self calls frame msg = some switched) :
    SwitchEffect self frame header msg switched := by
  cases msg with
  | nil => simp [routerBackendReady] at h
  | cons idFrame rest =>
    simp only [routerBackendReady] at h
    split at h
    · cases h
    · split at h
      on_goal 2 => split at h
      on_goal 3 => split at h
      all_goals
        cases h
        constructor <;> simp [hh]

theorem routerBackendSwitch_effect {self : Router} {calls : BackendCalls} {frame header : Frame}
    {msg : Message} {switched : Switched}
    (h : routerBackendSwitch self calls frame header msg = some switched) :
    SwitchEffect self frame header msg switched := by
  rw [routerBackendSwitch] at h
  split at h
  · next hh =>
    cases h
    constructor <;> simp [hh]
  · next hh => exact routerBackendReady_effect hh h
  · next hh =>
    rw [routerBackendNormal] at h
    split at h
    on_goal 1 => split at h
    all_goals
      cases h
      constructor <;> simp [hh]
  · next he hr hn =>
    cases h
    exact ⟨rfl, rfl, fun _ => rfl, fun _ _ => rfl, fun hh => (hr hh).elim, by simp,
      fun hh => (he hh).elim⟩

end R1Emu.Server
