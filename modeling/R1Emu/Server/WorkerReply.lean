import R1Emu.Server.Worker

/-!
# The worker's answer

The answer is built in the received message. The frame taken for its header is the last one
after the header was pushed in front, and that is the client's identity: an error rewrites
the identity and leaves the header normal. The answer is addressed as it should be exactly
when no step fails.
-/
namespace R1Emu.Server
open R1Emu.Lib.Bytes

variable {σ : Type*}

/-- The answer is a header, the client's identity and the reply frames; the header tells
whether a step failed, and what the router forwards of it goes to the identity. -/
structure Addressed (identity : Frame) (replies : List Frame) (failed : Prop) (out : Message) :
    Prop where
  shape : ∃ header, out = packetHeader header :: identity :: replies ∧
    (header = .workerError ↔ failed)
  forwarded : ∀ router calls worker outcome, routerBackend router calls worker out = some outcome →
    ∀ m ∈ outcome.frontend, ∃ reply ∈ replies, m = [identity, reply]

/-- Every packet of what remains is found and processed without an error. -/
inductive RequestsSucceed (w : Worker σ) (headerAnswer : ℕ) : Machine σ → ℕ → ℕ → Prop
  | done (s : Machine σ) (pos : ℕ) : RequestsSucceed w headerAnswer s pos 0
  | next {s : Machine σ} {pos remaining : ℕ} (info : Bool × ℕ) (h0 : remaining ≠ 0)
      (hinfo : workerGetCryptedPacketInfo w.serverType s.memory remaining pos = some info)
      (hok : (workerProcessOneRequest w s pos (subPacketSize info) headerAnswer info.1).1 = true)
      (hrest : RequestsSucceed w headerAnswer
        (workerProcessOneRequest w s pos (subPacketSize info) headerAnswer info.1).2
        (pos + subPacketSize info) (sizeSub remaining (subPacketSize info))) :
      RequestsSucceed w headerAnswer s pos remaining

theorem RequestsSucceed.of_eq_zero {w : Worker σ} {headerAnswer : ℕ} {s : Machine σ}
    {pos remaining : ℕ} (h : remaining = 0) : RequestsSucceed w headerAnswer s pos remaining :=
  h ▸ .done s pos

/-- The machine once the session has been requested. -/
def requested (w : Worker σ) (world : σ) (beyond : Memory) (identity packet : Frame) :
    Bool × Machine σ :=
  Machine.inWorld ⟨world, .ofFrame packet beyond, [identity], [], []⟩
    (w.dbClientRequestObject (socketSessionGenSessionKey identity))

/-- The machine once the header has been pushed. -/
def pushed (w : Worker σ) (world : σ) (beyond : Memory) (identity packet : Frame) :
    Bool × Machine σ :=
  let r := (requested w world beyond identity packet).2.inWorld w.pushHeader
  (r.1, { r.2 with msg := packetHeader .workerNormal :: r.2.msg })

/-- The machine once the session has been found or created. -/
def opened (w : Worker σ) (world : σ) (beyond : Memory) (identity packet : Frame) :
    Bool × Machine σ :=
  workerGetOrCreateSessionObject w (socketSessionGenSessionKey identity)
    (pushed w world beyond identity packet).2

/-- No step of the request fails: the session lookup, the push of the header, and every
packet. -/
def AllStepsSucceed (w : Worker σ) (world : σ) (beyond : Memory) (identity packet : Frame) :
    Prop :=
  (requested w world beyond identity packet).1 = true ∧
    (pushed w world beyond identity packet).1 = true ∧
    (opened w world beyond identity packet).1 = true ∧
    RequestsSucceed w 1 (opened w world beyond identity packet).2 0 packet.length

theorem workerGetOrCreateSessionObject_msg (w : Worker σ) (key : SessionKey) (s : Machine σ) :
    (workerGetOrCreateSessionObject w key s).2.msg = s.msg ∧
      (workerGetOrCreateSessionObject w key s).2.replies = s.replies := by
  simp only [workerGetOrCreateSessionObject]
  split
  · exact ⟨rfl, rfl⟩
  · split
    · exact ⟨rfl, rfl⟩
    · split <;> exact ⟨rfl, rfl⟩

theorem workerHandlePacket_msg (w : Worker σ) (s : Machine σ) (packet packetSize : ℕ)
    (isCrypted : Bool) :
    ∃ rs, (workerHandlePacket w s packet packetSize isCrypted).2.msg = s.msg ++ rs ∧
      (workerHandlePacket w s packet packetSize isCrypted).2.replies = s.replies ++ rs := by
  by_cases hlt : w.packetHandlersCount < (clientPacketHeader s.memory packet isCrypted).type
  · exact ⟨[], by simp [workerHandlePacket, hlt], by simp [workerHandlePacket, hlt]⟩
  · cases hh : w.packetHandlers (clientPacketHeader s.memory packet isCrypted).type with
    | none =>
      exact ⟨[], by simp [workerHandlePacket, hlt, hh], by simp [workerHandlePacket, hlt, hh]⟩
    | some handler =>
      simp only [workerHandlePacket, Machine.log_memory, if_neg hlt, hh]
      exact ⟨_, rfl, rfl⟩

theorem finishRequest_msg (w : Worker σ) (headerAnswer : ℕ) (r : PacketHandlerState × Machine σ) :
    (finishRequest w headerAnswer r).2.replies = r.2.replies ∧
      ((finishRequest w headerAnswer r).2.msg = r.2.msg ∨
        (finishRequest w headerAnswer r).1 = false ∧ (finishRequest w headerAnswer r).2.msg =
          r.2.msg.set headerAnswer (packetHeader .workerError)) := by
  obtain ⟨state, s⟩ := r
  cases state with
  | error => exact ⟨rfl, .inr ⟨rfl, rfl⟩⟩
  | ok => exact ⟨rfl, .inl rfl⟩
  | updateSession =>
    simp only [finishRequest]
    split
    · exact ⟨rfl, .inl rfl⟩
    · split <;> exact ⟨rfl, .inl rfl⟩
  | deleteSession => exact ⟨rfl, .inl rfl⟩

theorem cryptoDecryptPacket_msg (w : Worker σ) (s : Machine σ) (packet packetSize : ℕ) :
    (cryptoDecryptPacket w s packet packetSize).2.msg = s.msg ∧
      (cryptoDecryptPacket w s packet packetSize).2.replies = s.replies := by
  rw [cryptoDecryptPacket]
  by_cases h : sizeSub packetSize cryptHeaderSize = cryptPacketGetHeader s.memory packet <;>
    simp [h]

/-- One request appends its handler's frames; only when it fails may it reset a frame. -/
theorem workerProcessOneRequest_msg (w : Worker σ) (s : Machine σ)
    (packet packetSize headerAnswer : ℕ) (isCrypted : Bool) :
    let r := workerProcessOneRequest w s packet packetSize headerAnswer isCrypted
    ∃ rs, r.2.replies = s.replies ++ rs ∧ (r.2.msg = s.msg ++ rs ∨
      r.1 = false ∧ r.2.msg = (s.msg ++ rs).set headerAnswer (packetHeader .workerError)) := by
  intro r
  have hfinish : ∀ t packet packetSize, t.msg = s.msg → t.replies = s.replies →
      let r := finishRequest w headerAnswer (workerHandlePacket w t packet packetSize isCrypted)
      ∃ rs, r.2.replies = s.replies ++ rs ∧ (r.2.msg = s.msg ++ rs ∨
        r.1 = false ∧ r.2.msg = (s.msg ++ rs).set headerAnswer (packetHeader .workerError)) := by
    intro t packet packetSize hm hr r
    obtain ⟨rs, hmsg, hrep⟩ := workerHandlePacket_msg w t packet packetSize isCrypted
    obtain ⟨hrep', hmsg'⟩ := finishRequest_msg w headerAnswer
      (workerHandlePacket w t packet packetSize isCrypted)
    rw [hmsg, hm] at hmsg'
    exact ⟨rs, by rw [← hr, ← hrep]; exact hrep', hmsg'⟩
  simp only [r, workerProcessOneRequest]
  by_cases hc : isCrypted = true
  · rw [if_pos hc]
    obtain ⟨hm, hr⟩ := cryptoDecryptPacket_msg w s packet packetSize
    generalize cryptoDecryptPacket w s packet packetSize = d at hm hr ⊢
    obtain ⟨plain, t⟩ := d
    cases plain with
    | none => exact ⟨[], by simpa using hr, .inl (by simpa using hm)⟩
    | some plain => exact hfinish t plain.1 plain.2 hm hr
  · rw [if_neg hc]
    exact hfinish s packet packetSize rfl rfl

/-- A loop that ends reports success exactly when every request succeeds. -/
theorem buildReplyLoop_status {w : Worker σ} {headerAnswer fuel : ℕ} {s s' : Machine σ}
    {pos remaining : ℕ} {status : Bool} {handed : List (ℕ × ℕ)}
    (h : buildReplyLoop w headerAnswer fuel s pos remaining = some (status, s', handed)) :
    status = true ↔ RequestsSucceed w headerAnswer s pos remaining := by
  induction fuel generalizing s pos remaining handed with
  | zero => cases h
  | succ fuel ih =>
    rw [buildReplyLoop] at h
    by_cases h0 : remaining = 0
    · rw [if_pos h0] at h
      cases h
      exact ⟨fun _ => h0 ▸ .done _ _, fun _ => rfl⟩
    · rw [if_neg h0] at h
      cases hinfo : workerGetCryptedPacketInfo w.serverType s.memory remaining pos with
      | none =>
        rw [hinfo] at h
        cases h
        refine ⟨by simp, fun hs => ?_⟩
        cases hs with
        | done => exact absurd rfl h0
        | next info' _ hinfo' => simp [hinfo] at hinfo'
      | some info =>
        rw [hinfo] at h
        dsimp only at h
        cases hok : (workerProcessOneRequest w s pos (subPacketSize info) headerAnswer info.1).1
        · rw [hok] at h
          cases h
          refine ⟨by simp, fun hs => ?_⟩
          cases hs with
          | done => exact absurd rfl h0
          | next info' _ hinfo' hok' =>
            rw [hinfo] at hinfo'
            cases hinfo'
            rw [hok] at hok'
            cases hok'
        · rw [hok] at h
          obtain ⟨⟨status', t, handed'⟩, hloop, hr⟩ := Option.map_eq_some_iff.mp h
          cases hr
          rw [ih hloop]
          refine ⟨fun hs => .next info h0 hinfo hok hs, fun hs => ?_⟩
          cases hs with
          | done => exact absurd rfl h0
          | next info' _ hinfo' _ hrest =>
            rw [hinfo] at hinfo'
            cases hinfo'
            exact hrest

/-- When every request succeeds, the loop ends. -/
theorem RequestsSucceed.ends {w : Worker σ} {headerAnswer : ℕ} {s : Machine σ} {pos remaining : ℕ}
    (h : RequestsSucceed w headerAnswer s pos remaining) :
    ∃ fuel r, buildReplyLoop w headerAnswer fuel s pos remaining = some r := by
  induction h with
  | done s pos => exact ⟨1, _, rfl⟩
  | @next s pos remaining info h0 hinfo hok _ ih =>
    obtain ⟨fuel, r, hloop⟩ := ih
    refine ⟨fuel + 1, (r.1, r.2.1, (pos, subPacketSize info) :: r.2.2), ?_⟩
    rw [buildReplyLoop, if_neg h0, hinfo]
    simp only [hok, hloop, Bool.not_true, Bool.false_eq_true, if_false]
    rfl

/-- A loop that succeeds appends the handlers' frames to the message. -/
theorem buildReplyLoop_msg {w : Worker σ} {headerAnswer fuel : ℕ} {s s' : Machine σ}
    {pos remaining : ℕ} {handed : List (ℕ × ℕ)}
    (h : buildReplyLoop w headerAnswer fuel s pos remaining = some (true, s', handed)) :
    ∃ rs, s'.msg = s.msg ++ rs ∧ s'.replies = s.replies ++ rs := by
  induction fuel generalizing s pos remaining handed with
  | zero => cases h
  | succ fuel ih =>
    rw [buildReplyLoop] at h
    by_cases h0 : remaining = 0
    · rw [if_pos h0] at h
      cases h
      exact ⟨[], by simp, by simp⟩
    · rw [if_neg h0] at h
      split at h
      · cases h
      · next info _ =>
        dsimp only at h
        split at h
        · cases h
        · next hok =>
          obtain ⟨⟨status', t, handed'⟩, hloop, hr⟩ := Option.map_eq_some_iff.mp h
          cases hr
          obtain ⟨rs, hmsg, hrep⟩ := ih hloop
          obtain ⟨rs', hrep', hmsg'⟩ :=
            workerProcessOneRequest_msg w s pos (subPacketSize info) headerAnswer info.1
          refine ⟨rs' ++ rs, ?_, ?_⟩
          · rcases hmsg' with hmsg' | ⟨hfail, -⟩
            · rw [hmsg, hmsg', List.append_assoc]
            · simp [hfail] at hok
          · rw [hrep, hrep', List.append_assoc]

/-- Whatever happens, the frame in front of the message stays: the frame that may be reset
is behind it. -/
theorem buildReplyLoop_head_frame {w : Worker σ} {headerAnswer fuel : ℕ} {s s' : Machine σ}
    {pos remaining : ℕ} {status : Bool} {handed : List (ℕ × ℕ)} {front : Frame}
    (hh : 0 < headerAnswer) (hs : s.msg.head? = some front)
    (h : buildReplyLoop w headerAnswer fuel s pos remaining = some (status, s', handed)) :
    s'.msg.head? = some front := by
  induction fuel generalizing s pos remaining handed with
  | zero => cases h
  | succ fuel ih =>
    rw [buildReplyLoop] at h
    by_cases h0 : remaining = 0
    · rw [if_pos h0] at h
      cases h
      exact hs
    · rw [if_neg h0] at h
      split at h
      · cases h
        exact hs
      · next info _ =>
        have hone : (workerProcessOneRequest w s pos (subPacketSize info) headerAnswer
            info.1).2.msg.head? = some front := by
          obtain ⟨rs, -, hmsg⟩ :=
            workerProcessOneRequest_msg w s pos (subPacketSize info) headerAnswer info.1
          have hfront : (s.msg ++ rs).head? = some front := by
            rw [List.head?_append, hs]
            rfl
          rcases hmsg with hmsg | ⟨-, hmsg⟩
          · rw [hmsg, hfront]
          · rw [hmsg, List.head?_eq_getElem?, List.getElem?_set_ne (by omega),
              ← List.head?_eq_getElem?, hfront]
        dsimp only at h
        split at h
        · cases h
          exact hone
        · obtain ⟨⟨status', t, handed'⟩, hloop, hr⟩ := Option.map_eq_some_iff.mp h
          cases hr
          exact ih hone hloop

theorem routerBackendNormal_forwards (router : Router) (calls : BackendCalls) (identity : Frame)
    (replies : List Frame) :
    ∀ m ∈ (routerBackendNormal router calls (identity :: replies)).frontend,
      ∃ reply ∈ replies, m = [identity, reply] := by
  intro m hm
  rw [routerBackendNormal] at hm
  split at hm
  · next hlen =>
    obtain ⟨reply, rfl⟩ := List.length_eq_one_iff.mp (Nat.succ.inj hlen)
    split at hm
    · exact ⟨reply, by simp, List.mem_singleton.mp hm⟩
    · simp at hm
  · obtain ⟨reply, hr, rfl⟩ := List.mem_map.mp hm
    exact ⟨reply, hr, rfl⟩

/-- A normal answer is forwarded frame by frame to the identity behind its header. -/
theorem routerBackend_normal_forwards {router : Router} {calls : BackendCalls}
    {worker identity : Frame} {replies : List Frame} {outcome : Outcome}
    (h : routerBackend router calls worker (packetHeader .workerNormal :: identity :: replies) =
      some outcome) : ∀ m ∈ outcome.frontend, ∃ reply ∈ replies, m = [identity, reply] := by
  rw [routerBackend] at h
  obtain ⟨switched, hs, h⟩ := Option.bind_eq_some_iff.mp h
  have hout : outcome.frontend = switched.frontend := by
    split at h <;> cases h <;> rfl
  have hs' : routerBackendSwitch router calls worker (packetHeader .workerNormal)
      (identity :: replies) = some (routerBackendNormal router calls (identity :: replies)) := by
    rw [routerBackendSwitch, headerOf_packetHeader]
  rw [hs'] at hs
  cases hs
  rw [hout]
  exact routerBackendNormal_forwards router calls identity replies

theorem packetHeader_injective {h h' : RouterHeader} (he : packetHeader h = packetHeader h') :
    h = h' := by
  have := congrArg headerOf he
  simpa using this

/-- The answer once the request has been taken as far as the loop. -/
theorem workerProcessClientPacket_eq (w : Worker σ) (fuel : ℕ) (world : σ) (beyond : Memory)
    (identity packet : Frame) :
    workerProcessClientPacket w fuel world beyond identity packet =
      if !(requested w world beyond identity packet).1 then
        some (false, (requested w world beyond identity packet).2)
      else if !(pushed w world beyond identity packet).1 then
        some (false, ((requested w world beyond identity packet).2.inWorld w.pushHeader).2)
      else if !(opened w world beyond identity packet).1 then
        some (false, (opened w world beyond identity packet).2)
      else (buildReplyLoop w 1 fuel (opened w world beyond identity packet).2 0 packet.length).map
        fun r => (r.1, r.2.1) := by
  simp only [workerProcessClientPacket, workerBuildReply]
  change (if !(requested w world beyond identity packet).1 then _
    else if !(pushed w world beyond identity packet).1 then _
    else Option.map _ (if !(opened w world beyond identity packet).1 then _ else _)) = _
  split
  · rfl
  · split
    · rfl
    · split <;> rfl

theorem opened_msg (w : Worker σ) (world : σ) (beyond : Memory) (identity packet : Frame) :
    (opened w world beyond identity packet).2.msg = [packetHeader .workerNormal, identity] ∧
      (opened w world beyond identity packet).2.replies = [] :=
  workerGetOrCreateSessionObject_msg w _ _

/-- The answer of a request whose steps all succeed. -/
theorem answer_of_success {w : Worker σ} {fuel : ℕ} {world : σ} {beyond : Memory}
    {identity packet : Frame} {status : Bool} {s : Machine σ}
    (h : workerProcessClientPacket w fuel world beyond identity packet = some (status, s))
    (hok : AllStepsSucceed w world beyond identity packet) :
    s.msg = packetHeader .workerNormal :: identity :: s.replies := by
  obtain ⟨h1, h2, h3, h4⟩ := hok
  rw [workerProcessClientPacket_eq] at h
  simp only [h1, h2, h3, Bool.not_true, Bool.false_eq_true, if_false] at h
  obtain ⟨⟨status', t, handed⟩, hloop, hr⟩ := Option.map_eq_some_iff.mp h
  cases hr
  obtain rfl := (buildReplyLoop_status hloop).mpr h4
  obtain ⟨rs, hmsg, hrep⟩ := buildReplyLoop_msg hloop
  obtain ⟨ho, hr⟩ := opened_msg w world beyond identity packet
  rw [hmsg, hrep, ho, hr]
  rfl

/-- A request whose steps all succeed is answered. -/
theorem AllStepsSucceed.answered {w : Worker σ} {world : σ} {beyond : Memory}
    {identity packet : Frame} (h : AllStepsSucceed w world beyond identity packet) :
    ∃ fuel s, workerHandlePublicRequest w fuel world beyond [identity, packet] = some (some s) := by
  obtain ⟨h1, h2, h3, h4⟩ := h
  obtain ⟨fuel, r, hloop⟩ := h4.ends
  refine ⟨fuel, r.2.1, ?_⟩
  rw [workerHandlePublicRequest, workerProcessClientPacket_eq]
  simp only [h1, h2, h3, Bool.not_true, Bool.false_eq_true, if_false, hloop, Option.map_some]

/-- Without a failure-free run the answer has a single frame, or a normal header. -/
theorem answer_head {w : Worker σ} {fuel : ℕ} {world : σ} {beyond : Memory}
    {identity packet : Frame} {status : Bool} {s : Machine σ}
    (h : workerProcessClientPacket w fuel world beyond identity packet = some (status, s)) :
    s.msg = [identity] ∨ s.msg.head? = some (packetHeader .workerNormal) := by
  rw [workerProcessClientPacket_eq] at h
  split at h
  · cases h
    exact .inl rfl
  · split at h
    · cases h
      exact .inl rfl
    · have ho := (opened_msg w world beyond identity packet).1
      split at h
      · cases h
        exact .inr (by rw [ho]; rfl)
      · obtain ⟨⟨status', t, handed⟩, hloop, hr⟩ := Option.map_eq_some_iff.mp h
        cases hr
        exact .inr (buildReplyLoop_head_frame (by decide) (by rw [ho]; rfl) hloop)

/-- An answer, if there is one, is addressed as it should be exactly when no step fails. -/
theorem addressed_iff_succeed {w : Worker σ} {fuel : ℕ} {world : σ} {beyond : Memory}
    {identity packet : Frame} {s : Machine σ}
    (h : workerHandlePublicRequest w fuel world beyond [identity, packet] = some (some s)) :
    Addressed identity s.replies (¬ AllStepsSucceed w world beyond identity packet) s.msg ↔
      AllStepsSucceed w world beyond identity packet := by
  obtain ⟨⟨status, t⟩, hrun, hr⟩ := Option.map_eq_some_iff.mp h
  cases hr
  constructor
  · rintro ⟨⟨header, hmsg, hheader⟩, -⟩
    by_contra hfail
    obtain rfl := hheader.mpr hfail
    rcases answer_head hrun with hone | hnormal
    · rw [hmsg] at hone
      simp at hone
    · rw [hmsg] at hnormal
      exact absurd (packetHeader_injective (Option.some.inj hnormal)) (by decide)
  · intro hok
    have hmsg := answer_of_success hrun hok
    refine ⟨⟨.workerNormal, hmsg, ?_⟩, ?_⟩
    · simpa using hok
    · intro router calls worker outcome ho
      rw [hmsg] at ho
      exact routerBackend_normal_forwards ho

/-- A request is answered, with the answer addressed as it should be, exactly when no step
fails; and no answer of a request with a failing step is addressed so. -/
theorem answer_addressed_iff (w : Worker σ) (world : σ) (beyond : Memory)
    (identity packet : Frame) :
    ((∃ fuel s, workerHandlePublicRequest w fuel world beyond [identity, packet] =
        some (some s) ∧
      Addressed identity s.replies (¬ AllStepsSucceed w world beyond identity packet) s.msg) ↔
        AllStepsSucceed w world beyond identity packet) ∧
    ∀ fuel s, workerHandlePublicRequest w fuel world beyond [identity, packet] = some (some s) →
      (Addressed identity s.replies (¬ AllStepsSucceed w world beyond identity packet) s.msg ↔
        AllStepsSucceed w world beyond identity packet) := by
  refine ⟨⟨?_, fun hok => ?_⟩, fun fuel s h => addressed_iff_succeed h⟩
  · rintro ⟨fuel, s, hrun, haddressed⟩
    exact (addressed_iff_succeed hrun).mp haddressed
  · obtain ⟨fuel, s, hrun⟩ := hok.answered
    exact ⟨fuel, s, hrun, (addressed_iff_succeed hrun).mpr hok⟩

/-- A handler that replies with one frame. -/
def echoHandler (world : Unit) (m : Memory) (_ _ : ℕ) : HandlerResult Unit :=
  ⟨.ok, world, m, [[7]]⟩

/-- Two packets of twelve bytes each. -/
def twoPackets : Frame := (10 :: List.replicate 11 0) ++ 10 :: List.replicate 11 0

/-- Two packets of a crypted buffer are answered by two reply frames. -/
theorem answer_addressed_iff_two_packets :
    ∃ s, workerHandlePublicRequest (Worker.plain .zone fun _ => some echoHandler) 3 ()
        (fun _ => 0) [[0, 1, 2, 3, 4], twoPackets] = some (some s) ∧
      s.msg = [packetHeader .workerNormal, [0, 1, 2, 3, 4], [7], [7]] ∧
      Addressed [0, 1, 2, 3, 4] s.replies
        (¬ AllStepsSucceed (Worker.plain .zone fun _ => some echoHandler) () (fun _ => 0)
          [0, 1, 2, 3, 4] twoPackets) s.msg :=
  ⟨_, rfl, rfl, ((answer_addressed_iff _ () (fun _ => 0) _ twoPackets).2 3 _ rfl).mpr
    ⟨rfl, rfl, rfl, .next (true, 10) (by decide) rfl rfl
      (.next (true, 10) (by decide +kernel) rfl rfl (.of_eq_zero (by decide +kernel)))⟩⟩

/-- No handler is found for the packet: the header stays normal and the identity is lost. -/
theorem answer_error_overwrites_identity :
    ∃ s, workerHandlePublicRequest (Worker.plain .social fun _ => none) 1 () (fun _ => 0)
        [[0, 1, 2, 3, 4], [0, 0, 0, 0, 0, 0]] = some (some s) ∧
      s.msg = [packetHeader .workerNormal, packetHeader .workerError] ∧
      ∀ failed, ¬ Addressed [0, 1, 2, 3, 4] s.replies failed s.msg := by
  refine ⟨_, rfl, rfl, fun failed h => ?_⟩
  obtain ⟨header, hmsg, -⟩ := h.shape
  exact absurd (List.cons.inj (List.cons.inj hmsg).2).1 (by decide)

end R1Emu.Server
