import R1Emu.Server.Cluster

/-!
# Requests of one client

The router keeps the requests of a client at one worker for as long as the worker's client
slot names that client. An overload dispatch overwrites the slot and a worker's first reply
clears it, so the ordering holds on the runs that never dispatch a request of a client
whose slot was lost while it still had unanswered requests.
-/
namespace R1Emu.Server
open R1Emu.Lib.Transition

/-- All unanswered requests of a client were given to one worker. -/
def Ordered (s : Cluster) : Prop :=
  ∀ c v w, c ∈ s.pending v → c ∈ s.pending w → v = w

/-- A client's message finds the client still bound if it has unanswered requests. -/
def FindsClientBound (s : Cluster) : Action → Prop
  | .worker .. => True
  | .client calls msg => ∀ c, requestOf calls msg = some c →
    (∃ w, c ∈ s.pending w) → ∃ w, s.curClient w = some c

structure Bound (s : Cluster) : Prop where
  ordered : Ordered s
  unique : ∀ c v w, s.curClient v = some c → s.curClient w = some c → v = w
  host : ∀ c v w, s.curClient v = some c → c ∈ s.pending w → w = v

variable {d : Deployment} {s s' : Cluster}

theorem Bound.worker_step {w discarded : ℕ} {msg : Message} (hb : Bound s)
    (h : WorkerEffect d s w msg discarded s') : Bound s' := by
  have hpending : ∀ c v, c ∈ s'.pending v → c ∈ s.pending v := by
    intro c v hc
    rw [h.pending] at hc
    exact (s.answer_pending_sublist w discarded v).subset hc
  have hcur : ∀ c v, s'.curClient v = some c → s.curClient v = some c := by
    intro c v hc
    rcases h.outcome with ⟨-, -, -, he⟩ | ⟨-, -, he⟩
    · rw [he, Function.update_apply] at hc
      split at hc
      · cases hc
      · exact hc
    · exact he ▸ hc
  constructor
  · exact fun c v u hv hu => hb.ordered c v u (hpending c v hv) (hpending c u hu)
  · exact fun c v u hv hu => hb.unique c v u (hcur c v hv) (hcur c u hu)
  · exact fun c v u hv hu => hb.host c v u (hcur c v hv) (hpending c u hu)

/-- A request of `c` goes to `w`, where every other request of `c` already is. -/
theorem Bound.given {c : Frame} {w : ℕ} (hb : Bound s)
    (hp : ∀ b v, b ∈ s'.pending v → b ∈ s.pending v ∨ b = c ∧ v = w)
    (hat : ∀ v, c ∈ s.pending v → v = w)
    (hcur : ∀ b v, s'.curClient v = some b → b = c ∧ v = w ∨ b ≠ c ∧ s.curClient v = some b) :
    Bound s' := by
  constructor
  · intro b v u hv hu
    rcases hp b v hv with hv | ⟨rfl, rfl⟩ <;> rcases hp b u hu with hu | ⟨he, rfl⟩
    · exact hb.ordered b v u hv hu
    · exact hat v (he ▸ hv)
    · exact (hat u hu).symm
    · rfl
  · intro b v u hv hu
    rcases hcur b v hv with ⟨rfl, rfl⟩ | ⟨hne, hv⟩ <;> rcases hcur b u hu with ⟨he, rfl⟩ | ⟨hne', hu⟩
    · rfl
    · exact absurd rfl hne'
    · exact absurd he hne
    · exact hb.unique b v u hv hu
  · intro b v u hv hu
    rcases hcur b v hv with ⟨rfl, rfl⟩ | ⟨hne, hv⟩ <;> rcases hp b u hu with hu | ⟨he, rfl⟩
    · exact hat u hu
    · rfl
    · exact hb.host b v u hv hu
    · exact absurd he hne

theorem Bound.client_step {calls : FrontendCalls} {msg : Message} (hb : Bound s)
    (hok : FindsClientBound s (.client calls msg)) (h : ClientEffect s calls msg s') : Bound s' := by
  cases h with
  | ignored hrouter hi hp =>
    have hcur : s'.curClient = s.curClient := by
      funext i
      rw [Cluster.curClient, hrouter]
      rfl
    constructor
    · simpa only [Ordered, hp] using hb.ordered
    · simpa only [hcur] using hb.unique
    · simpa only [hcur, hp] using hb.host
  | given c w hc hw hcount hid hq hchoice =>
    have hp : ∀ b v, b ∈ s'.pending v → b ∈ s.pending v ∨ b = c ∧ v = w := by
      intro b v hv
      rcases hq with ⟨-, he⟩ | ⟨-, -, he⟩
      · rwa [he, Cluster.mem_give_pending] at hv
      · exact .inl (he ▸ hv)
    rcases hchoice with ⟨hsticky, -, hcur⟩ | ⟨hfree, hcur, -⟩
    · refine hb.given hp (fun v hv => hb.host c w v hsticky hv) ?_
      intro b v hv
      rw [hcur] at hv
      by_cases he : b = c
      · subst b
        exact .inl ⟨rfl, hb.unique c v w hv hsticky⟩
      · exact .inr ⟨he, hv⟩
    · refine hb.given hp (fun v hv => ?_) ?_
      · obtain ⟨u, hu⟩ := hok c hc ⟨v, hv⟩
        exact absurd hu (hfree u)
      · intro b v hv
        rw [hcur, Function.update_apply] at hv
        split at hv
        · next he =>
          cases hv
          exact .inl ⟨rfl, he⟩
        · refine .inr ⟨?_, hv⟩
          rintro rfl
          exact hfree v hv

theorem bound_start : Bound d.start := by
  constructor <;> simp [Ordered, Deployment.start, Cluster.curClient, routerInit]

theorem bound_inductive (d : Deployment) :
    Inductive d.system FindsClientBound (fun s => Registry d s ∧ Bound s) := by
  refine (registry_inductive _).and ?_ ?_
  · intro s hs
    rw [show s = d.start from hs]
    exact bound_start
  · intro s a s' hr hb hok h
    cases a with
    | worker w calls msg discarded => exact hb.worker_step (worker_effect hr h)
    | client calls msg => exact hb.client_step hok (client_effect hr h)

/-- Per-client ordering over every interleaving in which a client with unanswered requests
is still bound whenever its next message is handled. -/
theorem client_requests_at_one_worker (d : Deployment) {s : Cluster}
    (hs : ReachableUnder d.system FindsClientBound s) : Ordered s :=
  ((bound_inductive d).reachable hs).2.ordered

/-- The client's second request joins its first at worker 0. -/
theorem client_requests_at_one_worker_sticky :
    ∃ s, (Deployment.counted 2 (by decide)).system.run (Deployment.counted 2 (by decide)).start
        [Deployment.announce 0, Deployment.announce 1, Deployment.request [1],
          Deployment.request [1]] = some s ∧ s.pending 0 = [[1], [1]] ∧ Ordered s := by
  refine ⟨_, rfl, rfl, client_requests_at_one_worker (Deployment.counted 2 (by decide))
    (ReachableUnder.run (.init rfl) [Deployment.announce 0, Deployment.announce 1,
      Deployment.request [1], Deployment.request [1]] ?_ rfl)⟩
  refine ⟨trivial, fun s hs => ?_⟩
  cases hs
  refine ⟨trivial, fun s hs => ?_⟩
  cases hs
  refine ⟨?_, fun s hs => ?_⟩
  · rintro c - ⟨w, hw⟩
    exact absurd hw List.not_mem_nil
  · cases hs
    refine ⟨?_, fun _ _ => trivial⟩
    rintro c hc -
    cases hc
    exact ⟨0, rfl⟩

/-- Worker 0 treats the first client when an overload dispatch gives its slot to a third one.
Worker 1 becomes ready, and the first client's next request goes to it. -/
theorem client_requests_at_two_workers :
    ∃ s, Reachable (Deployment.counted 2 (by decide)).system s ∧
      s.inbox 0 = [[1], [3]] ∧ s.inbox 1 = [[1]] ∧ ¬ Ordered s := by
  refine ⟨_, Reachable.run (.init rfl) [Deployment.announce 0, Deployment.announce 1,
    Deployment.request [1], Deployment.request [2], Deployment.request [3],
    Deployment.reply 1 [2] 0, Deployment.request [1]] rfl, rfl, rfl, fun h => ?_⟩
  exact absurd (h [1] 0 1 (List.mem_cons_self ..) (List.mem_cons_self ..)) (by decide)

end R1Emu.Server
