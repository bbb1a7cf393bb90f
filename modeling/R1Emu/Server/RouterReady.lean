import R1Emu.Server.Cluster

/-!
# The ready workers

Each idle worker should sit in the ready list exactly once. The backend handler appends the
sender of every message except an error, without asking whether further requests were
queued at it, so the list is accurate on the runs where every answer is the answer to the
worker's only request and is not an error.
-/
namespace R1Emu.Server
open R1Emu.Lib.Transition

/-- The ready list holds the idle registered workers, once each, and an idle worker is bound
to no client. -/
structure Accurate (s : Cluster) : Prop where
  nodup : s.ready.Nodup
  mem_ready : ∀ w, w ∈ s.ready ↔ s.registered w ∧ s.pending w = []
  unbound : ∀ w, s.pending w = [] → s.curClient w = none

/-- A worker that answers has one unanswered request and does not answer with an error. -/
def AnswersAlone (s : Cluster) : Action → Prop
  | .worker w _ msg _ => s.pending w ≠ [] →
    messageHeader msg ≠ some .workerError ∧ (s.pending w).length = 1
  | .client .. => True

/-- After a worker's message, the worker is available and no client is bound to it. -/
def Available (s : Cluster) : Action → Prop
  | .worker w .. => w ∈ s.ready ∧ s.curClient w = none
  | .client .. => True

variable {d : Deployment} {s s' : Cluster}

theorem Accurate.ready_idle (h : Accurate s) {w : ℕ} (hw : w ∈ s.ready) : s.pending w = [] :=
  ((h.mem_ready w).mp hw).2

/-- A message that answers nothing is the first message of its sender. -/
theorem Registry.sends_first (hr : Registry d s) {w : ℕ} {msg : Message} (h : d.Sends s w msg)
    (hp : s.pending w = []) : ¬ s.registered w ∧ messageHeader msg = some .workerReady := by
  rcases h.2.1 with hi | hf
  · have hsub := hr.queued w
    rw [hp, List.sublist_nil] at hsub
    exact absurd hsub hi
  · exact hf

theorem Registry.answer_alone (hr : Registry d s) {w : ℕ} {msg : Message} (discarded : ℕ)
    (h : d.Sends s w msg) (hone : s.pending w ≠ [] → (s.pending w).length = 1) :
    (s.answer w discarded).pending w = [] := by
  by_cases hp : s.pending w = []
  · exact List.sublist_nil.mp (hp ▸ s.answer_pending_sublist w discarded w)
  · have hi : s.inbox w ≠ [] := by
      rcases h.2.1 with hi | hf
      · exact hi
      · exact absurd (hr.pending w hp) hf.1
    obtain ⟨c, queued, hi⟩ := List.exists_cons_of_ne_nil hi
    obtain ⟨b, hb⟩ := List.length_eq_one_iff.mp (hone hp)
    have hc : c ∈ s.pending w := (hr.queued w).subset (hi ▸ List.mem_cons_self ..)
    rw [hb, List.mem_singleton] at hc
    subst c
    simp [Cluster.answer, hi, hb]

theorem WorkerEffect.registered_iff {w discarded : ℕ} {msg : Message}
    (h : WorkerEffect d s w msg discarded s') (i : ℕ) :
    s'.registered i ↔ s.registered i ∨ i = w := by
  constructor
  · intro hi
    rcases h.identity i with he | ⟨rfl, -⟩
    · exact .inl (by rwa [Cluster.registered, he] at hi)
    · exact .inr rfl
  · rintro (hi | rfl)
    · rcases h.identity i with he | ⟨rfl, -⟩
      · rwa [Cluster.registered, he]
      · exact h.registered
    · exact h.registered

theorem Accurate.worker_step {w discarded : ℕ} {msg : Message} (ha : Accurate s)
    (hr : Registry d s) (hs : d.Sends s w msg)
    (hok : s.pending w ≠ [] → messageHeader msg ≠ some .workerError ∧ (s.pending w).length = 1)
    (h : WorkerEffect d s w msg discarded s') (hrun : s'.running = true) :
    Accurate s' ∧ w ∈ s'.ready ∧ s'.curClient w = none := by
  have hnotin : w ∉ s.ready := by
    intro hw
    have hidle := (ha.mem_ready w).mp hw
    exact (hr.sends_first hs hidle.2).1 hidle.1
  have hne : messageHeader msg ≠ some .workerError := by
    by_cases hp : s.pending w = []
    · rw [(hr.sends_first hs hp).2]
      decide
    · exact (hok hp).1
  have hempty : s'.pending w = [] := by
    rw [h.pending]
    exact hr.answer_alone discarded hs fun hp => (hok hp).2
  have hother : ∀ v, v ≠ w → s'.pending v = s.pending v := by
    intro v hv
    rw [h.pending]
    exact s.answer_pending_of_ne discarded hv
  rcases h.outcome with ⟨-, -, hready, hcur⟩ | ⟨he | he, -, -⟩
  · refine ⟨⟨?_, ?_, ?_⟩, ?_, ?_⟩
    · rw [hready]
      refine List.nodup_append.mpr ⟨ha.nodup, by simp, fun v hv u hu he => hnotin ?_⟩
      rwa [← List.mem_singleton.mp hu, ← he]
    · intro v
      rw [hready, List.mem_append, List.mem_singleton, h.registered_iff]
      by_cases hv : v = w
      · simp [hv, hempty]
      · simpa [hv, hother v hv] using ha.mem_ready v
    · intro v hp
      rw [hcur, Function.update_apply]
      split
      · rfl
      · next hv => exact ha.unbound v (hother v hv ▸ hp)
    · simp [hready]
    · simp [hcur]
  · exact absurd he hne
  · rw [hrun] at he
    cases he

theorem Accurate.client_step {calls : FrontendCalls} {msg : Message} (ha : Accurate s)
    (h : ClientEffect s calls msg s') (hrun : s'.running = true) : Accurate s' := by
  cases h with
  | ignored hrouter hi hp =>
    constructor
    · simpa only [Cluster.ready, hrouter] using ha.nodup
    · simpa only [Cluster.ready, Cluster.registered, hrouter, hp] using ha.mem_ready
    · simpa only [Cluster.curClient, hrouter, hp] using ha.unbound
  | given c w hc hw hcount hid hq hchoice =>
    have hp : ∀ v, s'.pending v = if v = w then s.pending w ++ [c] else s.pending v := by
      rcases hq with ⟨-, he⟩ | ⟨he, -⟩
      · exact fun v => by rw [he, Cluster.give_pending]
      · rw [hrun] at he
        cases he
    have hreg : ∀ v, s'.registered v ↔ s.registered v := fun v => by
      rw [Cluster.registered, hid v, Cluster.registered]
    have hmem : ∀ v, (s'.registered v ∧ s'.pending v = []) ↔ v ∈ s.ready ∧ v ≠ w := by
      intro v
      rw [hreg, hp, ha.mem_ready]
      by_cases hv : v = w <;> simp [hv]
    rcases hchoice with ⟨hsticky, hready, hcur⟩ | ⟨-, hcur, hready⟩
    · have hnotin : w ∉ s.ready := by
        intro hw
        rw [ha.unbound w (ha.ready_idle hw)] at hsticky
        cases hsticky
      refine ⟨hready ▸ ha.nodup, fun v => ?_, fun v hv => ?_⟩
      · rw [hmem, hready]
        constructor
        · exact fun h => ⟨h, fun he => hnotin (he ▸ h)⟩
        · exact fun h => h.1
      · rw [hp] at hv
        split at hv
        · simp at hv
        · exact hcur ▸ ha.unbound v hv
    · refine ⟨?_, fun v => ?_, fun v hv => ?_⟩
      · rcases hready with he | ⟨-, he⟩
        · exact (he ▸ ha.nodup).of_cons
        · simp [he]
      · rw [hmem]
        rcases hready with he | ⟨he, he'⟩
        · have hnodup := he ▸ ha.nodup
          rw [he, List.mem_cons]
          constructor
          · intro h
            exact ⟨.inr h, fun hvw => (List.nodup_cons.mp hnodup).1 (hvw ▸ h)⟩
          · rintro ⟨rfl | h, hne⟩
            · exact absurd rfl hne
            · exact h
        · simp [he, he']
      · rw [hp] at hv
        split at hv
        · simp at hv
        · next hne => simpa [hcur, Function.update_apply, hne] using ha.unbound v hv

theorem accurate_start : Accurate d.start := by
  constructor <;> simp [Deployment.start, routerInit, Cluster.ready, Cluster.registered,
    Cluster.curClient]

theorem Deployment.step_running {a : Action} (h : d.step s a = some s') : s.running = true := by
  cases a <;>
  · rw [Deployment.step] at h
    split at h
    · next hg => exact hg.1
    · cases h

theorem accurate_inductive (d : Deployment) :
    Inductive d.system AnswersAlone
      (fun s => Registry d s ∧ (s.running = true → Accurate s)) := by
  refine (registry_inductive _).and ?_ ?_
  · intro s hs _
    rw [show s = d.start from hs]
    exact accurate_start
  · intro s a s' hr ha hok h hrun
    have ha := ha (d.step_running h)
    cases a with
    | worker w calls msg discarded =>
      exact (ha.worker_step hr (d.step_sends h) hok (worker_effect hr h) hrun).1
    | client calls msg => exact ha.client_step (client_effect hr h) hrun

/-- The condition is exact: the first answer that breaks it leaves the sender unavailable or
the ready list inaccurate. -/
theorem Accurate.answersAlone_iff {a : Action} (ha : Accurate s) (hr : Registry d s)
    (h : d.step s a = some s') (hrun : s'.running = true) :
    AnswersAlone s a ↔ Accurate s' ∧ Available s' a := by
  cases a with
  | client calls msg =>
    exact ⟨fun _ => ⟨ha.client_step (client_effect hr h) hrun, trivial⟩, fun _ => trivial⟩
  | worker w calls msg discarded =>
    have heff := worker_effect hr h
    constructor
    · exact fun hok => ha.worker_step hr (d.step_sends h) hok heff hrun
    · rintro ⟨ha', hready, -⟩ hp
      have hempty := ha'.ready_idle hready
      have hbusy : w ∉ s.ready := fun hw => hp (ha.ready_idle hw)
      refine ⟨fun he => ?_, ?_⟩
      · rcases heff.outcome with ⟨hne, -⟩ | ⟨-, he', -⟩
        · exact hne he
        · exact hbusy (he' ▸ hready)
      · rw [heff.pending, Cluster.answer] at hempty
        split at hempty
        · exact absurd hempty hp
        · next c queued hi =>
          simp only [Function.update_self] at hempty
          have hc : c ∈ s.pending w := (hr.queued w).subset (hi ▸ List.mem_cons_self ..)
          have hl := List.length_erase_of_mem hc
          have hpos := List.length_pos_of_mem hc
          rw [hempty, List.length_nil] at hl
          omega

/-- Ready-worker accuracy over every interleaving in which each answer is not an error and
answers the worker's only request, and exactly over these. -/
theorem ready_workers_accurate (d : Deployment) {s : Cluster}
    (hs : ReachableUnder d.system AnswersAlone s) (hrun : s.running = true) :
    Accurate s ∧ ∀ a s', d.step s a = some s' → s'.running = true →
      (AnswersAlone s a ↔ Accurate s' ∧ Available s' a) := by
  have hinv := (accurate_inductive d).reachable hs
  exact ⟨hinv.2 hrun, fun a s' h hrun' => (hinv.2 hrun).answersAlone_iff hinv.1 h hrun'⟩

/-- A worker that answered its only request is ready again, behind the other one. -/
theorem ready_workers_accurate_reply :
    ∃ s, (Deployment.counted 2 (by decide)).system.run (Deployment.counted 2 (by decide)).start
        [Deployment.announce 0, Deployment.announce 1, Deployment.request [1],
          Deployment.reply 0 [1] 0] = some s ∧ s.ready = [1, 0] ∧ Accurate s := by
  refine ⟨_, rfl, rfl, (ready_workers_accurate (Deployment.counted 2 (by decide))
    (ReachableUnder.run (.init rfl) [Deployment.announce 0, Deployment.announce 1,
      Deployment.request [1], Deployment.reply 0 [1] 0] ?_ rfl) rfl).1⟩
  refine ⟨fun h => absurd rfl h, fun s hs => ?_⟩
  cases hs
  refine ⟨fun h => absurd rfl h, fun s hs => ?_⟩
  cases hs
  refine ⟨trivial, fun s hs => ?_⟩
  cases hs
  exact ⟨fun _ => ⟨by decide, rfl⟩, fun _ _ => trivial⟩

/-- The only worker answers with an error. It has no request left, yet it is not ready and
stays bound to its client. -/
theorem ready_workers_inaccurate_error :
    ∃ s, Reachable (Deployment.counted 1 (by decide)).system s ∧ s.running = true ∧
      s.registered 0 ∧ s.pending 0 = [] ∧ s.curClient 0 = some [1] ∧ ¬ Accurate s := by
  refine ⟨_, Reachable.run (.init rfl) [Deployment.announce 0, Deployment.request [1],
    .worker 0 ⟨true, true, true⟩ [packetHeader .workerError, [1]] 0] rfl, rfl, by decide, rfl,
    rfl, fun h => ?_⟩
  have := h.unbound 0 rfl
  exact absurd this (by decide)

end R1Emu.Server
