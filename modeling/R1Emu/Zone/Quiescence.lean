import R1Emu.Zone.Movement

/-!
# The links of clients at rest

When nothing is under way, two clients that have entered the map are linked exactly when the
positions they have reported last are within the view range, as long as the event server has
looked at the right positions: the query of an event is made around the position in the event,
which no handler sets, and the positions in Redis may be older than those reported.
-/
namespace R1Emu.Zone
open R1Emu.Lib R1Emu.Lib.Stage R1Emu.Lib.Transition

variable {Key : Type}

/-- The position in the session of a client, saved or not. -/
def ZoneMap.current (s : ZoneMap Key) (key : Key) : Position := (s.unsaved key).getD (s.redis key)

/-- No request or event of the client is under way. -/
def Idle (s : ZoneMap Key) (key : Key) : Prop := s.pending key = [] ∧ s.events key = []

def Within (pos1 pos2 : Position) : Prop :=
  mathIsWithin2DManhattanDistance pos1 pos2 commanderViewRange = true

theorem within_comm (pos1 pos2 : Position) : Within pos1 pos2 ↔ Within pos2 pos1 := by
  rw [Within, mathIsWithin2DManhattanDistance_comm, Within]

/-- The position that is reported after the requests. -/
def lastReported (position : Position) (requests : List Request) : Position :=
  requests.foldl (fun position request => request.reported.getD position) position

theorem lastReported_cons (position : Position) (request : Request) (requests : List Request) :
    lastReported position (request :: requests) =
      lastReported (request.reported.getD position) requests := rfl

theorem lastReported_concat (position : Position) (requests : List Request) (request : Request) :
    lastReported position (requests ++ [request]) =
      request.reported.getD (lastReported position requests) := by
  rw [lastReported, List.foldl_append]
  rfl

/-- A request that reports a position makes the earlier ones irrelevant. -/
theorem lastReported_congr {requests : List Request} (position position' : Position)
    (h : ∃ request ∈ requests, request.reported ≠ none) :
    lastReported position requests = lastReported position' requests := by
  induction requests generalizing position position' with
  | nil =>
    obtain ⟨request, hmem, -⟩ := h
    exact absurd hmem List.not_mem_nil
  | cons request requests ih =>
    rw [lastReported_cons, lastReported_cons]
    rcases hreported : request.reported with _ | reported
    · obtain ⟨request', hmem, hne⟩ := h
      rcases List.mem_cons.mp hmem with rfl | hmem
      · exact absurd hreported hne
      · exact ih _ _ ⟨request', hmem, hne⟩
    · rfl

/-- A client that stops reports the position of its session, unless it is about to report
another one. -/
def StopAgrees (session : Position) : List Request → Prop
  | .moveStop position :: rest =>
    (∀ request ∈ rest, request.reported = none) → position = session
  | _ => True

/-- The last event of a client is processed, after which it is at rest. For each other client at
rest, the query says the same around the position in the event as around the client's, and the
same for that client's position in Redis as for the one in its session. -/
def QueryAgrees (s : ZoneMap Key) (key : Key) : List MoveEvent → Prop
  | [event] => s.pending key = [] → s.entered key = true →
      ∀ d, d ≠ key → s.entered d = true → Idle s d →
        (Within (s.redis d) event.newPosition ↔ Within (s.redis d) (s.current key)) ∧
        (Within (s.redis d) (s.current key) ↔ Within (s.current d) (s.current key))
  | _ => True

/-- The steps at which the copies of a position do not go wrong. -/
def CopiesAgree (s : ZoneMap Key) : MapAction Key → Prop
  | .handle key _ => StopAgrees (s.redis key) (s.pending key)
  | .process key _ _ => QueryAgrees s key (s.events key)
  | _ => True

variable [DecidableEq Key]

structure Facts (s : ZoneMap Key) : Prop where
  linked : Linked s.eventServer.clientsGraph
  types : ∀ c, ∀ event ∈ s.events c, event.type ≠ .leave
  fresh : ∀ c, c ∉ s.connected →
    s.pending c = [] ∧ s.unsaved c = none ∧ s.events c = [] ∧ s.entered c = false
  reported : ∀ c, s.reported c = lastReported (s.current c) (s.pending c)
  near : ∀ c d, c ≠ d → s.entered c = true → s.entered d = true → Idle s c → Idle s d →
    (0 < s.eventServer.clientsGraph.arcCount c d ↔ Within (s.current c) (s.current d))

theorem facts_start : Facts (.start Key) where
  linked := linked_graphNew
  types _ _ h := absurd h List.not_mem_nil
  fresh _ _ := ⟨rfl, rfl, rfl, rfl⟩
  reported _ := rfl
  near _ _ _ h := absurd h Bool.false_ne_true

theorem Facts.connect {s s' : ZoneMap Key} (h : Facts s) {key : Key} {position : Position}
    (hstep : mapStep s (.connect key position) = some s') : Facts s' := by
  rw [mapStep] at hstep
  split at hstep
  · cases hstep
  next hnew =>
  cases hstep
  obtain ⟨hpending, hunsaved, hevents, hentered⟩ := h.fresh key hnew
  have hcurrent {c : Key} (hc : c ≠ key) : ZoneMap.current { s with
      connected := key :: s.connected
      redis := Function.update s.redis key position
      reported := Function.update s.reported key position } c = s.current c := by
    simp only [ZoneMap.current, Function.update_of_ne hc]
  refine ⟨h.linked, h.types, fun c hc => h.fresh c fun hmem => hc (List.mem_cons_of_mem _ hmem),
    fun c => ?_, fun c d hne hc hd hidle hidle' => ?_⟩
  · by_cases hc : c = key
    · subst hc
      simp [ZoneMap.current, hpending, hunsaved, lastReported]
    · rw [hcurrent hc]
      simp only [Function.update_of_ne hc]
      exact h.reported c
  · have hckey : c ≠ key := by
      rintro rfl
      exact absurd (hentered.symm.trans hc) Bool.false_ne_true
    have hdkey : d ≠ key := by
      rintro rfl
      exact absurd (hentered.symm.trans hd) Bool.false_ne_true
    rw [hcurrent hckey, hcurrent hdkey]
    exact h.near c d hne hc hd hidle hidle'

/-- A step of one client that leaves the graph alone. -/
structure SameBut (key : Key) (s s' : ZoneMap Key) : Prop where
  mem : key ∈ s.connected
  connected : s'.connected = s.connected
  graph : s'.eventServer = s.eventServer
  pending : ∀ c, c ≠ key → s'.pending c = s.pending c
  unsaved : ∀ c, c ≠ key → s'.unsaved c = s.unsaved c
  redis : ∀ c, c ≠ key → s'.redis c = s.redis c
  events : ∀ c, c ≠ key → s'.events c = s.events c
  entered : ∀ c, c ≠ key → s'.entered c = s.entered c
  reported : ∀ c, c ≠ key → s'.reported c = s.reported c

omit [DecidableEq Key] in
theorem SameBut.current {key c : Key} {s s' : ZoneMap Key} (h : SameBut key s s') (hc : c ≠ key) :
    s'.current c = s.current c := by
  rw [ZoneMap.current, h.unsaved c hc, h.redis c hc, ZoneMap.current]

omit [DecidableEq Key] in
theorem SameBut.idle {key c : Key} {s s' : ZoneMap Key} (h : SameBut key s s') (hc : c ≠ key) :
    Idle s' c ↔ Idle s c := by
  rw [Idle, h.pending c hc, h.events c hc, Idle]

/-- A client that is not at rest after the step may have changed everything it has; one that is
has been at rest before, with the same position. -/
theorem Facts.sameBut {key : Key} {s s' : ZoneMap Key} (h : Facts s) (hsame : SameBut key s s')
    (htypes : ∀ event ∈ s'.events key, event.type ≠ .leave)
    (hreported : s'.reported key = lastReported (s'.current key) (s'.pending key))
    (hidle : Idle s' key → Idle s key ∧ s'.entered key = s.entered key ∧
      s'.current key = s.current key) : Facts s' where
  linked := by
    rw [hsame.graph]
    exact h.linked
  types c := by
    by_cases hc : c = key
    · rw [hc]
      exact htypes
    · rw [hsame.events c hc]
      exact h.types c
  fresh c hc := by
    rw [hsame.connected] at hc
    have hne : c ≠ key := fun heq => hc (heq ▸ hsame.mem)
    rw [hsame.pending c hne, hsame.unsaved c hne, hsame.events c hne, hsame.entered c hne]
    exact h.fresh c hc
  reported c := by
    by_cases hc : c = key
    · rw [hc]
      exact hreported
    · rw [hsame.reported c hc, hsame.current hc, hsame.pending c hc]
      exact h.reported c
  near c d hne hc hd hidlec hidled := by
    have hbefore (e : Key) (he : s'.entered e = true) (hidlee : Idle s' e) :
        Idle s e ∧ s.entered e = true ∧ s'.current e = s.current e := by
      by_cases hkey : e = key
      · subst hkey
        obtain ⟨hrest, hentered, hcurrent⟩ := hidle hidlee
        exact ⟨hrest, hentered ▸ he, hcurrent⟩
      · exact ⟨(hsame.idle hkey).mp hidlee, hsame.entered e hkey ▸ he, hsame.current hkey⟩
    obtain ⟨hrestc, hc', hcurrentc⟩ := hbefore c hc hidlec
    obtain ⟨hrestd, hd', hcurrentd⟩ := hbefore d hd hidled
    rw [hsame.graph, hcurrentc, hcurrentd]
    exact h.near c d hne hc' hd' hrestc hrestd

theorem Facts.send {s s' : ZoneMap Key} (h : Facts s) {key : Key} {request : Request}
    (hstep : mapStep s (.send key request) = some s') : Facts s' := by
  rw [mapStep] at hstep
  split at hstep
  · next hmem =>
    cases hstep
    have hpending : Function.update s.pending key (s.pending key ++ [request]) key ≠ [] := by
      simp
    refine h.sameBut ⟨hmem, rfl, rfl, fun c hc => Function.update_of_ne hc _ _, fun _ _ => rfl,
      fun _ _ => rfl, fun _ _ => rfl, fun _ _ => rfl, fun c hc => Function.update_of_ne hc _ _⟩
      (h.types key) ?_ fun hidle => absurd hidle.1 hpending
    simp only [Function.update_self]
    rw [lastReported_concat, h.reported key]
    rfl
  · cases hstep

theorem Facts.save {s s' : ZoneMap Key} (h : Facts s) {key : Key} {succeeds : Bool}
    (hstep : mapSave s key succeeds = some s') (hfailed : s'.failed = false) : Facts s' := by
  rw [mapSave] at hstep
  rcases hunsaved : s.unsaved key with _ | position
  · rw [hunsaved] at hstep
    cases hstep
  · rw [hunsaved] at hstep
    cases succeeds with
    | false =>
      cases hstep
      exact absurd hfailed.symm Bool.false_ne_true
    | true =>
      cases hstep
      have hmem : key ∈ s.connected := by
        by_contra hnot
        exact absurd (hunsaved.symm.trans (h.fresh key hnot).2.1) (by simp)
      have hcurrent : ZoneMap.current { s with
          unsaved := Function.update s.unsaved key none
          redis := Function.update s.redis key position } key = s.current key := by
        simp [ZoneMap.current, hunsaved]
      refine h.sameBut ⟨hmem, rfl, rfl, fun _ _ => rfl, fun c hc => Function.update_of_ne hc _ _,
        fun c hc => Function.update_of_ne hc _ _, fun _ _ => rfl, fun _ _ => rfl, fun _ _ => rfl⟩
        (h.types key) ?_ fun hidle => ⟨hidle, rfl, hcurrent⟩
      exact (h.reported key).trans (by rw [← hcurrent])

/-- The session after a request, saved or not. -/
theorem reported_or_session (request : Request) (session : Position) {rest : List Request}
    (hstop : StopAgrees session (request :: rest)) :
    lastReported ((request.updateSession session).getD session) rest =
      lastReported session (request :: rest) := by
  rw [lastReported_cons]
  cases request with
  | gameReady => rfl
  | keyboardMove position => rfl
  | jump => rfl
  | moveStop position =>
    by_cases hlater : ∃ request ∈ rest, request.reported ≠ none
    · exact lastReported_congr _ _ hlater
    · simp only [ne_eq, not_exists, not_and, not_not] at hlater
      rw [hstop hlater]
      rfl

theorem Facts.handle {s s' : ZoneMap Key} (h : Facts s) {key : Key} {succeeds : Bool}
    (hok : CopiesAgree s (.handle key succeeds)) (hstep : mapHandle s key succeeds = some s')
    (hfailed : s'.failed = false) : Facts s' := by
  rw [mapHandle] at hstep
  rcases hpending : s.pending key with _ | ⟨request, rest⟩
  · rw [hpending] at hstep
    cases hstep
  have hstop : StopAgrees (s.redis key) (request :: rest) := hpending ▸ hok
  rcases hunsaved : s.unsaved key with _ | position
  · rw [hpending, hunsaved] at hstep
    dsimp only at hstep
    split at hstep
    · next hmem =>
      cases succeeds with
      | false =>
        cases hstep
        exact absurd hfailed.symm Bool.false_ne_true
      | true =>
        cases hstep
        have hevents : Function.update s.events key (s.events key ++ [request.event]) key ≠ [] := by
          simp
        refine h.sameBut ⟨hmem, rfl, rfl, fun c hc => Function.update_of_ne hc _ _,
          fun c hc => Function.update_of_ne hc _ _, fun _ _ => rfl,
          fun c hc => Function.update_of_ne hc _ _, fun c hc => Function.update_of_ne hc _ _,
          fun _ _ => rfl⟩ ?_ ?_ fun hidle => absurd hidle.2 hevents
        · intro event hevent
          simp only [Function.update_self] at hevent
          rcases List.mem_append.mp hevent with hevent | hevent
          · exact h.types key event hevent
          · rw [List.mem_singleton.mp hevent]
            cases request <;> simp [Request.event]
        · have hcurrent : s.current key = s.redis key := by
            rw [ZoneMap.current, hunsaved]
            rfl
          have hreported := h.reported key
          rw [hcurrent, hpending] at hreported
          simp only [ZoneMap.current, Function.update_self]
          rw [hreported, reported_or_session request (s.redis key) hstop]
    · cases hstep
  · rw [hpending, hunsaved] at hstep
    cases hstep

theorem mem_scan {s : ZoneMap Key} {keys : List Key} (h : scanComplete s (some keys) = true)
    (d : Key) : d ∈ keys ↔ d ∈ s.connected := by
  simp only [scanComplete, Bool.and_eq_true, List.all_eq_true, decide_eq_true_eq] at h
  exact ⟨h.2 d, h.1 d⟩

/-- A movement that is processed without error: the neighbours of the client are the others
that Redis has around the position in the event. -/
theorem process_arcCount {s : ZoneMap Key} (h : Facts s) {key : Key} {event : MoveEvent}
    {rest : List MoveEvent} {scan : Option (List Key)} {a : Answers Key}
    {eventServer : EventServer Key} (hevents : s.events key = event :: rest)
    (hscan : scanComplete s scan = true)
    (hrun : (zoneEventServerProcess event.type (queryAround s event scan a) key).run
      s.eventServer = some (true, eventServer)) :
    Moved key s.eventServer.clientsGraph eventServer.clientsGraph ∧
      ∀ d, 0 < eventServer.clientsGraph.arcCount key d ↔
        d ≠ key ∧ d ∈ s.connected ∧ Within (s.redis d) event.newPosition := by
  have htype := h.types key event (by rw [hevents]; exact List.mem_cons_self)
  obtain ⟨⟨r, s₂⟩, hstage, heq⟩ := Option.map_eq_some_iff.mp hrun
  obtain ⟨hvalue, rfl⟩ := Prod.mk.inj heq
  have hmove := (zoneEventServerProcess_ends htype _ key h.linked).sat _ _ hstage
  have hr : r = .ok true := by
    rcases hmove.status with hr | hr
    · exact hr
    · rw [hr] at hvalue
      exact absurd hvalue Bool.false_ne_true
  obtain ⟨r₁, s₁, hupdate, hgraph, -, hdone⟩ := hmove.update
  obtain ⟨clients, hclients⟩ := hdone hr
  obtain ⟨hquery, pcEnterList, pcLeaveList, hupdated⟩ := hupdate.done clients hclients
  rw [hgraph]
  refine ⟨hupdate.moved, fun d => ?_⟩
  rw [hupdated.neighbours]
  rcases scan with _ | keys
  · exact absurd hquery (by simp [Answers.ignoring, queryAround])
  · simp only [Answers.ignoring, queryAround, clientsWithinDistance, Option.map_some,
      Option.some.injEq] at hquery
    have hmem : d ∈ clients ↔ d ≠ key ∧ d ∈ s.connected ∧ Within (s.redis d) event.newPosition := by
      rw [← hquery, List.mem_filter, List.mem_filter, mem_scan hscan, decide_eq_true_eq]
      exact And.comm
    rw [← hmem]
    split
    · next hd => exact iff_of_true Nat.one_pos hd
    · next hd => exact iff_of_false (Nat.lt_irrefl 0) hd

theorem Facts.process {s s' : ZoneMap Key} (h : Facts s) {key : Key} {scan : Option (List Key)}
    {a : Answers Key} (hok : CopiesAgree s (.process key scan a))
    (hstep : mapProcess s key scan a = some s') (hfailed : s'.failed = false) : Facts s' := by
  rw [mapProcess] at hstep
  rcases hevents : s.events key with _ | ⟨event, rest⟩
  · rw [hevents] at hstep
    cases hstep
  rw [hevents] at hstep
  dsimp only at hstep
  split at hstep
  · next hscan =>
    obtain ⟨⟨status, eventServer⟩, hrun, rfl⟩ := Option.map_eq_some_iff.mp hstep
    have hstatus : status = true := by
      simp only [Bool.or_eq_false_iff, Bool.not_eq_false'] at hfailed
      exact hfailed.2
    rw [hstatus] at hrun
    obtain ⟨hmoved, hneighbours⟩ := process_arcCount h hevents hscan hrun
    have hidle_of_ne {c : Key} (hc : c ≠ key)
        (hidle : s.pending c = [] ∧ Function.update s.events key rest c = []) : Idle s c := by
      rw [Function.update_of_ne hc] at hidle
      exact hidle
    have hkey (d : Key) (hd : d ≠ key) (hentered : s.entered key = true)
        (hentered' : s.entered d = true)
        (hidle : s.pending key = [] ∧ Function.update s.events key rest key = [])
        (hidle' : Idle s d) : 0 < eventServer.clientsGraph.arcCount key d ↔
          Within (s.current d) (s.current key) := by
      obtain ⟨hpending, hrest⟩ := hidle
      rw [Function.update_self] at hrest
      rw [hrest] at hevents
      have hquery : QueryAgrees s key [event] := hevents ▸ hok
      obtain ⟨horigin, hsaved⟩ := hquery hpending hentered d hd hentered' hidle'
      rw [hneighbours, ← hsaved, ← horigin]
      have hconnected : d ∈ s.connected := by
        by_contra hnot
        exact absurd ((h.fresh d hnot).2.2.2.symm.trans hentered') Bool.false_ne_true
      exact ⟨fun hall => hall.2.2, fun hwithin => ⟨hd, hconnected, hwithin⟩⟩
    refine ⟨hmoved.linked, fun c e he => ?_, fun c hc => ?_, h.reported,
      fun c d hne hc hd hidlec hidled => ?_⟩
    · by_cases hckey : c = key
      · subst hckey
        simp only [Function.update_self] at he
        exact h.types c e (by rw [hevents]; exact List.mem_cons_of_mem _ he)
      · simp only [Function.update_of_ne hckey] at he
        exact h.types c e he
    · obtain ⟨hpending, hunsaved, hempty, hentered⟩ := h.fresh c hc
      refine ⟨hpending, hunsaved, ?_, hentered⟩
      have hckey : c ≠ key := by
        rintro rfl
        exact absurd (hevents.symm.trans hempty) (List.cons_ne_nil _ _)
      simp only [Function.update_of_ne hckey]
      exact hempty
    · change 0 < eventServer.clientsGraph.arcCount c d ↔ Within (s.current c) (s.current d)
      by_cases hckey : c = key
      · subst hckey
        rw [within_comm]
        exact hkey d hne.symm hc hd hidlec (hidle_of_ne hne.symm hidled)
      · by_cases hdkey : d = key
        · subst hdkey
          rw [hmoved.linked.symm]
          exact hkey c hckey hd hc hidled (hidle_of_ne hckey hidlec)
        · rw [hmoved.others c d hckey hdkey]
          exact h.near c d hne hc hd (hidle_of_ne hckey hidlec) (hidle_of_ne hdkey hidled)
  · cases hstep

theorem failed_of_step {s s' : ZoneMap Key} {action : MapAction Key}
    (hstep : mapStep s action = some s') (hfailed : s'.failed = false) : s.failed = false := by
  by_contra hnot
  have htrue : s.failed = true := by simpa using hnot
  suffices s'.failed = true from absurd (hfailed.symm.trans this) Bool.false_ne_true
  cases action with
  | connect key position =>
    rw [mapStep] at hstep
    split at hstep <;> cases hstep
    exact htrue
  | send key request =>
    rw [mapStep] at hstep
    split at hstep <;> cases hstep
    exact htrue
  | handle key succeeds =>
    rw [mapStep, mapHandle] at hstep
    split at hstep
    · split at hstep
      · split at hstep <;> cases hstep
        · exact htrue
        · rfl
      · cases hstep
    · cases hstep
  | save key succeeds =>
    rw [mapStep, mapSave] at hstep
    split at hstep
    · cases hstep
    · split at hstep <;> cases hstep
      · exact htrue
      · rfl
  | process key scan a =>
    rw [mapStep, mapProcess] at hstep
    split at hstep
    · cases hstep
    · split at hstep
      · obtain ⟨r, -, rfl⟩ := Option.map_eq_some_iff.mp hstep
        simp [htrue]
      · cases hstep

theorem facts_inductive :
    Inductive (@zoneMap Key _) CopiesAgree fun s => s.failed = false → Facts s where
  init s hs _ := by
    rw [hs]
    exact facts_start
  step s action s' h hok hstep hfailed := by
    have hfacts := h (failed_of_step hstep hfailed)
    cases action with
    | connect key position => exact hfacts.connect hstep
    | send key request => exact hfacts.send hstep
    | handle key succeeds => exact hfacts.handle hok hstep hfailed
    | save key succeeds => exact hfacts.save hstep hfailed
    | process key scan a => exact hfacts.process hok hstep hfailed

/-- In every run in which the copies of the positions agree when it matters, two clients that
have entered the map are linked at rest exactly when the positions they have reported last are
within the view range. -/
theorem linked_at_rest {s : ZoneMap Key} (hs : ReachableUnder zoneMap CopiesAgree s)
    (hrest : Quiescent s) (hfailed : s.failed = false) {c d : Key} (hne : c ≠ d)
    (hc : s.entered c = true) (hd : s.entered d = true) :
    d ∈ s.eventServer.clientsGraph.neighbours c ↔
      mathIsWithin2DManhattanDistance (s.reported c) (s.reported d) commanderViewRange = true := by
  have hfacts := facts_inductive.reachable hs hfailed
  have hreported (e : Key) : s.reported e = s.current e := by
    rw [hfacts.reported, (hrest e).1]
    rfl
  have hidle (e : Key) : Idle s e := ⟨(hrest e).1, (hrest e).2.2⟩
  rw [hreported, hreported]
  exact List.count_pos_iff.symm.trans (hfacts.near c d hne hc hd (hidle c) (hidle d))

section Runs

/-- Two clients connect at the same position, enter, and are looked for. -/
def enterTogether (position : Position) : List (MapAction Bool) :=
  [.connect false position, .connect true position, .send false .gameReady,
    .send true .gameReady, .handle false true, .handle true true, .save false true,
    .save true true,
    .process false (some [false, true]) ⟨none, fun _ _ => true, fun _ _ => true⟩,
    .process true (some [true, false]) ⟨none, fun _ _ => true, fun _ _ => true⟩]

instance (pos1 pos2 : Position) : Decidable (Within pos1 pos2) :=
  inferInstanceAs (Decidable (_ = true))

instance (s : ZoneMap Key) (key : Key) : Decidable (Idle s key) :=
  inferInstanceAs (Decidable (_ ∧ _))

instance (s : ZoneMap Bool) : Decidable (Quiescent s) :=
  inferInstanceAs (Decidable (∀ _, _))

instance (session : Position) : (requests : List Request) →
    Decidable (StopAgrees session requests)
  | .moveStop _ :: _ => inferInstanceAs (Decidable (_ → _))
  | [] => inferInstanceAs (Decidable True)
  | .gameReady :: _ => inferInstanceAs (Decidable True)
  | .keyboardMove _ :: _ => inferInstanceAs (Decidable True)
  | .jump :: _ => inferInstanceAs (Decidable True)

instance (s : ZoneMap Bool) (key : Bool) : (events : List MoveEvent) →
    Decidable (QueryAgrees s key events)
  | [_] => inferInstanceAs (Decidable (_ → _ → ∀ _, _))
  | [] => inferInstanceAs (Decidable True)
  | _ :: _ :: _ => inferInstanceAs (Decidable True)

instance (s : ZoneMap Bool) : (action : MapAction Bool) → Decidable (CopiesAgree s action)
  | .handle _ _ => inferInstanceAs (Decidable (StopAgrees _ _))
  | .process _ _ _ => inferInstanceAs (Decidable (QueryAgrees _ _ _))
  | .connect _ _ => inferInstanceAs (Decidable True)
  | .send _ _ => inferInstanceAs (Decidable True)
  | .save _ _ => inferInstanceAs (Decidable True)

/-- What the two clients have come to. -/
def AtRest (s : ZoneMap Bool) : Prop :=
  Quiescent s ∧ s.failed = false ∧ s.entered false = true ∧ s.entered true = true ∧
    Within (s.reported false) (s.reported true)

instance (s : ZoneMap Bool) : Decidable (AtRest s) := inferInstanceAs (Decidable (_ ∧ _))

/-- At the origin, which is where the event server looks, they are linked. -/
theorem linked_at_rest_at_origin :
    ∃ s, zoneMap.run (.start Bool) (enterTogether ⟨0, 0⟩) = some s ∧
      true ∈ s.eventServer.clientsGraph.neighbours false := by
  have hguard : zoneMap.Guarded CopiesAgree (.start Bool) (enterTogether ⟨0, 0⟩) := by
    decide +kernel
  have hrun : ((zoneMap.run (.start Bool) (enterTogether ⟨0, 0⟩)).any fun s => AtRest s) = true := by
    decide +kernel
  obtain ⟨s, hs, hrest⟩ := Option.any_eq_true _ _ |>.mp hrun
  obtain ⟨hquiet, hfailed, hfalse, htrue, hwithin⟩ := of_decide_eq_true hrest
  exact ⟨s, hs, (linked_at_rest (ReachableUnder.run (.init rfl) _ hguard hs) hquiet hfailed
    (by decide) hfalse htrue).mpr hwithin⟩

/-- Far from the origin, they are not. -/
theorem clients_at_one_place_not_linked :
    ∃ s : ZoneMap Bool, Reachable zoneMap s ∧ AtRest s ∧
      true ∉ s.eventServer.clientsGraph.neighbours false := by
  have hrun : ((zoneMap.run (.start Bool) (enterTogether ⟨1000, 1000⟩)).any fun s =>
      AtRest s ∧ true ∉ s.eventServer.clientsGraph.neighbours false) = true := by
    decide +kernel
  obtain ⟨s, hs, hrest⟩ := Option.any_eq_true _ _ |>.mp hrun
  obtain ⟨hatRest, hnot⟩ := of_decide_eq_true hrest
  exact ⟨s, Reachable.run (.init rfl) _ hs, hatRest, hnot⟩

end Runs

end R1Emu.Zone
