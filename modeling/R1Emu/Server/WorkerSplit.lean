import R1Emu.Server.Worker

/-!
# Splitting a buffer into requests

Where the length field of every packet stays below the bytes that remain, the loop advances
and cuts the buffer into consecutive requests. The social server takes the packet's size
for the length field, which has sixteen bits: a longer buffer is cut at its size modulo
`2 ^ 16`, and the loop then stands still on an empty request.
-/
namespace R1Emu.Server

variable {σ : Type*}

/-- Each request starts where the one before it ends. -/
def Consecutive : ℕ → List (ℕ × ℕ) → Prop
  | _, [] => True
  | pos, r :: rs => r.1 = pos ∧ Consecutive (pos + r.2) rs

def totalSize (handed : List (ℕ × ℕ)) : ℕ := (handed.map Prod.snd).sum

/-- The requests handed over partition what was processed of the buffer. -/
structure Partitions (packetSize : ℕ) (status : Bool) (handed : List (ℕ × ℕ)) : Prop where
  consecutive : Consecutive 0 handed
  nonempty : ∀ r ∈ handed, 0 < r.2
  inside : ∀ r ∈ handed, r.1 + r.2 ≤ packetSize
  disjoint : handed.Pairwise fun r r' => r.1 + r.2 ≤ r'.1
  covers : status = true → totalSize handed = packetSize

/-- The loop ends, having handed over a partition. -/
def SplitsBuffer (w : Worker σ) (sessionKey : SessionKey) (s : Machine σ)
    (packetSize headerAnswer : ℕ) : Prop :=
  ∃ fuel status s' handed,
    workerBuildReply w fuel sessionKey s packetSize headerAnswer = some (status, s', handed) ∧
      Partitions packetSize status handed

theorem Consecutive.le {pos : ℕ} {handed : List (ℕ × ℕ)} (h : Consecutive pos handed) :
    ∀ r ∈ handed, pos ≤ r.1 := by
  induction handed generalizing pos with
  | nil => simp
  | cons r rs ih =>
    intro r' hr'
    rcases List.mem_cons.mp hr' with rfl | hr'
    · exact h.1.ge
    · have := ih h.2 r' hr'
      omega

theorem Consecutive.disjoint {pos : ℕ} {handed : List (ℕ × ℕ)} (h : Consecutive pos handed) :
    handed.Pairwise fun r r' => r.1 + r.2 ≤ r'.1 := by
  induction handed generalizing pos with
  | nil => exact List.Pairwise.nil
  | cons r rs ih =>
    refine List.Pairwise.cons (fun r' hr' => ?_) (ih h.2)
    rw [h.1]
    exact h.2.le r' hr'

theorem Consecutive.inside {pos size : ℕ} {handed : List (ℕ × ℕ)} (h : Consecutive pos handed)
    (hsize : totalSize handed ≤ size) : ∀ r ∈ handed, r.1 + r.2 ≤ pos + size := by
  induction handed generalizing pos size with
  | nil => simp
  | cons r rs ih =>
    rw [totalSize, List.map_cons, List.sum_cons] at hsize
    intro r' hr'
    rcases List.mem_cons.mp hr' with rfl | hr'
    · have := h.1
      omega
    · have := ih h.2 (show totalSize rs ≤ size - r.2 by rw [totalSize]; omega) r' hr'
      omega

/-- Every packet the server type can find in a buffer of this size advances the loop and
stays in the buffer. -/
def Advances (serverType : ServerType) (packetSize : ℕ) : Prop :=
  ∀ m remaining pos info, 0 < remaining → remaining ≤ packetSize →
    workerGetCryptedPacketInfo serverType m remaining pos = some info →
    0 < subPacketSize info ∧ subPacketSize info ≤ remaining

private theorem crypted_advances {m : Memory} {remaining pos : ℕ} {info : Bool × ℕ}
    (h : (if remaining < cryptHeaderSize then none
      else if remaining - cryptHeaderSize < cryptPacketGetHeader m pos then none
      else some (true, cryptPacketGetHeader m pos)) = some info) :
    0 < subPacketSize info ∧ subPacketSize info ≤ remaining := by
  split at h
  · cases h
  · split at h
    · cases h
    · cases h
      simp only [subPacketSize, cryptHeaderSize] at *
      simp
      omega

theorem advances_of_ne_social {serverType : ServerType} (h : serverType ≠ .social)
    (packetSize : ℕ) : Advances serverType packetSize := by
  intro m remaining pos info _ _ hinfo
  cases serverType with
  | global => cases hinfo
  | social => exact absurd rfl h
  | barrack => exact crypted_advances hinfo
  | zone => exact crypted_advances hinfo

theorem advances_of_lt (serverType : ServerType) {packetSize : ℕ} (h : packetSize < 2 ^ 16) :
    Advances serverType packetSize := by
  by_cases hs : serverType = .social
  · subst hs
    intro m remaining pos info hpos hle hinfo
    cases hinfo
    simp only [subPacketSize]
    rw [if_neg (by simp), Nat.mod_eq_of_lt (by omega)]
    omega
  · exact advances_of_ne_social hs packetSize

theorem buildReplyLoop_partition {w : Worker σ} (headerAnswer : ℕ) {packetSize : ℕ}
    (hadv : Advances w.serverType packetSize) (hsize : packetSize < 2 ^ 64) (fuel : ℕ)
    (s : Machine σ) (pos remaining : ℕ) (hle : remaining ≤ packetSize) (hfuel : remaining < fuel) :
    ∃ status s' handed,
      buildReplyLoop w headerAnswer fuel s pos remaining = some (status, s', handed) ∧
        Consecutive pos handed ∧ (∀ r ∈ handed, 0 < r.2) ∧ totalSize handed ≤ remaining ∧
        (status = true → totalSize handed = remaining) := by
  induction fuel generalizing s pos remaining with
  | zero => omega
  | succ fuel ih =>
    rw [buildReplyLoop]
    by_cases h0 : remaining = 0
    · rw [if_pos h0]
      exact ⟨true, s, [], rfl, trivial, by simp, by simp [totalSize], by simp [totalSize, h0]⟩
    · rw [if_neg h0]
      cases hinfo : workerGetCryptedPacketInfo w.serverType s.memory remaining pos with
      | none => exact ⟨false, s, [], rfl, trivial, by simp, by simp [totalSize], by simp⟩
      | some info =>
        obtain ⟨hpos, hsub⟩ := hadv s.memory remaining pos info (by omega) hle hinfo
        dsimp only
        split
        · refine ⟨false, _, _, rfl, ⟨rfl, trivial⟩, ?_, ?_, by simp⟩
          · simpa using hpos
          · simpa [totalSize] using hsub
        · rw [sizeSub_of_le hsub (by omega)]
          obtain ⟨status, s', handed, hrun, hc, hn, ht, hcov⟩ :=
            ih _ (pos + subPacketSize info) (remaining - subPacketSize info) (by omega) (by omega)
          rw [hrun]
          refine ⟨status, s', _, rfl, ⟨rfl, hc⟩, ?_, ?_, fun hstatus => ?_⟩
          · simpa [hpos] using hn
          · simp only [totalSize, List.map_cons, List.sum_cons] at ht ⊢
            omega
          · have := hcov hstatus
            simp only [totalSize, List.map_cons, List.sum_cons] at this ⊢
            omega

/-- Without a session the buffer is left alone. -/
theorem splitsBuffer_of_not_found {w : Worker σ} {sessionKey : SessionKey} {s : Machine σ}
    {packetSize headerAnswer : ℕ}
    (hfound : (workerGetOrCreateSessionObject w sessionKey s).1 = false) :
    SplitsBuffer w sessionKey s packetSize headerAnswer :=
  ⟨0, false, (workerGetOrCreateSessionObject w sessionKey s).2, [],
    by simp [workerBuildReply, hfound], trivial, by simp, by simp, .nil, by simp⟩

theorem splitsBuffer_of_advances {w : Worker σ} {sessionKey : SessionKey} {s : Machine σ}
    {packetSize headerAnswer : ℕ} (hadv : Advances w.serverType packetSize)
    (hsize : packetSize < 2 ^ 64) : SplitsBuffer w sessionKey s packetSize headerAnswer := by
  by_cases hfound : (workerGetOrCreateSessionObject w sessionKey s).1 = true
  · obtain ⟨status, s', handed, hrun, hc, hn, ht, hcov⟩ :=
      buildReplyLoop_partition headerAnswer hadv hsize (packetSize + 1)
        (workerGetOrCreateSessionObject w sessionKey s).2 0 packetSize le_rfl (by omega)
    refine ⟨packetSize + 1, status, s', handed, ?_, hc, hn, ?_, hc.disjoint, hcov⟩
    · simpa [workerBuildReply, hfound] using hrun
    · simpa using hc.inside ht
  · exact splitsBuffer_of_not_found (Bool.eq_false_of_not_eq_true hfound)

/-- The request at the front of what remains is handed over before anything else happens. -/
theorem buildReplyLoop_head {w : Worker σ} {headerAnswer fuel pos remaining : ℕ} {s s' : Machine σ}
    {info : Bool × ℕ} {status : Bool} {handed : List (ℕ × ℕ)} (h0 : remaining ≠ 0)
    (hinfo : workerGetCryptedPacketInfo w.serverType s.memory remaining pos = some info)
    (h : buildReplyLoop w headerAnswer fuel s pos remaining = some (status, s', handed)) :
    (pos, subPacketSize info) ∈ handed := by
  cases fuel with
  | zero => cases h
  | succ fuel =>
    rw [buildReplyLoop, if_neg h0, hinfo] at h
    dsimp only at h
    split at h
    · cases h
      exact List.mem_singleton_self _
    · obtain ⟨r, -, hr⟩ := Option.map_eq_some_iff.mp h
      cases hr
      exact List.mem_cons_self ..

/-- The first sub-request of a social server's buffer fails. -/
def FirstRequestFails (w : Worker σ) (sessionKey : SessionKey) (s : Machine σ)
    (packetSize headerAnswer : ℕ) : Prop :=
  (workerProcessOneRequest w (workerGetOrCreateSessionObject w sessionKey s).2 0
    (packetSize % 2 ^ 16) headerAnswer false).1 = false

private theorem social_info (m : Memory) (remaining pos : ℕ) :
    workerGetCryptedPacketInfo .social m remaining pos = some (false, remaining % 2 ^ 16) := rfl

/-- The social server's first request is not empty and fails: it is the only one. -/
theorem splitsBuffer_of_first_fails {w : Worker σ} {sessionKey : SessionKey} {s : Machine σ}
    {packetSize headerAnswer : ℕ} (hs : w.serverType = .social)
    (hfound : (workerGetOrCreateSessionObject w sessionKey s).1 = true)
    (h0 : packetSize % 2 ^ 16 ≠ 0)
    (hfail : FirstRequestFails w sessionKey s packetSize headerAnswer) :
    SplitsBuffer w sessionKey s packetSize headerAnswer := by
  let r := workerProcessOneRequest w (workerGetOrCreateSessionObject w sessionKey s).2 0
    (packetSize % 2 ^ 16) headerAnswer false
  have hr : r.1 = false := hfail
  have hrun : workerBuildReply w 1 sessionKey s packetSize headerAnswer =
      some (false, r.2, [(0, packetSize % 2 ^ 16)]) := by
    have hpos : packetSize ≠ 0 := fun he => h0 (by rw [he]; rfl)
    simp only [workerBuildReply, hfound, Bool.not_true, Bool.false_eq_true, if_false]
    rw [buildReplyLoop, if_neg hpos, hs, social_info]
    exact if_pos (by rw [Bool.not_eq_true']; exact hr)
  refine ⟨1, false, r.2, _, hrun, ⟨rfl, trivial⟩, ?_, ?_, List.pairwise_singleton .., by simp⟩
  · simpa using Nat.pos_of_ne_zero h0
  · intro r hr
    rw [List.mem_singleton.mp hr]
    have := Nat.mod_le packetSize (2 ^ 16)
    omega

/-- From `2 ^ 16` bytes on, the social server hands over an empty request, at once or after
its first request. -/
theorem social_not_splits {w : Worker σ} {sessionKey : SessionKey} {s : Machine σ}
    {packetSize headerAnswer : ℕ} (hs : w.serverType = .social)
    (hfound : (workerGetOrCreateSessionObject w sessionKey s).1 = true)
    (hlarge : 2 ^ 16 ≤ packetSize) (hsize : packetSize < 2 ^ 64)
    (hfirst : packetSize % 2 ^ 16 ≠ 0 → ¬ FirstRequestFails w sessionKey s packetSize headerAnswer) :
    ¬ SplitsBuffer w sessionKey s packetSize headerAnswer := by
  rintro ⟨fuel, status, s', handed, hrun, hp⟩
  rw [workerBuildReply] at hrun
  simp only [hfound, Bool.not_true, Bool.false_eq_true, if_false] at hrun
  by_cases h0 : packetSize % 2 ^ 16 = 0
  · have hin := buildReplyLoop_head (by omega) (hs ▸ social_info _ packetSize 0) hrun
    have := hp.nonempty _ hin
    simp only [subPacketSize, Bool.false_eq_true, if_false] at this
    omega
  · have hok := Bool.eq_true_of_not_eq_false (hfirst h0)
    have hle : packetSize % 2 ^ 16 ≤ packetSize := Nat.mod_le ..
    cases fuel with
    | zero => cases hrun
    | succ fuel =>
      rw [buildReplyLoop, if_neg (by omega), hs, social_info] at hrun
      simp only [subPacketSize, Bool.false_eq_true, if_false, hok, Bool.not_true] at hrun
      rw [sizeSub_of_le hle hsize] at hrun
      obtain ⟨⟨status', s'', handed'⟩, hrun', hr⟩ := Option.map_eq_some_iff.mp hrun
      cases hr
      have hin := buildReplyLoop_head (by omega)
        (hs ▸ social_info _ (packetSize - packetSize % 2 ^ 16) _) hrun'
      have := hp.nonempty _ (List.mem_cons_of_mem _ hin)
      simp only [subPacketSize, Bool.false_eq_true, if_false] at this
      omega

/-- The loop of every server type ends with a partition of the buffer, unless the social
server gets `2 ^ 16` bytes or more and its first request is empty or succeeds. -/
theorem workerBuildReply_splits_iff (w : Worker σ) (sessionKey : SessionKey) (s : Machine σ)
    (packetSize : UInt64) (headerAnswer : ℕ) :
    SplitsBuffer w sessionKey s packetSize.toNat headerAnswer ↔
      (workerGetOrCreateSessionObject w sessionKey s).1 = false ∨ w.serverType ≠ .social ∨
        packetSize.toNat < 2 ^ 16 ∨ packetSize.toNat % 2 ^ 16 ≠ 0 ∧
          FirstRequestFails w sessionKey s packetSize.toNat headerAnswer := by
  have hsize := packetSize.toNat_lt
  constructor
  · intro h
    by_contra hno
    simp only [not_or, not_and, not_not, Bool.not_eq_false, not_lt] at hno
    obtain ⟨hfound, hs, hlarge, hfirst⟩ := hno
    exact social_not_splits hs hfound hlarge hsize hfirst h
  · rintro (h | h | h | ⟨h0, hfail⟩)
    · exact splitsBuffer_of_not_found h
    · exact splitsBuffer_of_advances (advances_of_ne_social h _) hsize
    · exact splitsBuffer_of_advances (advances_of_lt _ h) hsize
    · by_cases hfound : (workerGetOrCreateSessionObject w sessionKey s).1 = true
      · by_cases hs : w.serverType = .social
        · exact splitsBuffer_of_first_fails hs hfound h0 hfail
        · exact splitsBuffer_of_advances (advances_of_ne_social hs _) hsize
      · exact splitsBuffer_of_not_found (Bool.eq_false_of_not_eq_true hfound)

/-- A social server's buffer of `2 ^ 16` bytes is handed over as an empty request. -/
theorem workerBuildReply_social_stuck :
    ¬ SplitsBuffer (Worker.plain .social fun _ => none) [] ⟨(), fun _ => 0, [[], []], [], []⟩
      65536 1 :=
  social_not_splits rfl rfl (by decide) (by decide) (fun h => absurd rfl h)

end R1Emu.Server
