import R1Emu.Game.Database
import Mathlib.Data.List.GetD

/-!
# Names in character arrays

A name is a string in an array of fixed size, and it is read without the size. What `strncpy`
puts into an array ends there exactly when the string is shorter than the array.
-/
namespace R1Emu.Game
open R1Emu.Actor R1Emu.Lib R1Emu.Lib.Stage R1Emu.Server

/-! ### Strings -/

theorem zero_notMem_cString (s : List UInt8) : 0 ∉ cString s := by
  intro hmem
  simpa using List.mem_takeWhile_imp hmem

theorem cString_of_notMem {s : List UInt8} (h : 0 ∉ s) : cString s = s := by
  rw [cString, List.takeWhile_eq_self_iff]
  intro c hc
  simpa using ne_of_mem_of_not_mem hc h

theorem length_cString_lt {s : List UInt8} (h : 0 ∈ s) : (cString s).length < s.length := by
  have hprefix : cString s <+: s := List.takeWhile_prefix _
  apply lt_of_le_of_ne hprefix.length_le
  intro hlength
  have hself : cString s = s := hprefix.eq_of_length hlength
  rw [← hself] at h
  exact zero_notMem_cString s h

/-- The name ends in its array. -/
def Terminated {n : ℕ} (name : Chars n) : Prop := 0 ∈ name.toList

theorem terminated_replicate {n : ℕ} (h : 0 < n) : Terminated (Vector.replicate n 0) := by
  rw [Terminated, Vector.toList_replicate]
  exact List.mem_replicate.mpr ⟨h.ne', rfl⟩

theorem Terminated.length_lt {n : ℕ} {name : Chars n} (h : Terminated name) :
    (cString name.toList).length < n := by
  have hlength := length_cString_lt h
  rwa [Vector.length_toList] at hlength

theorem terminated_strncpy {n : ℕ} {src : List UInt8} :
    Terminated (strncpy n src) ↔ (cString src).length < n := by
  rw [Terminated, strncpy, Vector.toList_ofFn, List.mem_ofFn]
  constructor
  · rintro ⟨i, hi⟩
    by_contra hlong
    have hlt : (i : ℕ) < (cString src).length := i.2.trans_le (Nat.le_of_not_lt hlong)
    rw [List.getD_eq_getElem _ _ hlt] at hi
    exact zero_notMem_cString src (hi ▸ List.getElem_mem hlt)
  · intro hlt
    exact ⟨⟨_, hlt⟩, List.getD_eq_default _ _ le_rfl⟩

/-- A string that fits is followed by zeroes. -/
theorem strncpy_toList {n : ℕ} {src : List UInt8} (h : (cString src).length ≤ n) :
    (strncpy n src).toList = cString src ++ List.replicate (n - (cString src).length) 0 := by
  rw [strncpy, Vector.toList_ofFn]
  apply List.ext_getElem
  · simp [h]
  intro i hi _
  rw [List.getElem_ofFn, List.getElem_append]
  split
  next hlt => exact List.getD_eq_getElem _ _ hlt
  next hge => rw [List.getD_eq_default _ _ (Nat.le_of_not_lt hge), List.getElem_replicate]

theorem cString_strncpy {n : ℕ} {src : List UInt8} (h : (cString src).length ≤ n) :
    cString (strncpy n src).toList = cString src := by
  have hself := cString_of_notMem (zero_notMem_cString src)
  rw [strncpy_toList h, cString, List.takeWhile_append, ← cString, hself, if_pos rfl]
  cases n - (cString src).length <;> simp [List.replicate_succ]

/-! ### Strings in memory -/

section Memory
variable {m : Memory} {p n fuel i : ℕ}

theorem Memory.zero_mem_read : 0 ∈ m.read p n ↔ ∃ i < n, m (p + i) = 0 := by
  simp [Memory.read]

theorem zero_notMem_stringFrom (m : Memory) (fuel p : ℕ) : 0 ∉ stringFrom m fuel p := by
  induction fuel generalizing p with
  | zero => exact List.not_mem_nil
  | succ fuel ih =>
    rw [stringFrom]
    split
    · exact List.not_mem_nil
    · next hp => exact List.not_mem_cons_of_ne_of_not_mem (Ne.symm hp) (ih _)

/-- A string is as long as there is no zero. -/
theorem length_stringFrom_lt (hfuel : n ≤ fuel) :
    (stringFrom m fuel p).length < n ↔ 0 ∈ m.read p n := by
  rw [Memory.zero_mem_read]
  induction fuel generalizing p n with
  | zero =>
    obtain rfl := Nat.le_zero.mp hfuel
    simp
  | succ fuel ih =>
    rw [stringFrom]
    split
    case isTrue hp =>
      constructor
      · exact fun hn => ⟨0, hn, hp⟩
      · rintro ⟨i, hi, -⟩
        exact Nat.zero_lt_of_lt hi
    case isFalse hp =>
      cases n with
      | zero => simp
      | succ n =>
        rw [List.length_cons, Nat.succ_lt_succ_iff, ih (Nat.le_of_succ_le_succ hfuel)]
        constructor
        · rintro ⟨i, hi, hzero⟩
          refine ⟨i + 1, Nat.succ_lt_succ hi, ?_⟩
          rwa [Nat.add_comm i 1, ← Nat.add_assoc]
        · rintro ⟨_ | i, hi, hzero⟩
          · exact absurd hzero hp
          · refine ⟨i, Nat.lt_of_succ_lt_succ hi, ?_⟩
            rwa [Nat.add_comm i 1, ← Nat.add_assoc] at hzero

/-- What the string reaches. -/
theorem mem_stringFrom (hi : i < fuel) (h : ∀ j ≤ i, m (p + j) ≠ 0) :
    m (p + i) ∈ stringFrom m fuel p := by
  induction i generalizing p fuel with
  | zero =>
    cases fuel with
    | zero => exact absurd hi (Nat.not_lt_zero _)
    | succ fuel =>
      have hp : m p ≠ 0 := h 0 le_rfl
      rw [stringFrom, if_neg hp]
      exact List.mem_cons_self
  | succ i ih =>
    cases fuel with
    | zero => exact absurd hi (Nat.not_lt_zero _)
    | succ fuel =>
      have hp : m p ≠ 0 := h 0 (Nat.zero_le _)
      rw [stringFrom, if_neg hp]
      apply List.mem_cons_of_mem
      rw [Nat.add_comm i 1, ← Nat.add_assoc]
      apply ih (Nat.lt_of_succ_lt_succ hi)
      intro j hj
      have hnext := h (j + 1) (Nat.succ_le_succ hj)
      rwa [Nat.add_comm j 1, ← Nat.add_assoc] at hnext

end Memory

/-- A string from memory fits an array when there is a zero in as many bytes. -/
theorem terminated_stringFrom {m : Memory} {p n : ℕ} (hn : n ≤ 2 ^ 64) :
    Terminated (strncpy n (stringFrom m (2 ^ 64) p)) ↔ 0 ∈ m.read p n := by
  rw [terminated_strncpy, cString_of_notMem (zero_notMem_stringFrom m _ p),
    length_stringFrom_lt hn]

/-! ### Sessions with names -/

variable {Key : Type}

/-- The names of a commander end in their arrays. -/
structure Commander.Named (c : Commander Key) : Prop where
  commanderName : Terminated c.commanderName
  familyName : Terminated c.familyName

/-- The names of the account and of all commanders end in their arrays. -/
structure World.Named (w : World Key) : Prop where
  accountName : Terminated w.session.game.accountSession.accountName
  familyName : Terminated w.session.game.accountSession.familyName
  commanders : ∀ p c, w.heap.commander p = some c → c.Named

/-- A world in which they do. -/
abbrev NamedWorld (Key : Type) := { w : World Key // w.Named }

section Named
variable {w w' : World Key}

theorem World.Named.of_eq (hw : w.Named) (hsession : w'.session = w.session)
    (hcommanders : w'.heap.commanders = w.heap.commanders) : w'.Named := by
  refine ⟨hsession ▸ hw.accountName, hsession ▸ hw.familyName, fun p c hc => ?_⟩
  rw [Heap.commander, hcommanders] at hc
  exact hw.commanders p c hc

theorem World.Named.newCommander (hw : w.Named) {c : Commander Key} (hc : c.Named) :
    ({ w with heap := (w.heap.newCommander c).2 } : World Key).Named := by
  refine ⟨hw.accountName, hw.familyName, fun p d hd => ?_⟩
  simp only [Heap.commander, Heap.newCommander] at hd
  rcases Nat.lt_trichotomy p w.heap.commanders.length with hlt | rfl | hgt
  · rw [List.getElem?_append_left hlt] at hd
    exact hw.commanders p d hd
  · rw [List.getElem?_concat_length, Option.join_some] at hd
    exact Option.some.inj hd ▸ hc
  · rw [List.getElem?_eq_none (by rw [List.length_append, List.length_singleton]; exact hgt)] at hd
    cases hd

/-- The session and the commanders are as they were. -/
def World.SameNames (w w' : World Key) : Prop :=
  w'.session = w.session ∧ w'.heap.commanders = w.heap.commanders

theorem sameNames_onHeap {α : Type} {f : Heap Key → α × Heap Key}
    (hf : ∀ h, (f h).2.commanders = h.commanders) : Preserves w.SameNames (onHeap f) :=
  preserves_act fun _ h => ⟨h.1, (hf _).trans h.2⟩

theorem sameNames_itemFactoryCreate (env : Env Key) (id amount : UInt32) :
    Preserves w.SameNames (itemFactoryCreate env id amount) := by
  rw [itemFactoryCreate]
  cases itemFactoryGetCategoryFromId env.staticData id with
  | none => exact preserves_pure _
  | some category =>
    refine (sameNames_onHeap fun _ => rfl).bind fun uid =>
      (sameNames_onHeap fun _ => rfl).bind fun allocated => .ite ?_ (preserves_pure _)
    cases itemInit uid category id amount with
    | none => exact preserves_pure _
    | some item => exact (sameNames_onHeap fun _ => rfl).bind fun _ => preserves_pure _

end Named

end R1Emu.Game
