import Mathlib.Data.List.Range
import Mathlib.Algebra.Group.Nat.Defs

/-!
# Loops with a counter of a few bits

A loop counts up to a bound, and its counter wraps around. It comes to an end exactly when the
counter can hold the bound, and then its body was run once for each number below it.
-/
namespace R1Emu.Lib.CountedLoop

variable {σ α : Type*}

/-- Go on after a success. -/
def andThen (x : Option (Bool × σ)) (f : σ → Option (Bool × σ)) : Option (Bool × σ) :=
  x.bind fun r => if r.1 then f r.2 else some r

/-- Run a body for one element after the other, until it fails. -/
def forEach (body : α → σ → Option (Bool × σ)) : List α → σ → Option (Bool × σ)
  | [], s => some (true, s)
  | a :: as, s => andThen (body a s) (forEach body as)

/-- `for (id = 0; id < count; id++)`, with an id of `w` bits. -/
def countedLoop (w count : ℕ) (body : ℕ → σ → Option (Bool × σ)) :
    (fuel id : ℕ) → σ → Option (Bool × σ)
  | 0, _, _ => none
  | fuel + 1, id, s =>
    if id < count then andThen (body id s) (countedLoop w count body fuel ((id + 1) % 2 ^ w))
    else some (true, s)

theorem andThen_eq_true {x : Option (Bool × σ)} {f : σ → Option (Bool × σ)} {s' : σ} :
    andThen x f = some (true, s') ↔ ∃ t, x = some (true, t) ∧ f t = some (true, s') := by
  rw [andThen, Option.bind_eq_some_iff]
  constructor
  · rintro ⟨⟨_ | _, t⟩, hx, hf⟩
    · cases hf
    · exact ⟨t, hx, hf⟩
  · rintro ⟨t, hx, hf⟩
    exact ⟨(true, t), hx, hf⟩

section ForEach
variable {body : α → σ → Option (Bool × σ)} {as bs : List α} {s s' : σ}

theorem forEach_cons_eq_true {a : α} : forEach body (a :: as) s = some (true, s') ↔
    ∃ t, body a s = some (true, t) ∧ forEach body as t = some (true, s') :=
  andThen_eq_true

theorem forEach_append_eq_true : forEach body (as ++ bs) s = some (true, s') ↔
    ∃ t, forEach body as s = some (true, t) ∧ forEach body bs t = some (true, s') := by
  induction as generalizing s with
  | nil => simp [forEach]
  | cons a as ih =>
    rw [List.cons_append]
    simp only [forEach_cons_eq_true, ih]
    constructor
    · rintro ⟨t, hbody, u, has, hbs⟩
      exact ⟨u, ⟨t, hbody, has⟩, hbs⟩
    · rintro ⟨u, ⟨t, hbody, has⟩, hbs⟩
      exact ⟨t, hbody, u, has, hbs⟩

theorem forEach_map {β : Type*} (f : β → α) (l : List β) :
    forEach body (l.map f) = forEach (fun b => body (f b)) l := by
  induction l with
  | nil => rfl
  | cons b l ih =>
    funext s
    rw [List.map_cons, forEach, forEach, ih]

theorem forEach_congr {body' : α → σ → Option (Bool × σ)} (h : ∀ a ∈ as, body a = body' a) :
    forEach body as = forEach body' as := by
  induction as with
  | nil => rfl
  | cons a as ih =>
    have hall := List.forall_mem_cons.mp h
    funext s
    rw [forEach, forEach, hall.1, ih hall.2]

end ForEach

section Counting
variable {w count fuel id : ℕ} {body : ℕ → σ → Option (Bool × σ)} {s s' : σ}

/-- The counter never reaches a bound that it cannot hold. -/
theorem countedLoop_overflow (h : 2 ^ w ≤ count) (hid : id < 2 ^ w) :
    countedLoop w count body fuel id s ≠ some (true, s') := by
  induction fuel generalizing id s with
  | zero => exact Option.some_ne_none _ |>.symm
  | succ fuel ih =>
    rw [countedLoop, if_pos (hid.trans_le h)]
    intro hend
    obtain ⟨t, -, hrest⟩ := andThen_eq_true.mp hend
    exact ih (Nat.mod_lt _ (Nat.two_pow_pos w)) hrest

theorem countedLoop_eq_true (h : count < 2 ^ w) (hid : id ≤ count) :
    countedLoop w count body fuel id s = some (true, s') ↔
      count - id < fuel ∧
        forEach body (List.range' id (count - id)) s = some (true, s') := by
  induction fuel generalizing id s with
  | zero => simp [countedLoop]
  | succ fuel ih =>
    rw [countedLoop]
    by_cases hlt : id < count
    · obtain ⟨n, hn⟩ : ∃ n, count - id = n + 1 := ⟨count - id - 1, by omega⟩
      have hnext : count - (id + 1) = n := by omega
      have hmod : (id + 1) % 2 ^ w = id + 1 := Nat.mod_eq_of_lt (by omega)
      rw [if_pos hlt, hn, List.range'_succ, forEach_cons_eq_true, andThen_eq_true, hmod]
      simp only [ih (Nat.succ_le_of_lt hlt), hnext, Nat.add_lt_add_iff_right]
      constructor
      · rintro ⟨t, hbody, hfuel, hrest⟩
        exact ⟨hfuel, t, hbody, hrest⟩
      · rintro ⟨hfuel, t, hbody, hrest⟩
        exact ⟨t, hbody, hfuel, hrest⟩
    · have hdone : count - id = 0 := by omega
      rw [if_neg hlt, hdone]
      simp [forEach]

/-- The loop succeeds when the counter can hold the bound and each run of the body succeeds. -/
theorem countedLoop_zero_eq_true : countedLoop w count body fuel 0 s = some (true, s') ↔
    count < 2 ^ w ∧ count < fuel ∧ forEach body (List.range count) s = some (true, s') := by
  by_cases h : count < 2 ^ w
  · rw [countedLoop_eq_true h (Nat.zero_le _), Nat.sub_zero, ← List.range_eq_range']
    simp [h]
  · exact ⟨fun hend => absurd hend
      (countedLoop_overflow (Nat.le_of_not_lt h) (Nat.two_pow_pos w)), fun hend => absurd hend.1 h⟩

/-- Two ranges of a counter that wraps around have nothing in common. -/
theorem ranges_apart_iff {n x y a b : ℕ} (hxy : x ≤ y) (hyn : y < n) :
    (∀ i < a, ∀ j < b, (x + i) % n ≠ (y + j) % n) ↔
      a = 0 ∨ b = 0 ∨ a ≤ y - x ∧ y + b ≤ n + x := by
  constructor
  · intro h
    by_contra hmeet
    by_cases hfirst : y - x < a
    · exact h (y - x) hfirst 0 (by omega) (by rw [Nat.add_sub_cancel' hxy, Nat.add_zero])
    · apply h 0 (by omega) (n + x - y) (by omega)
      rw [Nat.add_sub_cancel' (by omega), Nat.add_zero, Nat.add_mod_left]
  · rintro (rfl | rfl | ⟨ha, hb⟩) i hi j hj
    · exact absurd hi (Nat.not_lt_zero i)
    · exact absurd hj (Nat.not_lt_zero j)
    · rw [Nat.mod_eq_of_lt (by omega)]
      by_cases hwrap : y + j < n
      · rw [Nat.mod_eq_of_lt hwrap]
        omega
      · rw [Nat.mod_eq_sub_mod (by omega), Nat.mod_eq_of_lt (by omega)]
        omega

end Counting

end R1Emu.Lib.CountedLoop
