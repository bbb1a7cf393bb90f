import R1Emu.Lib.Congruential
import Mathlib.Algebra.Ring.Periodic
import Mathlib.Data.Nat.Factorization.Basic

/-!
# Random numbers

A worker draws its numbers from a seed of 32 bits. The seeds go through all their values, but the
numbers come from the low 27 bits of them, so that they recur much earlier.
-/
namespace R1Emu.Utils
open R1Emu.Lib.Congruential

def randR (seed : UInt32) : UInt32 × UInt32 :=
  let next := seed
  let next := next * 1103515245
  let next := next + 12345
  let result := next / 65536 % 2048
  let next := next * 1103515245
  let next := next + 12345
  let result := result <<< 10
  let result := result ^^^ (next / 65536 % 1024)
  let next := next * 1103515245
  let next := next + 12345
  let result := result <<< 10
  let result := result ^^^ (next / 65536 % 1024)
  (result, next)

def r1emuGenerateRandom (seed : UInt32) : UInt32 × UInt32 := randR seed

def r1emuGenerateRandom64 (seed : UInt32) : UInt64 × UInt32 :=
  let (low, seed) := r1emuGenerateRandom seed
  let (high, seed) := r1emuGenerateRandom seed
  (high.toUInt64 <<< 31 ||| low.toUInt64, seed)

section Drawing
variable {α : Type*} (draw : UInt32 → α × UInt32) (seed : UInt32)

/-- The seed after so many numbers. -/
def seeds (n : ℕ) : UInt32 := (fun seed => (draw seed).2)^[n] seed

def drawn (n : ℕ) : α := (draw (seeds draw seed n)).1

theorem drawn_zero : drawn draw seed 0 = (draw seed).1 := rfl

theorem seeds_add (m n : ℕ) : seeds draw seed (m + n) = seeds draw (seeds draw seed n) m :=
  Function.iterate_add_apply ..

theorem drawn_add (m n : ℕ) : drawn draw seed (m + n) = drawn draw (seeds draw seed n) m := by
  rw [drawn, drawn, seeds_add]

end Drawing

/-! ### Seeds -/

/-- The step of the generator, of which a number takes three. -/
def nextState (next : UInt32) : UInt32 := next * 1103515245 + 12345

theorem toNat_nextState (next : UInt32) :
    ((nextState next).toNat : ℤ) = step 1103515245 12345 next.toNat % 2 ^ 32 := by
  rw [nextState, UInt32.toNat_add, UInt32.toNat_mul, step]
  push_cast
  rw [Int.emod_add_emod, mul_comm]

theorem nextState_modEq {k : ℕ} (hk : k ≤ 32) (next : UInt32) :
    ((nextState next).toNat : ℤ) ≡ step 1103515245 12345 next.toNat [ZMOD 2 ^ k] := by
  rw [toNat_nextState]
  exact (Int.mod_modEq _ _).of_dvd (pow_dvd_pow 2 hk)

theorem iterate_nextState {k : ℕ} (hk : k ≤ 32) (n : ℕ) (next : UInt32) :
    ((nextState^[n] next).toNat : ℤ) ≡ (step 1103515245 12345)^[n] next.toNat [ZMOD 2 ^ k] := by
  induction n with
  | zero => exact Int.ModEq.refl _
  | succ n ih =>
    rw [Function.iterate_succ_apply', Function.iterate_succ_apply']
    exact (nextState_modEq hk _).trans ((ih.mul_left _).add_right _)

theorem iterate_nextState_modEq_iff {k : ℕ} (hk : k ≤ 32) (n : ℕ) (next : UInt32) :
    (nextState^[n] next).toNat ≡ next.toNat [MOD 2 ^ k] ↔ 2 ^ k ∣ n := by
  rw [← iterate_modEq_iff (a := 1103515245) (c := 12345) (by decide) (by decide) k n next.toNat,
    ← Int.natCast_modEq_iff]
  have hstep := iterate_nextState hk n next
  push_cast
  exact ⟨hstep.symm.trans, hstep.trans⟩

theorem iterate_nextState_congr {k : ℕ} (hk : k ≤ 32) (n : ℕ) {next next' : UInt32}
    (h : next.toNat ≡ next'.toNat [MOD 2 ^ k]) :
    (nextState^[n] next).toNat ≡ (nextState^[n] next').toNat [MOD 2 ^ k] := by
  rw [← Int.natCast_modEq_iff] at h ⊢
  push_cast at h ⊢
  exact (iterate_nextState hk n next).trans
    ((iterate_modEq h n).trans (iterate_nextState hk n next').symm)

theorem iterate_nextState_eq_iff (m n : ℕ) (next : UInt32) :
    nextState^[m] next = nextState^[n] next ↔ m ≡ n [MOD 2 ^ 32] := by
  rw [← iterate_modEq_iterate_iff (a := 1103515245) (c := 12345) (by decide) (by decide) 32 m n
    next.toNat, ← UInt32.toNat_inj]
  have hm := iterate_nextState le_rfl m next
  have hn := iterate_nextState le_rfl n next
  constructor
  · intro h
    rw [h] at hm
    exact hm.symm.trans hn
  · intro h
    have hmod : (nextState^[m] next).toNat ≡ (nextState^[n] next).toNat [MOD 2 ^ 32] := by
      rw [← Int.natCast_modEq_iff]
      exact_mod_cast hm.trans (h.trans hn.symm)
    exact hmod.eq_of_lt_of_lt (nextState^[m] next).toNat_lt (nextState^[n] next).toNat_lt

theorem seeds_randR (seed : UInt32) (n : ℕ) : seeds randR seed n = nextState^[3 * n] seed := by
  rw [seeds, Function.iterate_mul]
  rfl

theorem seeds_r1emuGenerateRandom64 (seed : UInt32) (n : ℕ) :
    seeds r1emuGenerateRandom64 seed n = seeds randR seed (2 * n) := by
  rw [seeds, seeds, Function.iterate_mul]
  rfl

/-! ### Numbers -/

theorem toNat_shift_xor {a b : UInt32} (ha : a.toNat < 2 ^ 22) (hb : b.toNat < 2 ^ 10) :
    (a <<< 10 ^^^ b).toNat = a.toNat * 2 ^ 10 + b.toNat := by
  have hshift : (a <<< 10).toNat = a.toNat * 2 ^ 10 := by
    simp [Nat.shiftLeft_eq]
    omega
  have hdiv : (a.toNat * 2 ^ 10 ^^^ b.toNat) / 2 ^ 10 = a.toNat := by
    rw [Nat.xor_div_two_pow, Nat.mul_div_cancel _ (by decide), Nat.div_eq_of_lt hb, Nat.xor_zero]
  have hmod : (a.toNat * 2 ^ 10 ^^^ b.toNat) % 2 ^ 10 = b.toNat := by
    rw [Nat.xor_mod_two_pow, Nat.mul_mod_left, Nat.zero_xor, Nat.mod_eq_of_lt hb]
  rw [UInt32.toNat_xor, hshift]
  omega

/-- The bits of three states. -/
theorem toNat_randR (seed : UInt32) : (randR seed).1.toNat =
    (nextState seed).toNat / 2 ^ 16 % 2 ^ 11 * 2 ^ 20 +
      (nextState^[2] seed).toNat / 2 ^ 16 % 2 ^ 10 * 2 ^ 10 +
        (nextState^[3] seed).toNat / 2 ^ 16 % 2 ^ 10 := by
  have hhigh : (nextState seed / 65536 % 2048).toNat =
      (nextState seed).toNat / 2 ^ 16 % 2 ^ 11 := by
    simp
  have hmiddle : (nextState^[2] seed / 65536 % 1024).toNat =
      (nextState^[2] seed).toNat / 2 ^ 16 % 2 ^ 10 := by
    simp
  have hlow : (nextState^[3] seed / 65536 % 1024).toNat =
      (nextState^[3] seed).toNat / 2 ^ 16 % 2 ^ 10 := by
    simp
  have hfront : ((nextState seed / 65536 % 2048) <<< 10 ^^^
      (nextState^[2] seed / 65536 % 1024)).toNat = _ := toNat_shift_xor (by omega) (by omega)
  change (((nextState seed / 65536 % 2048) <<< 10 ^^^ (nextState^[2] seed / 65536 % 1024)) <<< 10 ^^^
    (nextState^[3] seed / 65536 % 1024)).toNat = _
  rw [toNat_shift_xor (by omega) (by omega), hfront, hhigh, hmiddle, hlow]
  omega

theorem toNat_randR_lt (seed : UInt32) : (randR seed).1.toNat < 2 ^ 31 := by
  rw [toNat_randR]
  omega

/-- The high bits of a seed do not reach its number. -/
theorem randR_congr {seed seed' : UInt32} (h : seed.toNat ≡ seed'.toNat [MOD 2 ^ 27]) :
    (randR seed).1 = (randR seed').1 := by
  have hhigh := iterate_nextState_congr (k := 27) (by decide) 1 h
  have hmiddle := iterate_nextState_congr (k := 27) (by decide) 2 h
  have hlow := iterate_nextState_congr (k := 27) (by decide) 3 h
  rw [← UInt32.toNat_inj, toNat_randR, toNat_randR]
  simp only [Nat.ModEq, Function.iterate_one] at hhigh hmiddle hlow
  omega

/-- But the highest of the others does. -/
theorem of_randR_eq {seed seed' : UInt32} (h : (randR seed).1 = (randR seed').1)
    (hlow : (nextState seed).toNat ≡ (nextState seed').toNat [MOD 2 ^ 26]) :
    (nextState seed).toNat ≡ (nextState seed').toNat [MOD 2 ^ 27] := by
  have heq := congrArg UInt32.toNat h
  rw [toNat_randR, toNat_randR] at heq
  unfold Nat.ModEq at hlow ⊢
  omega

/-! ### Sequences of numbers -/

theorem nextState_seeds (seed : UInt32) (n : ℕ) :
    nextState (seeds randR seed n) = nextState^[3 * n] (nextState seed) := by
  rw [seeds_randR, ← Function.iterate_succ_apply' nextState, Function.iterate_succ_apply]

theorem seeds_modEq (seed : UInt32) {n : ℕ} (hn : 2 ^ 27 ∣ n) :
    (seeds randR seed n).toNat ≡ seed.toNat [MOD 2 ^ 27] := by
  rw [seeds_randR, iterate_nextState_modEq_iff (by decide)]
  exact hn.mul_left 3

/-- At half the period all bits but the highest are the same again. -/
theorem dvd_of_periodic {seed : UInt32} {n : ℕ} (h : Function.Periodic (drawn randR seed) n)
    (hn : 2 ^ 26 ∣ n) : 2 ^ 27 ∣ n := by
  have hnumber : (randR (seeds randR seed n)).1 = (randR seed).1 := by
    have hfirst := h 0
    rwa [drawn_add, drawn_zero, drawn_zero] at hfirst
  have hlow : (nextState (seeds randR seed n)).toNat ≡ (nextState seed).toNat [MOD 2 ^ 26] := by
    rw [nextState_seeds, iterate_nextState_modEq_iff (by decide)]
    exact hn.mul_left 3
  have hhigh := of_randR_eq hnumber hlow
  rw [nextState_seeds, iterate_nextState_modEq_iff (by decide)] at hhigh
  omega

theorem periodic_randR_iff (seed : UInt32) (n : ℕ) :
    Function.Periodic (drawn randR seed) n ↔ 2 ^ 27 ∣ n := by
  constructor
  · intro hperiodic
    by_contra hn
    have hne : n ≠ 0 := fun hzero => hn (hzero ▸ Nat.dvd_zero _)
    obtain ⟨k, m, hm, rfl⟩ := Nat.exists_eq_two_pow_mul_odd hne
    have hk : k ≤ 26 := by
      by_contra hk
      exact hn ((pow_dvd_pow 2 (by omega)).trans (Nat.dvd_mul_right _ _))
    have hagain : Function.Periodic (drawn randR seed) (2 ^ 26 * m) := by
      have hmultiple := hperiodic.nat_mul (2 ^ (26 - k))
      rwa [Nat.cast_id, ← Nat.mul_assoc, ← pow_add, Nat.sub_add_cancel hk] at hmultiple
    have hdvd := dvd_of_periodic hagain (Nat.dvd_mul_right _ _)
    obtain ⟨r, rfl⟩ := hm
    omega
  · intro hn k
    rw [drawn_add, drawn, drawn]
    apply randR_congr
    rw [seeds_randR _ k, seeds_randR seed k]
    exact iterate_nextState_congr (by decide) _ (seeds_modEq seed hn)

/-- Two seeds give the same numbers when their low bits are the same. -/
theorem drawn_randR_eq_iff (seed seed' : UInt32) :
    drawn randR seed = drawn randR seed' ↔ seed.toNat ≡ seed'.toNat [MOD 2 ^ 27] := by
  constructor
  · intro h
    obtain ⟨i, hi⟩ := exists_iterate_modEq (a := 1103515245) (c := 12345) (by decide) (by decide) 27
      seed.toNat seed'.toNat
    -- The other seed comes after so many numbers, as three times this is one and a period.
    obtain ⟨n, hn⟩ : ∃ n, n = 44739243 * i := ⟨_, rfl⟩
    have hlater : (seeds randR seed n).toNat ≡ seed'.toNat [MOD 2 ^ 27] := by
      have hsame : (nextState^[3 * n] seed).toNat ≡ (nextState^[i] seed).toNat [MOD 2 ^ 27] := by
        have hsplit : 3 * n = 2 ^ 27 * i + i := by omega
        rw [hsplit, Function.iterate_add_apply, iterate_nextState_modEq_iff (by decide)]
        exact Nat.dvd_mul_right _ _
      have hreached : (nextState^[i] seed).toNat ≡ seed'.toNat [MOD 2 ^ 27] := by
        rw [← Int.natCast_modEq_iff]
        push_cast
        exact (iterate_nextState (by decide) i seed).trans hi
      rw [seeds_randR]
      exact hsame.trans hreached
    have hperiodic : Function.Periodic (drawn randR seed) n := by
      intro k
      rw [drawn_add, h, drawn, drawn]
      apply randR_congr
      rw [seeds_randR _ k, seeds_randR _ k]
      exact iterate_nextState_congr (by decide) _ hlater
    exact (seeds_modEq seed ((periodic_randR_iff seed n).mp hperiodic)).symm.trans hlater
  · intro h
    funext k
    rw [drawn, drawn]
    apply randR_congr
    rw [seeds_randR seed, seeds_randR seed']
    exact iterate_nextState_congr (by decide) _ h

theorem r1emuGenerateRandom64_inj {seed seed' : UInt32}
    (h : (r1emuGenerateRandom64 seed).1 = (r1emuGenerateRandom64 seed').1) :
    (randR seed).1 = (randR seed').1 ∧ (randR (randR seed).2).1 = (randR (randR seed').2).1 := by
  have hvalue : ∀ seed, (r1emuGenerateRandom64 seed).1.toNat =
      2 ^ 31 * (randR (randR seed).2).1.toNat + (randR seed).1.toNat := by
    intro seed
    have hlow := toNat_randR_lt seed
    have hhigh := toNat_randR_lt (randR seed).2
    have hshift : ((randR (randR seed).2).1.toUInt64 <<< 31).toNat =
        2 ^ 31 * (randR (randR seed).2).1.toNat := by
      simp [Nat.shiftLeft_eq]
      omega
    change ((randR (randR seed).2).1.toUInt64 <<< 31 ||| (randR seed).1.toUInt64).toNat = _
    rw [UInt64.toNat_or, hshift, UInt32.toNat_toUInt64, Nat.two_pow_add_eq_or_of_lt hlow]
  have heq := congrArg UInt64.toNat h
  have hlow := toNat_randR_lt seed
  have hlow' := toNat_randR_lt seed'
  rw [hvalue, hvalue] at heq
  rw [← UInt32.toNat_inj, ← UInt32.toNat_inj]
  omega

/-- A longer number is made of two. -/
theorem drawn_r1emuGenerateRandom64_inj {seed seed' : UInt32} {m n : ℕ}
    (h : drawn r1emuGenerateRandom64 seed m = drawn r1emuGenerateRandom64 seed' n) :
    drawn randR seed (2 * m) = drawn randR seed' (2 * n) ∧
      drawn randR seed (2 * m + 1) = drawn randR seed' (2 * n + 1) := by
  rw [drawn, drawn, seeds_r1emuGenerateRandom64, seeds_r1emuGenerateRandom64] at h
  obtain ⟨hlow, hhigh⟩ := r1emuGenerateRandom64_inj h
  refine ⟨hlow, ?_⟩
  rw [drawn, drawn, Nat.add_comm _ 1, Nat.add_comm _ 1, seeds_add, seeds_add]
  exact hhigh

theorem drawn_r1emuGenerateRandom64_congr {seed seed' : UInt32} {m n : ℕ}
    (hlow : drawn randR seed (2 * m) = drawn randR seed' (2 * n))
    (hhigh : drawn randR seed (2 * m + 1) = drawn randR seed' (2 * n + 1)) :
    drawn r1emuGenerateRandom64 seed m = drawn r1emuGenerateRandom64 seed' n := by
  rw [Nat.add_comm _ 1, Nat.add_comm _ 1, drawn_add, drawn_add] at hhigh
  have hvalue : ∀ seed n, drawn r1emuGenerateRandom64 seed n =
      (drawn randR (seeds randR seed (2 * n)) 1).toUInt64 <<< 31 |||
        (drawn randR seed (2 * n)).toUInt64 := by
    intro seed n
    rw [drawn, seeds_r1emuGenerateRandom64]
    rfl
  rw [hvalue, hvalue, hlow, hhigh]

/-- Every pair of neighbours is met. -/
theorem forall_pairs {p : ℕ → Prop} : (∀ k, p (2 * k) ∧ p (2 * k + 1)) ↔ ∀ k, p k := by
  constructor
  · intro h k
    rcases Nat.even_or_odd' k with ⟨r, rfl | rfl⟩
    · exact (h r).1
    · exact (h r).2
  · exact fun h k => ⟨h _, h _⟩

/-- The seeds of a worker recur after as many numbers as they have values. The numbers recur after
2^27 of them, the longer ones after 2^26, and workers with the same low bits hand out the same. -/
theorem random_recurs_iff (seed : UInt32) :
    (∀ m n, seeds r1emuGenerateRandom seed m = seeds r1emuGenerateRandom seed n ↔
      m ≡ n [MOD 2 ^ 32]) ∧
    (∀ n, Function.Periodic (drawn r1emuGenerateRandom seed) n ↔ 2 ^ 27 ∣ n) ∧
    (∀ n, Function.Periodic (drawn r1emuGenerateRandom64 seed) n ↔ 2 ^ 26 ∣ n) ∧
    ∀ seed', drawn r1emuGenerateRandom64 seed = drawn r1emuGenerateRandom64 seed' ↔
      seed.toNat ≡ seed'.toNat [MOD 2 ^ 27] := by
  refine ⟨fun m n => ?_, periodic_randR_iff seed, fun n => ?_, fun seed' => ?_⟩
  · change seeds randR seed m = seeds randR seed n ↔ _
    rw [seeds_randR, seeds_randR, iterate_nextState_eq_iff]
    exact ⟨fun h => h.cancel_left_of_coprime (by decide), fun h => h.mul_left 3⟩
  · have hdouble : Function.Periodic (drawn r1emuGenerateRandom64 seed) n ↔
        Function.Periodic (drawn randR seed) (2 * n) := by
      have heven : ∀ k, 2 * (k + n) = 2 * k + 2 * n := fun k => Nat.mul_add 2 k n
      have hodd : ∀ k, 2 * k + 1 + 2 * n = 2 * (k + n) + 1 := fun k => by omega
      constructor
      · intro h
        refine forall_pairs.mp fun k => ?_
        rw [← heven, hodd]
        exact drawn_r1emuGenerateRandom64_inj (h k)
      · intro h k
        apply drawn_r1emuGenerateRandom64_congr
        · rw [heven]
          exact h (2 * k)
        · rw [← hodd]
          exact h (2 * k + 1)
    rw [hdouble, periodic_randR_iff]
    omega
  · rw [← drawn_randR_eq_iff]
    constructor
    · intro h
      have hall : ∀ k, drawn randR seed k = drawn randR seed' k :=
        forall_pairs.mp fun k => drawn_r1emuGenerateRandom64_inj (congrFun h k)
      exact funext hall
    · intro h
      funext k
      exact drawn_r1emuGenerateRandom64_congr (congrFun h _) (congrFun h _)

end R1Emu.Utils
