import Mathlib.Algebra.Ring.GeomSum
import Mathlib.Data.Int.ModEq
import Mathlib.Data.ZMod.Basic
import Mathlib.NumberTheory.Multiplicity
import Mathlib.Tactic.LinearCombination

/-!
# Linear congruential sequences

Each number is a multiple of the one before it and an increment. When the increment is odd and the
multiplier is one more than a multiple of four, the low bits of such a sequence, however many of
them are looked at, take every value before they recur.
-/
namespace R1Emu.Lib.Congruential

variable (a c : ℤ)

def step (x : ℤ) : ℤ := a * x + c

/-- How far a number has come in so many steps. -/
theorem iterate_sub (n : ℕ) (x : ℤ) :
    (step a c)^[n] x - x = (∑ i ∈ Finset.range n, a ^ i) * ((a - 1) * x + c) := by
  induction n with
  | zero => simp
  | succ n ih =>
    rw [Function.iterate_succ_apply', step, geom_sum_succ]
    linear_combination a * ih

variable {a c}

theorem emultiplicity_geom_sum (ha : 4 ∣ a - 1) (n : ℕ) :
    emultiplicity 2 (∑ i ∈ Finset.range n, a ^ i) = emultiplicity 2 (n : ℤ) := by
  by_cases hone : a = 1
  · simp [hone]
  have hodd : ¬ 2 ∣ a := by omega
  have hpow := Int.two_pow_sub_pow' n ha hodd
  rw [one_pow, ← geom_sum_mul, emultiplicity_mul Int.prime_two, add_comm] at hpow
  have hfinite : FiniteMultiplicity 2 (a - 1) :=
    Int.finiteMultiplicity_iff.mpr ⟨by decide, sub_ne_zero.mpr hone⟩
  exact (WithTop.add_left_inj (finiteMultiplicity_iff_emultiplicity_ne_top.mp hfinite)).mp hpow

/-- The low bits come back after as many steps as they have values, and not before. -/
theorem iterate_modEq_iff (ha : 4 ∣ a - 1) (hc : ¬ 2 ∣ c) (k n : ℕ) (x : ℤ) :
    (step a c)^[n] x ≡ x [ZMOD 2 ^ k] ↔ 2 ^ k ∣ n := by
  have hodd : ¬ 2 ∣ (a - 1) * x + c := by
    have heven : 2 ∣ (a - 1) * x := Dvd.dvd.mul_right ((by decide : (2 : ℤ) ∣ 4).trans ha) x
    omega
  rw [Int.modEq_comm, Int.modEq_iff_dvd, iterate_sub, pow_dvd_iff_le_emultiplicity,
    emultiplicity_mul Int.prime_two, emultiplicity_geom_sum ha, emultiplicity_eq_zero.mpr hodd,
    add_zero, ← pow_dvd_iff_le_emultiplicity]
  exact_mod_cast Iff.rfl

theorem iterate_modEq {m x y : ℤ} (h : x ≡ y [ZMOD m]) (n : ℕ) :
    (step a c)^[n] x ≡ (step a c)^[n] y [ZMOD m] := by
  induction n with
  | zero => exact h
  | succ n ih =>
    rw [Function.iterate_succ_apply', Function.iterate_succ_apply']
    exact (ih.mul_left a).add_right c

theorem iterate_modEq_iterate_iff (ha : 4 ∣ a - 1) (hc : ¬ 2 ∣ c) (k m n : ℕ) (x : ℤ) :
    (step a c)^[m] x ≡ (step a c)^[n] x [ZMOD 2 ^ k] ↔ m ≡ n [MOD 2 ^ k] := by
  wlog h : m ≤ n generalizing m n
  · rw [Int.modEq_comm, this n m (le_of_not_ge h)]
    exact ⟨Nat.ModEq.symm, Nat.ModEq.symm⟩
  obtain ⟨d, rfl⟩ := Nat.exists_eq_add_of_le h
  rw [Nat.add_comm m d, Function.iterate_add_apply, Int.modEq_comm, iterate_modEq_iff ha hc,
    Nat.modEq_iff_dvd' (Nat.le_add_left m d), Nat.add_sub_cancel]

/-- Every value is reached. -/
theorem exists_iterate_modEq (ha : 4 ∣ a - 1) (hc : ¬ 2 ∣ c) (k : ℕ) (x y : ℤ) :
    ∃ n, (step a c)^[n] x ≡ y [ZMOD 2 ^ k] := by
  have hinjective : Function.Injective fun n : Fin (2 ^ k) =>
      (((step a c)^[n] x : ℤ) : ZMod (2 ^ k)) := by
    intro m n h
    have hmod := (ZMod.intCast_eq_intCast_iff _ _ _).mp h
    push_cast at hmod
    rw [iterate_modEq_iterate_iff ha hc] at hmod
    exact Fin.ext (Nat.ModEq.eq_of_lt_of_lt hmod m.2 n.2)
  have hbijective := (Fintype.bijective_iff_injective_and_card _).mpr
    ⟨hinjective, by rw [Fintype.card_fin, ZMod.card]⟩
  obtain ⟨n, hn⟩ := hbijective.surjective (y : ZMod (2 ^ k))
  have hmod := (ZMod.intCast_eq_intCast_iff _ _ _).mp hn
  push_cast at hmod
  exact ⟨n, hmod⟩

end R1Emu.Lib.Congruential
