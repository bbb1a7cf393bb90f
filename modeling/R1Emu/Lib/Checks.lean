import Mathlib.Logic.Basic
import Mathlib.Tactic.TypeStar

/-!
# Checks in a row

A reader checks its requirements one after the other and stops at the first that is not met, with
the error of that one. What readers in a row check are their requirements in a row.
-/
namespace R1Emu.Lib.Checks

universe u

variable {R ε ι : Type*} {α β : Type u} (met : R → Bool) (error : R → ε)

/-- The value when all requirements are met, and otherwise the error of the first that is not. -/
def verdict (rs : List R) (a : α) : Except ε α :=
  (rs.find? fun r => !met r).elim (.ok a) fun r => .error (error r)

@[simp] theorem verdict_nil (a : α) : verdict met error [] a = .ok a := rfl

variable {met error}

theorem verdict_cons_of_met {r : R} (h : met r = true) (rs : List R) (a : α) :
    verdict met error (r :: rs) a = verdict met error rs a := by
  simp [verdict, h]

theorem verdict_cons_of_not_met {r : R} (h : met r = false) (rs : List R) (a : α) :
    verdict met error (r :: rs) a = .error (error r) := by
  simp [verdict, h]

theorem verdict_of_forall {rs : List R} (h : ∀ r ∈ rs, met r = true) (a : α) :
    verdict met error rs a = .ok a := by
  have hnone : (rs.find? fun r => !met r) = none := List.find?_eq_none.mpr (by simpa using h)
  rw [verdict, hnone]
  rfl

/-- One requirement. -/
theorem eq_verdict_singleton {r : R} {a : α} {x : Except ε α} (hmet : met r = true → x = .ok a)
    (hnot : met r = false → x = .error (error r)) : x = verdict met error [r] a := by
  cases hr : met r with
  | true => rw [verdict_cons_of_met hr, hmet hr, verdict_nil]
  | false => rw [verdict_cons_of_not_met hr, hnot hr]

/-- A reader goes on with its value only behind requirements that are all met. -/
theorem verdict_bind {rs rs' : List R} {a : α} {b : β} {f : α → Except ε β}
    (h : (∀ r ∈ rs, met r = true) → f a = verdict met error rs' b) :
    (verdict met error rs a >>= f) = verdict met error (rs ++ rs') b := by
  induction rs with
  | nil => exact h (by simp)
  | cons r rs ih =>
    cases hr : met r with
    | true =>
      rw [List.cons_append, verdict_cons_of_met hr, verdict_cons_of_met hr]
      exact ih fun hrs => h (List.forall_mem_cons.mpr ⟨hr, hrs⟩)
    | false =>
      rw [List.cons_append, verdict_cons_of_not_met hr, verdict_cons_of_not_met hr]
      rfl

theorem verdict_mapError {ε' : Type*} {error' : R → ε'} {g : ε → ε'} {amend : R → R}
    (hmet : ∀ r, met (amend r) = met r) (herror : ∀ r, error' (amend r) = g (error r)) (rs : List R)
    (a : α) : (verdict met error rs a).mapError g = verdict met error' (rs.map amend) a := by
  induction rs with
  | nil => rfl
  | cons r rs ih =>
    cases hr : met r with
    | true =>
      rw [List.map_cons, verdict_cons_of_met hr, verdict_cons_of_met ((hmet r).trans hr), ih]
    | false =>
      rw [List.map_cons, verdict_cons_of_not_met hr, verdict_cons_of_not_met ((hmet r).trans hr),
        herror]
      rfl

/-- Read one thing after the other. -/
def readAll (read : ι → Except ε α) : List ι → Except ε (List α)
  | [] => .ok []
  | i :: is => do
    let a ← read i
    let as ← readAll read is
    return a :: as

theorem readAll_eq {read : ι → Except ε α} {rs : ι → List R} {value : ι → α} {is : List ι}
    (h : ∀ i ∈ is, read i = verdict met error (rs i) (value i)) :
    readAll read is = verdict met error (is.flatMap rs) (is.map value) := by
  induction is with
  | nil => rfl
  | cons i is ih =>
    have hall := List.forall_mem_cons.mp h
    have hrest : (verdict met error (is.flatMap rs) (is.map value) >>= fun as =>
        pure (value i :: as)) =
          verdict met error (is.flatMap rs ++ []) (value i :: is.map value) :=
      verdict_bind fun _ => rfl
    rw [List.append_nil] at hrest
    rw [readAll, hall.1, ih hall.2]
    exact verdict_bind fun _ => hrest

end R1Emu.Lib.Checks
