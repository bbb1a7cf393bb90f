import Mathlib.Logic.Relation
import Mathlib.Order.Basic

/-!
# Guarded transition systems

A system has initial states and a partial step function driven by actions. Runs may be
restricted by a guard on each step, and an inductive predicate of the guarded steps holds
in every state that a guarded run reaches.
-/
namespace R1Emu.Lib.Transition

/-- Initial states and one partial step for each action. -/
structure System (σ α : Type*) where
  init : σ → Prop
  step : σ → α → Option σ

variable {σ α : Type*} {S : System σ α} {ok ok' : σ → α → Prop} {Inv Inv' : σ → Prop}

/-- The states reached by runs whose every step meets the guard. -/
inductive ReachableUnder (S : System σ α) (ok : σ → α → Prop) : σ → Prop
  | init {s : σ} (hs : S.init s) : ReachableUnder S ok s
  | step {s s' : σ} {a : α} (hs : ReachableUnder S ok s) (hok : ok s a)
      (ha : S.step s a = some s') : ReachableUnder S ok s'

/-- The states reached by unrestricted runs. -/
def Reachable (S : System σ α) : σ → Prop := ReachableUnder S (fun _ _ => True)

/-- The state after a list of actions, when every one of them is enabled. -/
def System.run (S : System σ α) : σ → List α → Option σ
  | s, [] => some s
  | s, a :: as => (S.step s a).bind fun s' => S.run s' as

@[simp] theorem System.run_nil (s : σ) : S.run s [] = some s := rfl

@[simp] theorem System.run_cons (s : σ) (a : α) (as : List α) :
    S.run s (a :: as) = (S.step s a).bind fun s' => S.run s' as := rfl

theorem ReachableUnder.mono (h : ∀ s a, ok s a → ok' s a) {s : σ}
    (hs : ReachableUnder S ok s) : ReachableUnder S ok' s := by
  induction hs with
  | init hs => exact .init hs
  | step _ hok ha ih => exact .step ih (h _ _ hok) ha

theorem ReachableUnder.reachable {s : σ} (hs : ReachableUnder S ok s) : Reachable S s :=
  hs.mono fun _ _ _ => trivial

/-- Every step of the run meets the guard. -/
def System.Guarded (S : System σ α) (ok : σ → α → Prop) : σ → List α → Prop
  | _, [] => True
  | s, a :: as => ok s a ∧ ∀ s', S.step s a = some s' → S.Guarded ok s' as

instance System.decidableGuarded [∀ s a, Decidable (ok s a)] :
    (s : σ) → (as : List α) → Decidable (S.Guarded ok s as)
  | _, [] => inferInstanceAs (Decidable True)
  | s, a :: as =>
    have (r : Option σ) : Decidable (∀ s', r = some s' → S.Guarded ok s' as) :=
      match r with
      | none => .isTrue (by simp)
      | some s' =>
        have := decidableGuarded s' as
        decidable_of_iff (S.Guarded ok s' as) ⟨fun h _ he => Option.some.inj he ▸ h, fun h => h _ rfl⟩
    inferInstanceAs (Decidable (ok s a ∧ ∀ s', S.step s a = some s' → S.Guarded ok s' as))

theorem ReachableUnder.run {s s' : σ} (hs : ReachableUnder S ok s) (as : List α)
    (hok : S.Guarded ok s as) (hrun : S.run s as = some s') : ReachableUnder S ok s' := by
  induction as generalizing s with
  | nil =>
    cases hrun
    exact hs
  | cons a as ih =>
    obtain ⟨t, ht, hrun⟩ := Option.bind_eq_some_iff.mp hrun
    exact ih (.step hs hok.1 ht) (hok.2 t ht) hrun

/-- An unrestricted run from a reachable state stays reachable. -/
theorem Reachable.run {s s' : σ} (hs : Reachable S s) (as : List α)
    (hrun : S.run s as = some s') : Reachable S s' := by
  refine ReachableUnder.run hs as ?_ hrun
  induction as generalizing s with
  | nil => trivial
  | cons a as ih =>
    refine ⟨trivial, fun t ht => ih (.step hs trivial ht) ?_⟩
    rwa [System.run_cons, ht] at hrun

/-- A predicate that holds initially and is kept by every guarded step. -/
structure Inductive (S : System σ α) (ok : σ → α → Prop) (Inv : σ → Prop) : Prop where
  init : ∀ s, S.init s → Inv s
  step : ∀ s a s', Inv s → ok s a → S.step s a = some s' → Inv s'

theorem Inductive.reachable (h : Inductive S ok Inv) {s : σ} (hs : ReachableUnder S ok s) :
    Inv s := by
  induction hs with
  | init hs => exact h.init _ hs
  | step _ hok ha ih => exact h.step _ _ _ ih hok ha

/-- A weaker guard admits more steps, so its invariants serve every stronger guard. -/
theorem Inductive.guard (h : Inductive S ok' Inv) (hok : ∀ s a, ok s a → ok' s a) :
    Inductive S ok Inv :=
  ⟨h.init, fun s a s' hi ha => h.step s a s' hi (hok s a ha)⟩

/-- Relative induction: the second predicate may use the first before the step. -/
theorem Inductive.and (h : Inductive S ok Inv) (hinit : ∀ s, S.init s → Inv' s)
    (hstep : ∀ s a s', Inv s → Inv' s → ok s a → S.step s a = some s' → Inv' s') :
    Inductive S ok (fun s => Inv s ∧ Inv' s) where
  init s hs := ⟨h.init s hs, hinit s hs⟩
  step s a s' hi hok ha := ⟨h.step s a s' hi.1 hok ha, hstep s a s' hi.1 hi.2 hok ha⟩

end R1Emu.Lib.Transition
