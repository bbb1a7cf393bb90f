import Mathlib.Logic.Basic
import Mathlib.Tactic.TypeStar

/-!
# Computations that fault, leave early, or go on

A stage reads and writes a state. It faults, leaves the function it is part of with a value,
or goes on with one. `Sat` says what holds of its outcomes when it does not fault, and has one
rule for each way to build a stage, so that the outcomes of a composite are found by rewriting.
`Preserves` says that a stage leaves a property of the state in place, wherever it is left.
`Ends` is `Sat` for a stage that does not fault. `Commutes` says that a change of the state makes
no difference to a stage, and is there again when the stage is left.
-/
namespace R1Emu.Lib

universe u

def Stage (σ ε α : Type u) := σ → Option (Except ε α × σ)

variable {σ ε α β : Type u}

namespace Stage

def ok (a : α) : Stage σ ε α := fun s => some (.ok a, s)

/-- Leave with `e`. -/
def exit (e : ε) : Stage σ ε α := fun s => some (.error e, s)

def fault : Stage σ ε α := fun _ => none

def andThen (m : Stage σ ε α) (f : α → Stage σ ε β) : Stage σ ε β := fun s =>
  match m s with
  | none => none
  | some (.error e, s) => some (.error e, s)
  | some (.ok a, s) => f a s

instance : Monad (Stage σ ε) where
  pure := ok
  bind := andThen

/-- What a function of the state gives, with the state it leaves behind. -/
def act (f : σ → α × σ) : Stage σ ε α := fun s => some (.ok (f s).1, (f s).2)

def gets (f : σ → α) : Stage σ ε α := act fun s => (f s, s)

def modify (f : σ → σ) : Stage σ ε PUnit := act fun s => (⟨⟩, f s)

/-- A value that has to be there. -/
def found : Option α → Stage σ ε α
  | none => fault
  | some a => ok a

/-- A function of the state that may fault. -/
def lift (f : σ → Option (α × σ)) : Stage σ ε α := fun s => (f s).map fun r => (.ok r.1, r.2)

/-- Go on only where the condition holds. -/
def require (c : Bool) (e : ε) : Stage σ ε PUnit := if c then ok ⟨⟩ else exit e

/-- The value of a function, wherever it is left. -/
def value : Except ε ε → ε
  | .error e => e
  | .ok e => e

@[simp] theorem value_ok (e : ε) : value (.ok e : Except ε ε) = e := rfl
@[simp] theorem value_error (e : ε) : value (.error e : Except ε ε) = e := rfl

/-- Call a function: leaving it is going on with its value. -/
def call (m : Stage σ ε ε) : Stage σ ε ε := fun s => (m s).map fun r => (.ok (value r.1), r.2)

/-- What a function returns. -/
def run (m : Stage σ ε ε) (s : σ) : Option (ε × σ) := (m s).map fun r => (value r.1, r.2)

/-- Every outcome of the stage satisfies `Q`. -/
def Sat (m : Stage σ ε α) (s : σ) (Q : Except ε α → σ → Prop) : Prop :=
  ∀ r s', m s = some (r, s') → Q r s'

/-- What has to hold of a first stage's outcome for `Q` to hold after the second. -/
def Then (f : α → Stage σ ε β) (Q : Except ε β → σ → Prop) : Except ε α → σ → Prop
  | .error e, s => Q (.error e) s
  | .ok a, s => (f a).Sat s Q

@[simp] theorem then_ok (f : α → Stage σ ε β) (Q : Except ε β → σ → Prop) (a : α) (s : σ) :
    Then f Q (.ok a) s ↔ (f a).Sat s Q :=
  Iff.rfl

@[simp] theorem then_error (f : α → Stage σ ε β) (Q : Except ε β → σ → Prop) (e : ε) (s : σ) :
    Then f Q (.error e) s ↔ Q (.error e) s :=
  Iff.rfl

@[simp] theorem sat_ok (a : α) (s : σ) (Q : Except ε α → σ → Prop) :
    (ok a : Stage σ ε α).Sat s Q ↔ Q (.ok a) s := by
  simp [Sat, ok]

@[simp] theorem sat_pure (a : α) (s : σ) (Q : Except ε α → σ → Prop) :
    (pure a : Stage σ ε α).Sat s Q ↔ Q (.ok a) s :=
  sat_ok a s Q

@[simp] theorem sat_exit (e : ε) (s : σ) (Q : Except ε α → σ → Prop) :
    (exit e : Stage σ ε α).Sat s Q ↔ Q (.error e) s := by
  simp [Sat, exit]

@[simp] theorem sat_fault (s : σ) (Q : Except ε α → σ → Prop) :
    (fault : Stage σ ε α).Sat s Q := by
  simp [Sat, fault]

@[simp] theorem sat_act (f : σ → α × σ) (s : σ) (Q : Except ε α → σ → Prop) :
    (act f : Stage σ ε α).Sat s Q ↔ Q (.ok (f s).1) (f s).2 := by
  simp [Sat, act]

@[simp] theorem sat_gets (f : σ → α) (s : σ) (Q : Except ε α → σ → Prop) :
    (gets f : Stage σ ε α).Sat s Q ↔ Q (.ok (f s)) s := by
  simp [gets]

@[simp] theorem sat_modify (f : σ → σ) (s : σ) (Q : Except ε PUnit → σ → Prop) :
    (modify f : Stage σ ε PUnit).Sat s Q ↔ Q (.ok ⟨⟩) (f s) := by
  simp [modify]

@[simp] theorem sat_found (a : Option α) (s : σ) (Q : Except ε α → σ → Prop) :
    (found a : Stage σ ε α).Sat s Q ↔ ∀ x, a = some x → Q (.ok x) s := by
  cases a <;> simp [found]

@[simp] theorem sat_lift (f : σ → Option (α × σ)) (s : σ) (Q : Except ε α → σ → Prop) :
    (lift f : Stage σ ε α).Sat s Q ↔ ∀ a s', f s = some (a, s') → Q (.ok a) s' := by
  simp only [Sat, lift, Option.map_eq_some_iff, Prod.mk.injEq, Prod.exists]
  constructor
  · intro h a s' hf
    exact h _ _ ⟨a, s', hf, rfl, rfl⟩
  · rintro h _ _ ⟨a, s', hf, rfl, rfl⟩
    exact h a s' hf

@[simp] theorem sat_require (c : Bool) (e : ε) (s : σ) (Q : Except ε PUnit → σ → Prop) :
    (require c e : Stage σ ε PUnit).Sat s Q ↔
      (c = true → Q (.ok ⟨⟩) s) ∧ (c = false → Q (.error e) s) := by
  cases c <;> simp [require]

@[simp] theorem sat_bind (m : Stage σ ε α) (f : α → Stage σ ε β) (s : σ)
    (Q : Except ε β → σ → Prop) : (m >>= f).Sat s Q ↔ m.Sat s (Then f Q) := by
  constructor
  · intro h r s' hm
    have hrun : (m >>= f) s = match r with
        | .error e => some (.error e, s')
        | .ok a => f a s' := by
      change andThen m f s = _
      cases r <;> simp [andThen, hm]
    cases r with
    | error e => exact h _ _ hrun
    | ok a => exact fun r₂ s₂ hf => h r₂ s₂ (hrun.trans hf)
  · intro h r s' hrun
    change andThen m f s = _ at hrun
    rcases hm : m s with _ | ⟨_ | a, s₁⟩
    · simp [andThen, hm] at hrun
    · simp only [andThen, hm, Option.some.injEq, Prod.mk.injEq] at hrun
      obtain ⟨rfl, rfl⟩ := hrun
      exact h _ _ hm
    · simp only [andThen, hm] at hrun
      exact h _ _ hm r s' hrun

@[simp] theorem sat_ite (c : Prop) [Decidable c] (m n : Stage σ ε α) (s : σ)
    (Q : Except ε α → σ → Prop) :
    (if c then m else n).Sat s Q ↔ (c → m.Sat s Q) ∧ (¬ c → n.Sat s Q) := by
  by_cases hc : c <;> simp [hc]

theorem Sat.mono {m : Stage σ ε α} {s : σ} {P Q : Except ε α → σ → Prop} (h : m.Sat s P)
    (hPQ : ∀ r s', P r s' → Q r s') : m.Sat s Q :=
  fun r s' hm => hPQ r s' (h r s' hm)

@[simp] theorem sat_call (m : Stage σ ε ε) (s : σ) (Q : Except ε ε → σ → Prop) :
    (call m).Sat s Q ↔ m.Sat s fun r s' => Q (.ok (value r)) s' := by
  simp only [Sat, call, Option.map_eq_some_iff, Prod.mk.injEq, Prod.exists]
  constructor
  · intro h r s' hm
    exact h _ _ ⟨r, s', hm, rfl, rfl⟩
  · rintro h _ _ ⟨r, s', hm, rfl, rfl⟩
    exact h r s' hm

theorem Sat.bind {m : Stage σ ε α} {f : α → Stage σ ε β} {s : σ} {P : Except ε α → σ → Prop}
    {Q : Except ε β → σ → Prop} (hm : m.Sat s P)
    (he : ∀ e s', P (.error e) s' → Q (.error e) s')
    (hf : ∀ a s', P (.ok a) s' → (f a).Sat s' Q) : (m >>= f).Sat s Q := by
  rw [sat_bind]
  refine hm.mono fun r s' hr => ?_
  cases r with
  | error e => exact he e s' hr
  | ok a => exact hf a s' hr

theorem sat_iff_run (m : Stage σ ε ε) (s : σ) (Q : ε → σ → Prop) :
    (m.Sat s fun r => Q (value r)) ↔ ∀ e s', m.run s = some (e, s') → Q e s' := by
  simp only [Sat, run, Option.map_eq_some_iff, Prod.mk.injEq, Prod.exists]
  constructor
  · rintro h _ _ ⟨r, s', hm, rfl, rfl⟩
    exact h r s' hm
  · intro h r s' hm
    exact h _ _ ⟨r, s', hm, rfl, rfl⟩

/-- Wherever the stage is left, `P` holds of the state if it did before. -/
def Preserves (P : σ → Prop) (m : Stage σ ε α) : Prop := ∀ s, P s → m.Sat s fun _ => P

variable {P : σ → Prop}

theorem preserves_pure (a : α) : Preserves P (pure a : Stage σ ε α) := by
  intro s hs
  rwa [sat_pure]

theorem preserves_exit (e : ε) : Preserves P (exit e : Stage σ ε α) := by
  intro s hs
  rwa [sat_exit]

theorem preserves_fault : Preserves P (fault : Stage σ ε α) := fun s _ => sat_fault s _

theorem preserves_gets (f : σ → α) : Preserves P (gets f : Stage σ ε α) := by
  intro s hs
  rwa [sat_gets]

theorem preserves_found (a : Option α) : Preserves P (found a : Stage σ ε α) := by
  intro s hs
  rw [sat_found]
  exact fun _ _ => hs

theorem preserves_act {f : σ → α × σ} (hf : ∀ s, P s → P (f s).2) :
    Preserves P (act f : Stage σ ε α) := by
  intro s hs
  rw [sat_act]
  exact hf s hs

theorem preserves_require (c : Bool) (e : ε) : Preserves P (require c e : Stage σ ε PUnit) := by
  intro s hs
  rw [sat_require]
  exact ⟨fun _ => hs, fun _ => hs⟩

theorem Preserves.bind {m : Stage σ ε α} {f : α → Stage σ ε β} (hm : Preserves P m)
    (hf : ∀ a, Preserves P (f a)) : Preserves P (m >>= f) := by
  intro s hs
  exact (hm s hs).bind (fun _ _ h => h) fun a s' h => hf a s' h

theorem Preserves.ite {c : Prop} [Decidable c] {m n : Stage σ ε α} (hm : Preserves P m)
    (hn : Preserves P n) : Preserves P (if c then m else n) := by
  split
  · exact hm
  · exact hn

theorem Preserves.call {m : Stage σ ε ε} (hm : Preserves P m) : Preserves P (call m) := by
  intro s hs
  rw [sat_call]
  exact hm s hs

/-- The stage does not leave the function it is part of. -/
def Stays (m : Stage σ ε α) : Prop := ∀ s, m.Sat s fun r _ => ∃ a, r = .ok a

theorem stays_pure (a : α) : Stays (pure a : Stage σ ε α) := by
  intro s
  rw [sat_pure]
  exact ⟨a, rfl⟩

theorem stays_fault : Stays (fault : Stage σ ε α) := fun s => sat_fault s _

theorem stays_found (a : Option α) : Stays (found a : Stage σ ε α) := by
  intro s
  rw [sat_found]
  exact fun x _ => ⟨x, rfl⟩

theorem stays_act (f : σ → α × σ) : Stays (act f : Stage σ ε α) := by
  intro s
  rw [sat_act]
  exact ⟨_, rfl⟩

theorem stays_gets (f : σ → α) : Stays (gets f : Stage σ ε α) := stays_act _

theorem Stays.bind {m : Stage σ ε α} {f : α → Stage σ ε β} (hm : Stays m)
    (hf : ∀ a, Stays (f a)) : Stays (m >>= f) := by
  intro s
  rw [sat_bind]
  refine (hm s).mono ?_
  rintro _ s' ⟨a, rfl⟩
  exact hf a s'

theorem Stays.ite {c : Prop} [Decidable c] {m n : Stage σ ε α} (hm : Stays m) (hn : Stays n) :
    Stays (if c then m else n) := by
  split
  · exact hm
  · exact hn

/-- A first stage that goes on. -/
theorem bind_ok {m : Stage σ ε α} {s s' : σ} {a : α} (h : m s = some (.ok a, s'))
    (f : α → Stage σ ε β) : (m >>= f) s = f a s' := by
  change andThen m f s = _
  rw [andThen, h]

/-- A first stage that leaves. -/
theorem bind_error {m : Stage σ ε α} {s s' : σ} {e : ε} (h : m s = some (.error e, s'))
    (f : α → Stage σ ε β) : (m >>= f) s = some (.error e, s') := by
  change andThen m f s = _
  rw [andThen, h]

/-- A value that has to be there, and what is done with it. -/
theorem found_bind (a : Option α) (f : α → Stage σ ε β) (s : σ) :
    (found a >>= f) s = a.bind fun x => f x s := by
  cases a with
  | none => rfl
  | some x => rfl

/-- The stage does not fault, whatever the state. -/
def Total (m : Stage σ ε α) : Prop := ∀ s, m s ≠ none

theorem total_pure (a : α) : Total (pure a : Stage σ ε α) := fun _ => Option.some_ne_none _

theorem total_act (f : σ → α × σ) : Total (act f : Stage σ ε α) := fun _ => Option.some_ne_none _

theorem Total.bind {m : Stage σ ε α} {f : α → Stage σ ε β} (hm : Total m)
    (hf : ∀ a, Total (f a)) : Total (m >>= f) := by
  intro s
  rcases hrun : m s with _ | ⟨_ | a, s'⟩
  · exact absurd hrun (hm s)
  · rw [bind_error hrun]
    exact Option.some_ne_none _
  · rw [bind_ok hrun]
    exact hf a s'

theorem Total.ite {c : Prop} [Decidable c] {m n : Stage σ ε α} (hm : Total m) (hn : Total n) :
    Total (if c then m else n) := by
  split
  · exact hm
  · exact hn

/-- The stage does not fault, and its outcome satisfies `Q`. -/
def Ends (m : Stage σ ε α) (s : σ) (Q : Except ε α → σ → Prop) : Prop :=
  ∃ r s', m s = some (r, s') ∧ Q r s'

section Ends

variable {s : σ} {Q : Except ε α → σ → Prop}

theorem Ends.sat {m : Stage σ ε α} (h : m.Ends s Q) : m.Sat s Q := by
  obtain ⟨r, s', hm, hQ⟩ := h
  intro r₂ s₂ hm₂
  cases hm.symm.trans hm₂
  exact hQ

theorem Total.ends {m : Stage σ ε α} (h : Total m) (hQ : m.Sat s Q) : m.Ends s Q := by
  obtain ⟨⟨r, s'⟩, hm⟩ := Option.ne_none_iff_exists'.mp (h s)
  exact ⟨r, s', hm, hQ r s' hm⟩

theorem ends_pure (a : α) (h : Q (.ok a) s) : (pure a : Stage σ ε α).Ends s Q :=
  ⟨_, _, rfl, h⟩

theorem ends_exit (e : ε) (h : Q (.error e) s) : (exit e : Stage σ ε α).Ends s Q :=
  ⟨_, _, rfl, h⟩

theorem ends_act (f : σ → α × σ) (h : Q (.ok (f s).1) (f s).2) :
    (act f : Stage σ ε α).Ends s Q :=
  ⟨_, _, rfl, h⟩

theorem ends_lift {f : σ → Option (α × σ)} {a : α} {s' : σ} (hf : f s = some (a, s'))
    (h : Q (.ok a) s') : (lift f : Stage σ ε α).Ends s Q := by
  refine ⟨_, _, ?_, h⟩
  rw [lift, hf, Option.map_some]

theorem Ends.mono {m : Stage σ ε α} {P : Except ε α → σ → Prop} (h : m.Ends s P)
    (hPQ : ∀ r s', P r s' → Q r s') : m.Ends s Q := by
  obtain ⟨r, s', hm, hP⟩ := h
  exact ⟨r, s', hm, hPQ r s' hP⟩

theorem Ends.bind {m : Stage σ ε α} {f : α → Stage σ ε β} {P : Except ε α → σ → Prop}
    {Q : Except ε β → σ → Prop} (hm : m.Ends s P)
    (he : ∀ e s', P (.error e) s' → Q (.error e) s')
    (hf : ∀ a s', P (.ok a) s' → (f a).Ends s' Q) : (m >>= f).Ends s Q := by
  obtain ⟨_ | a, s', hm, hP⟩ := hm
  · refine ⟨_, s', ?_, he _ s' hP⟩
    change andThen m f s = _
    simp only [andThen, hm]
  · obtain ⟨r, s'', hf, hQ⟩ := hf a s' hP
    refine ⟨r, s'', ?_, hQ⟩
    change andThen m f s = _
    simp only [andThen, hm, hf]

theorem Ends.ite {c : Prop} [Decidable c] {m n : Stage σ ε α} (hm : c → m.Ends s Q)
    (hn : ¬ c → n.Ends s Q) : (if c then m else n).Ends s Q := by
  split
  · next hc => exact hm hc
  · next hc => exact hn hc

end Ends

/-- From this state, the stage has the same outcome behind the change of the state as in front
of it. -/
def Commutes (change : σ → σ) (m : Stage σ ε α) (s : σ) : Prop :=
  m (change s) = (m s).map fun r => (r.1, change r.2)

section Commutes

variable {change : σ → σ} {s : σ}

theorem commutes_pure (a : α) : Commutes change (pure a : Stage σ ε α) s := rfl

theorem commutes_fault : Commutes change (fault : Stage σ ε α) s := rfl

theorem commutes_act {f : σ → α × σ} (h : f (change s) = ((f s).1, change (f s).2)) :
    Commutes change (act f : Stage σ ε α) s := by
  rw [Commutes, act, h]
  rfl

theorem commutes_gets {f : σ → α} (h : f (change s) = f s) :
    Commutes change (gets f : Stage σ ε α) s :=
  commutes_act (congrArg (·, change s) h)

theorem commutes_found (a : Option α) : Commutes change (found a : Stage σ ε α) s := by
  cases a <;> rfl

theorem commutes_require (c : Bool) (e : ε) :
    Commutes change (require c e : Stage σ ε PUnit) s := by
  cases c <;> rfl

theorem Commutes.bind {m : Stage σ ε α} {f : α → Stage σ ε β} (hm : Commutes change m s)
    (hf : ∀ a s', m s = some (.ok a, s') → Commutes change (f a) s') :
    Commutes change (m >>= f) s := by
  rw [Commutes] at hm
  rcases hrun : m s with _ | ⟨_ | a, s'⟩
  · rw [hrun] at hm
    change andThen m f _ = (andThen m f s).map _
    rw [andThen, andThen, hm, hrun]
    rfl
  · rw [hrun] at hm
    rw [Commutes, bind_error hrun, bind_error hm]
    rfl
  · rw [hrun] at hm
    rw [Commutes, bind_ok hrun, bind_ok hm]
    exact hf a s' hrun

/-- What is read of the state is the same behind the change. -/
theorem commutes_gets_bind {f : σ → α} {k : α → Stage σ ε β} (h : f (change s) = f s)
    (hk : Commutes change (k (f s)) s) : Commutes change (gets f >>= k) s := by
  apply (commutes_gets h).bind
  rintro _ _ hrun
  cases hrun
  exact hk

theorem commutes_require_bind {c : Bool} {e : ε} {k : PUnit → Stage σ ε β}
    (hk : Commutes change (k ⟨⟩) s) : Commutes change (require c e >>= k) s := by
  apply (commutes_require c e).bind
  rintro ⟨⟩ s' hrun
  cases c
  · cases hrun
  · cases hrun
    exact hk

theorem Commutes.ite {c : Prop} [Decidable c] {m n : Stage σ ε α} (hm : c → Commutes change m s)
    (hn : ¬ c → Commutes change n s) : Commutes change (if c then m else n) s := by
  split
  · next hc => exact hm hc
  · next hc => exact hn hc

/-- A stage to which the change makes no difference anywhere. -/
def Ignores (change : σ → σ) (m : Stage σ ε α) : Prop := ∀ s, Commutes change m s

theorem ignores_act {f : σ → α × σ} (h : ∀ s, f (change s) = ((f s).1, change (f s).2)) :
    Ignores change (act f : Stage σ ε α) := fun s => commutes_act (h s)

theorem ignores_gets {f : σ → α} (h : ∀ s, f (change s) = f s) :
    Ignores change (gets f : Stage σ ε α) := fun s => commutes_gets (h s)

theorem Ignores.bind {m : Stage σ ε α} {f : α → Stage σ ε β} (hm : Ignores change m)
    (hf : ∀ a, Ignores change (f a)) : Ignores change (m >>= f) :=
  fun s => (hm s).bind fun a s' _ => hf a s'

theorem Ignores.ite {c : Prop} [Decidable c] {m n : Stage σ ε α} (hm : Ignores change m)
    (hn : Ignores change n) : Ignores change (if c then m else n) :=
  fun s => .ite (fun _ => hm s) (fun _ => hn s)

end Commutes

end Stage

end R1Emu.Lib
