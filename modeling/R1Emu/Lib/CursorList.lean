import Mathlib.Data.List.Basic
import Mathlib.Tactic.Linarith
import Mathlib.Tactic.Ring

/-!
# Lists with one cursor

A list has a single cursor, which loops over the list and searches in it share. The cursor is
on an item, or on none; from none, it moves on to the head of the list. Removing the item
under the cursor moves the cursor back to the previous item, and appending resets it.

A loop may change the list it goes over. It reaches every item and ends if its body leaves the
list alone or removes the item under the cursor.
-/
namespace R1Emu.Lib

/-- The items up to the one under the cursor, and those behind it. The cursor is on no item
when none is passed. -/
structure CursorList (α : Type*) where
  passed : List α
  rest : List α

namespace CursorList

variable {α : Type*}

def empty : CursorList α := ⟨[], []⟩

def items (l : CursorList α) : List α := l.passed ++ l.rest

/-- The cursor on no item. -/
def rewind (l : CursorList α) : CursorList α := ⟨[], l.items⟩

/-- Move the cursor on, and give the item that it is on then. -/
def next (l : CursorList α) : Option α × CursorList α :=
  match l.rest with
  | [] => (none, l.rewind)
  | x :: rest => (some x, ⟨l.passed ++ [x], rest⟩)

def first (l : CursorList α) : Option α × CursorList α := l.rewind.next

def append (l : CursorList α) (x : α) : CursorList α := ⟨[], l.items ++ [x]⟩

@[simp] theorem items_mk (passed rest : List α) : items ⟨passed, rest⟩ = passed ++ rest := rfl

@[simp] theorem items_empty : (empty : CursorList α).items = [] := rfl

@[simp] theorem items_rewind (l : CursorList α) : l.rewind.items = l.items := rfl

@[simp] theorem rest_rewind (l : CursorList α) : l.rewind.rest = l.items := rfl

@[simp] theorem items_append (l : CursorList α) (x : α) : (l.append x).items = l.items ++ [x] := rfl

theorem next_nil {passed : List α} : next ⟨passed, []⟩ = (none, ⟨[], passed⟩) := by
  simp [next, rewind, items]

theorem next_cons {passed rest : List α} {x : α} :
    next ⟨passed, x :: rest⟩ = (some x, ⟨passed ++ [x], rest⟩) := rfl

@[simp] theorem items_next (l : CursorList α) : l.next.2.items = l.items := by
  obtain ⟨passed, rest⟩ := l
  cases rest with
  | nil => simp [next_nil, items]
  | cons x rest => simp [next_cons, items]

section Search

variable (p : α → Bool)

/-- Move on until the cursor is on an item that passes the test. -/
def seekFrom (passed : List α) : List α → Option α × CursorList α
  | [] => (none, ⟨[], passed⟩)
  | y :: rest =>
    if p y then (some y, ⟨passed ++ [y], rest⟩) else seekFrom (passed ++ [y]) rest

/-- Search from the head. The cursor stays on the item that is found. -/
def seek (l : CursorList α) : Option α × CursorList α := seekFrom p [] l.items

variable {p}

theorem seekFrom_none (passed : List α) {rest : List α} (hrest : ∀ y ∈ rest, p y = false) :
    seekFrom p passed rest = (none, ⟨[], passed ++ rest⟩) := by
  induction rest generalizing passed with
  | nil => simp [seekFrom]
  | cons y rest ih =>
    have hy := hrest y List.mem_cons_self
    rw [seekFrom, hy, if_neg Bool.false_ne_true,
      ih _ fun z hz => hrest z (List.mem_cons_of_mem _ hz), List.append_assoc,
      List.singleton_append]

theorem seekFrom_split (passed : List α) {before : List α} {x : α} (behind : List α)
    (hbefore : ∀ y ∈ before, p y = false) (hx : p x = true) :
    seekFrom p passed (before ++ x :: behind) = (some x, ⟨passed ++ before ++ [x], behind⟩) := by
  induction before generalizing passed with
  | nil => simp [seekFrom, hx]
  | cons y before ih =>
    have hy := hbefore y List.mem_cons_self
    rw [List.cons_append, seekFrom, hy, if_neg Bool.false_ne_true,
      ih _ fun z hz => hbefore z (List.mem_cons_of_mem _ hz)]
    simp

theorem seek_none {l : CursorList α} (hl : ∀ y ∈ l.items, p y = false) :
    l.seek p = (none, l.rewind) := by
  rw [seek, seekFrom_none [] hl]
  rfl

theorem seek_split {l : CursorList α} {before behind : List α} {x : α}
    (hl : l.items = before ++ x :: behind) (hbefore : ∀ y ∈ before, p y = false)
    (hx : p x = true) : l.seek p = (some x, ⟨before ++ [x], behind⟩) := by
  rw [seek, hl, seekFrom_split [] behind hbefore hx, List.nil_append]

/-- Nothing passes the test, or the first item that does is found. -/
theorem seek_cases (p : α → Bool) (l : CursorList α) :
    ((∀ y ∈ l.items, p y = false) ∧ l.seek p = (none, l.rewind)) ∨
      ∃ before x behind, l.items = before ++ x :: behind ∧ (∀ y ∈ before, p y = false) ∧
        p x = true ∧ l.seek p = (some x, ⟨before ++ [x], behind⟩) := by
  by_cases h : ∃ x ∈ l.items, p x = true
  · obtain ⟨y, hy, hpy⟩ := h
    obtain ⟨x, before, behind, hbefore, hx, hl, -⟩ := List.exists_of_eraseP hy hpy
    have hfalse : ∀ y ∈ before, p y = false := fun y hy => Bool.eq_false_iff.mpr (hbefore y hy)
    exact .inr ⟨before, x, behind, hl, hfalse, hx, seek_split hl hfalse hx⟩
  · simp only [not_exists, not_and, Bool.not_eq_true] at h
    exact .inl ⟨h, seek_none h⟩

@[simp] theorem items_seek (l : CursorList α) : (l.seek p).2.items = l.items := by
  rcases seek_cases p l with ⟨-, h⟩ | ⟨before, x, behind, hl, -, -, h⟩
  · rw [h, items_rewind]
  · rw [h, hl]
    simp [items]

variable [DecidableEq α]

/-- Remove the first occurrence of an item. -/
def remove (l : CursorList α) (x : α) : CursorList α :=
  if x ∈ l.passed then ⟨l.passed.erase x, l.rest⟩ else ⟨l.passed, l.rest.erase x⟩

@[simp] theorem items_remove (l : CursorList α) (x : α) : (l.remove x).items = l.items.erase x := by
  unfold remove items
  rw [List.erase_append]
  split <;> rfl

/-- Removing the item under the cursor. -/
theorem remove_at_cursor {passed : List α} (rest : List α) {x : α} (hx : x ∉ passed) :
    remove ⟨passed ++ [x], rest⟩ x = ⟨passed, rest⟩ := by
  have hmem : x ∈ passed ++ [x] := List.mem_append_right _ (List.mem_singleton_self x)
  rw [remove, if_pos hmem, List.erase_append_right _ hx, List.erase_cons_head, List.append_nil]

end Search

section Loop

variable {σ : Type*} (list : σ → CursorList α) (put : CursorList α → σ → σ) (body : α → σ → σ)

/-- Go on with a loop over a list that is part of a state, which the body may change. It gives
the items that the loop comes by. -/
def loopNext : ℕ → σ → Option (List α × σ)
  | 0, _ => none
  | fuel + 1, s =>
    match (list s).next with
    | (none, l) => some ([], put l s)
    | (some x, l) => (loopNext fuel (body x (put l s))).map fun r => (x :: r.1, r.2)

/-- More steps than a loop needs. -/
def loopFuel (l : CursorList α) : ℕ := (l.items.length + 1) * (l.items.length + 1)

/-- `for (x = first; x; x = next) body`. -/
def loop (s : σ) : Option (List α × σ) :=
  loopNext list put body (loopFuel (list s)) (put (list s).rewind s)

/-- What a loop does to the list when it comes by `x`: nothing if `x` is to stay; otherwise it
removes `x`, and may reset the cursor. -/
def Visited (stays : α → Prop) (x : α) (passed rest : List α) (l : CursorList α) : Prop :=
  (stays x ∧ l = ⟨passed ++ [x], rest⟩) ∨
    (¬ stays x ∧ (l = ⟨passed, rest⟩ ∨ l = ⟨[], passed ++ rest⟩))

def weight (l : CursorList α) : ℕ := l.items.length * (l.items.length + 1) + l.rest.length

theorem weight_lt_loopFuel (l : CursorList α) : l.weight < loopFuel l := by
  have hrest : l.rest.length ≤ l.items.length := by
    rw [items, List.length_append]
    exact Nat.le_add_left _ _
  unfold weight loopFuel
  nlinarith

variable {list put body} {stays : α → Prop} {P : List α → σ → Prop}

theorem Visited.weight_lt {x : α} {passed rest : List α} {l : CursorList α}
    (h : Visited stays x passed rest l) : l.weight < weight ⟨passed, x :: rest⟩ := by
  rcases h with ⟨-, rfl⟩ | ⟨-, rfl | rfl⟩
  · simp [weight, items, Nat.add_assoc]
  · simp only [weight, items, List.length_append, List.length_cons]
    nlinarith
  · simp only [weight, items, List.length_append, List.length_cons, List.nil_append]
    nlinarith

theorem Visited.passed_stays {x : α} {passed rest : List α} {l : CursorList α}
    (h : Visited stays x passed rest l) (hpassed : ∀ y ∈ passed, stays y) :
    ∀ y ∈ l.passed, stays y := by
  rcases h with ⟨hx, rfl⟩ | ⟨-, rfl | rfl⟩
  · intro y hy
    rcases List.mem_append.mp hy with hy | hy
    · exact hpassed y hy
    · rwa [List.mem_singleton.mp hy]
  · exact hpassed
  · exact fun y hy => absurd hy List.not_mem_nil

theorem Visited.rest_subset {x : α} {passed rest : List α} {l : CursorList α}
    (h : Visited stays x passed rest l) : ∀ y ∈ rest, y ∈ l.rest := by
  intro y hy
  rcases h with ⟨-, rfl⟩ | ⟨-, rfl | rfl⟩
  · exact hy
  · exact hy
  · exact List.mem_append_right _ hy

/-- The rule for loops that remove items from the list they go over. The invariant speaks of
the items that the loop has come by. -/
theorem loopNext_spec (hlist : ∀ l s, list (put l s) = l)
    (hput : ∀ seen l s, l.items = (list s).items → P seen s → P seen (put l s))
    (hbody : ∀ seen x s passed rest, P seen s → list s = ⟨passed ++ [x], rest⟩ →
      (∀ y ∈ passed, stays y) →
      P (seen ++ [x]) (body x s) ∧ Visited stays x passed rest (list (body x s)))
    (fuel : ℕ) (seen : List α) (s : σ) (hs : P seen s) (hpassed : ∀ y ∈ (list s).passed, stays y)
    (hfuel : (list s).weight < fuel) :
    ∃ visited s', loopNext list put body fuel s = some (visited, s') ∧ P (seen ++ visited) s' ∧
      (∀ y ∈ (list s').items, stays y) ∧ ∀ y ∈ (list s).rest, y ∈ visited := by
  induction fuel generalizing seen s with
  | zero => exact absurd hfuel (Nat.not_lt_zero _)
  | succ fuel ih =>
    rcases hl : list s with ⟨passed, _ | ⟨x, rest⟩⟩
    · rw [hl] at hpassed
      refine ⟨[], put ⟨[], passed⟩ s, ?_, ?_, ?_, ?_⟩
      · rw [loopNext, hl, next_nil]
      · rw [List.append_nil]
        refine hput _ _ _ ?_ hs
        simp [hl, items]
      · rw [hlist]
        exact hpassed
      · exact fun y hy => absurd hy List.not_mem_nil
    · rw [hl] at hpassed hfuel
      have hmoved : P seen (put ⟨passed ++ [x], rest⟩ s) := by
        refine hput _ _ _ ?_ hs
        simp [hl, items]
      obtain ⟨hP, hvisited⟩ := hbody seen x _ passed rest hmoved (hlist _ _) hpassed
      have hless := hvisited.weight_lt
      obtain ⟨visited, s', hrun, hP', hstay, hall⟩ :=
        ih _ _ hP (hvisited.passed_stays hpassed) (by omega)
      refine ⟨x :: visited, s', ?_, ?_, hstay, ?_⟩
      · rw [loopNext, hl, next_cons]
        simp [hrun]
      · rwa [List.append_assoc, List.singleton_append] at hP'
      · intro y hy
        rcases List.mem_cons.mp hy with rfl | hy
        · exact List.mem_cons_self
        · exact List.mem_cons_of_mem _ (hall y (hvisited.rest_subset y hy))

variable (list put body stays P) in
/-- The loop ends. It has come by every item, and those that are left in the list stay. -/
theorem loop_spec (hlist : ∀ l s, list (put l s) = l)
    (hput : ∀ seen l s, l.items = (list s).items → P seen s → P seen (put l s))
    (hbody : ∀ seen x s passed rest, P seen s → list s = ⟨passed ++ [x], rest⟩ →
      (∀ y ∈ passed, stays y) →
      P (seen ++ [x]) (body x s) ∧ Visited stays x passed rest (list (body x s)))
    (s : σ) (hs : P [] s) :
    ∃ visited s', loop list put body s = some (visited, s') ∧ P visited s' ∧
      (∀ y ∈ (list s').items, stays y) ∧ ∀ y ∈ (list s).items, y ∈ visited := by
  have hweight := weight_lt_loopFuel (list s).rewind
  obtain ⟨visited, s', hrun, hP, hstay, hall⟩ :=
    loopNext_spec hlist hput hbody (loopFuel (list s)) [] (put (list s).rewind s)
      (hput _ _ _ (items_rewind _) hs)
      (by rw [hlist]; exact fun y hy => absurd hy List.not_mem_nil)
      (by rw [hlist]; exact hweight)
  rw [hlist, rest_rewind] at hall
  exact ⟨visited, s', hrun, hP, hstay, hall⟩

theorem loopNext_of_kept (hlist : ∀ l s, list (put l s) = l)
    (hbody : ∀ x s, list (body x s) = list s) (fuel : ℕ) (s : σ)
    (hfuel : (list s).rest.length < fuel) :
    ∃ s', loopNext list put body fuel s = some ((list s).rest, s') := by
  induction fuel generalizing s with
  | zero => exact absurd hfuel (Nat.not_lt_zero _)
  | succ fuel ih =>
    rcases hl : list s with ⟨passed, _ | ⟨x, rest⟩⟩
    · refine ⟨put ⟨[], passed⟩ s, ?_⟩
      rw [loopNext, hl, next_nil]
    · have hrest : list (body x (put ⟨passed ++ [x], rest⟩ s)) = ⟨passed ++ [x], rest⟩ := by
        rw [hbody, hlist]
      rw [hl] at hfuel
      obtain ⟨s', hrun⟩ := ih (body x (put ⟨passed ++ [x], rest⟩ s)) (by
        rw [hrest]
        exact Nat.lt_of_succ_lt_succ hfuel)
      refine ⟨s', ?_⟩
      rw [loopNext, hl, next_cons]
      simp [hrun, hrest]

variable (list put body) in
/-- A loop whose body leaves the list alone comes by its items, each once and in order. -/
theorem loop_of_kept (hlist : ∀ l s, list (put l s) = l)
    (hbody : ∀ x s, list (body x s) = list s) (s : σ) :
    ∃ s', loop list put body s = some ((list s).items, s') := by
  have hfuel : (list s).items.length < loopFuel (list s).rewind := by
    have h := weight_lt_loopFuel (list s).rewind
    rw [weight, rest_rewind] at h
    omega
  have h := loopNext_of_kept hlist hbody (loopFuel (list s)) (put (list s).rewind s)
  rw [hlist, rest_rewind] at h
  exact h hfuel

end Loop

section Iterate

universe u
variable {σ β : Type u} (step : σ → Option (Option β × σ)) (body : β → σ → Option σ)

/-- `for (; x; x = step()) body`, where the step and the body may fail. -/
def iterate : ℕ → Option β → σ → Option σ
  | 0, _, _ => none
  | _ + 1, none, s => some s
  | fuel + 1, some x, s => do
    let s ← body x s
    let next ← step s
    iterate fuel next.1 next.2

variable (P : List α → σ → Prop)

/-- The rule for a loop whose body may move the cursor of the list, but puts it back on the
item that the loop is on. The invariant speaks of the items that the loop has come by. -/
theorem iterate_kept (list : σ → CursorList α) (value : α → β)
    (hstep : ∀ s passed x rest, list s = ⟨passed, x :: rest⟩ → P passed s →
      ∃ s', step s = some (some (value x), s') ∧ list s' = ⟨passed ++ [x], rest⟩ ∧ P passed s')
    (hend : ∀ s passed, list s = ⟨passed, []⟩ → P passed s →
      ∃ s', step s = some (none, s') ∧ P passed s')
    (hbody : ∀ s passed x rest, list s = ⟨passed ++ [x], rest⟩ → P passed s →
      ∃ s', body (value x) s = some s' ∧ list s' = ⟨passed ++ [x], rest⟩ ∧ P (passed ++ [x]) s')
    {passed rest : List α} {s : σ} {fuel : ℕ} (hlist : list s = ⟨passed, rest⟩) (hs : P passed s)
    (hfuel : rest.length < fuel) :
    ∃ x s' t, step s = some (x, s') ∧ iterate step body fuel x s' = some t ∧
      P (passed ++ rest) t := by
  induction rest generalizing passed s fuel with
  | nil =>
    obtain ⟨s', hs', hP⟩ := hend s passed hlist hs
    cases fuel with
    | zero => exact absurd hfuel (Nat.not_lt_zero _)
    | succ fuel => exact ⟨none, s', s', hs', rfl, by rwa [List.append_nil]⟩
  | cons x rest ih =>
    obtain ⟨s₁, hs₁, hlist₁, hP₁⟩ := hstep s passed x rest hlist hs
    obtain ⟨s₂, hs₂, hlist₂, hP₂⟩ := hbody s₁ passed x rest hlist₁ hP₁
    cases fuel with
    | zero => exact absurd hfuel (Nat.not_lt_zero _)
    | succ fuel =>
      obtain ⟨y, s₃, t, hs₃, ht, hP⟩ := ih hlist₂ hP₂ (Nat.lt_of_succ_lt_succ hfuel)
      refine ⟨some (value x), s₁, t, hs₁, ?_, ?_⟩
      · simp [iterate, hs₂, hs₃, ht]
      · rwa [List.append_assoc, List.singleton_append] at hP

end Iterate

end CursorList

end R1Emu.Lib
