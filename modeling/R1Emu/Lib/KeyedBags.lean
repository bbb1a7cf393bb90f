import Mathlib.Logic.Function.Basic
import Mathlib.Data.List.Basic

/-!
# Two indexes of one collection

A collection of handles is indexed twice: by key in a partial map, and by class in lists. The
two indexes agree when each lists exactly the handles that the other one lists, under the key
and the class of their entries.
-/
namespace R1Emu.Lib

structure KeyedBags (K C H : Type*) where
  index : K → Option H
  bags : C → List H

variable {K C H : Type*} {t : KeyedBags K C H} {entry entry' : H → Option (K × C)}

namespace KeyedBags

/-- The indexes agree on the handles, whose keys and classes are given by their entries. -/
structure Agree (t : KeyedBags K C H) (entry : H → Option (K × C)) : Prop where
  nodup : ∀ c, (t.bags c).Nodup
  mem_bag : ∀ c h, h ∈ t.bags c ↔ ∃ k, entry h = some (k, c) ∧ t.index k = some h
  index_entry : ∀ k h, t.index k = some h → ∃ c, entry h = some (k, c)

def empty : KeyedBags K C H := ⟨fun _ => none, fun _ => []⟩

theorem agree_empty : (empty : KeyedBags K C H).Agree entry where
  nodup _ := List.nodup_nil
  mem_bag := by simp [empty]
  index_entry := by simp [empty]

theorem Agree.bag_eq (h : t.Agree entry) {c c' : C} {x : H} (hc : x ∈ t.bags c)
    (hc' : x ∈ t.bags c') : c = c' := by
  obtain ⟨k, hk, -⟩ := (h.mem_bag c x).mp hc
  obtain ⟨k', hk', -⟩ := (h.mem_bag c' x).mp hc'
  rw [hk] at hk'
  exact (Prod.mk.inj (Option.some.inj hk')).2

theorem Agree.mem_of_index (h : t.Agree entry) {k : K} {c : C} {x : H}
    (hx : t.index k = some x) (hentry : entry x = some (k, c)) : x ∈ t.bags c :=
  (h.mem_bag c x).mpr ⟨k, hentry, hx⟩

/-- The handles with equal keys are equal. -/
theorem Agree.key_injective (h : t.Agree entry) {k : K} {c c' : C} {x x' : H}
    (hx : x ∈ t.bags c) (hx' : x' ∈ t.bags c') (hk : entry x = some (k, c))
    (hk' : entry x' = some (k, c')) : x = x' := by
  obtain ⟨l, hl, hlx⟩ := (h.mem_bag c x).mp hx
  obtain ⟨l', hl', hlx'⟩ := (h.mem_bag c' x').mp hx'
  rw [hk] at hl
  rw [hk'] at hl'
  cases hl
  cases hl'
  exact Option.some.inj (hlx.symm.trans hlx')

/-- The entry of a handle that is not listed does not matter. -/
theorem Agree.of_unlisted (h : t.Agree entry) {x : H} (hx : ∀ k, t.index k ≠ some x)
    (hother : ∀ y, y ≠ x → entry' y = entry y) : t.Agree entry' := by
  have hlisted : ∀ k y, t.index k = some y → y ≠ x := fun k y hy he => hx k (he ▸ hy)
  constructor
  · exact h.nodup
  · intro c y
    rw [h.mem_bag c y]
    constructor
    · rintro ⟨k, hk, hy⟩
      exact ⟨k, by rw [hother y (hlisted k y hy), hk], hy⟩
    · rintro ⟨k, hk, hy⟩
      exact ⟨k, by rw [← hother y (hlisted k y hy), hk], hy⟩
  · intro k y hy
    rw [hother y (hlisted k y hy)]
    exact h.index_entry k y hy

variable [DecidableEq K] [DecidableEq C]

/-- List a handle under its key and its class. -/
def insert (t : KeyedBags K C H) (k : K) (c : C) (x : H) : KeyedBags K C H where
  index := Function.update t.index k (some x)
  bags := Function.update t.bags c (t.bags c ++ [x])

theorem insert_index (t : KeyedBags K C H) (k : K) (c : C) (x : H) :
    (t.insert k c x).index = Function.update t.index k (some x) := rfl

theorem insert_bags (t : KeyedBags K C H) (k : K) (c : C) (x : H) :
    (t.insert k c x).bags = Function.update t.bags c (t.bags c ++ [x]) := rfl

/-- A new handle with a new key enters both indexes. -/
theorem Agree.insert (h : t.Agree entry) {k : K} {c : C} {x : H} (hk : t.index k = none)
    (hx : entry x = none) (hentry : entry' x = some (k, c))
    (hother : ∀ y, y ≠ x → entry' y = entry y) : (t.insert k c x).Agree entry' := by
  have hnot : ∀ c', x ∉ t.bags c' := by
    intro c' hmem
    obtain ⟨l, hl, -⟩ := (h.mem_bag c' x).mp hmem
    rw [hx] at hl
    cases hl
  have hindex : ∀ l, t.index l ≠ some x := by
    intro l hl
    obtain ⟨c', hc'⟩ := h.index_entry l x hl
    rw [hx] at hc'
    cases hc'
  constructor
  · intro c'
    rw [insert_bags]
    by_cases hc : c' = c
    · subst hc
      rw [Function.update_self]
      rw [List.nodup_append]
      refine ⟨h.nodup c', by simp, fun a ha b hb he => ?_⟩
      rw [he, List.mem_singleton.mp hb] at ha
      exact hnot c' ha
    · rw [Function.update_of_ne hc]
      exact h.nodup c'
  · intro c' y
    by_cases hy : y = x
    · subst hy
      by_cases hc : c' = c
      · subst hc
        simp [KeyedBags.insert, hentry]
      · simp [KeyedBags.insert, hentry, hc, hnot c', Ne.symm hc]
    · rw [hother y hy]
      have hbag : y ∈ (t.insert k c x).bags c' ↔ y ∈ t.bags c' := by
        by_cases hc : c' = c
        · subst hc
          simp [KeyedBags.insert, hy]
        · simp [KeyedBags.insert, hc]
      rw [hbag, h.mem_bag c' y]
      constructor
      · rintro ⟨l, hl, hly⟩
        have hlk : l ≠ k := fun he => by
          rw [he, hk] at hly
          cases hly
        exact ⟨l, hl, by rw [insert_index, Function.update_of_ne hlk]; exact hly⟩
      · rintro ⟨l, hl, hly⟩
        by_cases hlk : l = k
        · rw [hlk, insert_index, Function.update_self] at hly
          exact absurd (Option.some.inj hly).symm hy
        · rw [insert_index, Function.update_of_ne hlk] at hly
          exact ⟨l, hl, hly⟩
  · intro l y hl
    by_cases hlk : l = k
    · rw [hlk, insert_index, Function.update_self] at hl
      obtain rfl := Option.some.inj hl
      exact ⟨c, by rw [hentry, hlk]⟩
    · rw [insert_index, Function.update_of_ne hlk] at hl
      rw [hother y fun he => hindex l (he ▸ hl)]
      exact h.index_entry l y hl

variable [DecidableEq H]

/-- Take a handle out of both indexes. -/
def erase (t : KeyedBags K C H) (k : K) (c : C) (x : H) : KeyedBags K C H where
  index := Function.update t.index k none
  bags := Function.update t.bags c ((t.bags c).erase x)

theorem erase_index (t : KeyedBags K C H) (k : K) (c : C) (x : H) :
    (t.erase k c x).index = Function.update t.index k none := rfl

theorem erase_bags (t : KeyedBags K C H) (k : K) (c : C) (x : H) :
    (t.erase k c x).bags = Function.update t.bags c ((t.bags c).erase x) := rfl

/-- The handle found under its key leaves both indexes. -/
theorem Agree.erase (h : t.Agree entry) {k : K} {c : C} {x : H} (hk : t.index k = some x)
    (hx : entry x = some (k, c)) (hother : ∀ y, y ≠ x → entry' y = entry y) :
    (t.erase k c x).Agree entry' := by
  have hmem : ∀ c' y, y ∈ (t.erase k c x).bags c' ↔ y ∈ t.bags c' ∧ y ≠ x := by
    intro c' y
    by_cases hc : c' = c
    · subst hc
      rw [erase_bags, Function.update_self, (h.nodup c').mem_erase_iff, and_comm]
    · have hnot : x ∉ t.bags c' := fun hmem =>
        hc (h.bag_eq hmem (h.mem_of_index hk hx))
      rw [erase_bags, Function.update_of_ne hc]
      exact ⟨fun hy => ⟨hy, fun he => hnot (he ▸ hy)⟩, fun hy => hy.1⟩
  have hindex : ∀ l y, (t.erase k c x).index l = some y ↔ t.index l = some y ∧ y ≠ x := by
    intro l y
    by_cases hlk : l = k
    · subst hlk
      rw [erase_index, Function.update_self, hk]
      constructor
      · exact fun he => nomatch he
      · exact fun he => absurd (Option.some.inj he.1).symm he.2
    · rw [erase_index, Function.update_of_ne hlk]
      refine ⟨fun hl => ⟨hl, fun he => hlk ?_⟩, fun hl => hl.1⟩
      obtain ⟨c', hc'⟩ := h.index_entry l y hl
      rw [he, hx] at hc'
      exact (Prod.mk.inj (Option.some.inj hc')).1.symm
  constructor
  · intro c'
    by_cases hc : c' = c
    · subst hc
      rw [erase_bags, Function.update_self]
      exact (h.nodup c').erase x
    · rw [erase_bags, Function.update_of_ne hc]
      exact h.nodup c'
  · intro c' y
    rw [hmem, h.mem_bag c' y]
    constructor
    · rintro ⟨⟨l, hl, hly⟩, hy⟩
      exact ⟨l, by rw [hother y hy]; exact hl, (hindex l y).mpr ⟨hly, hy⟩⟩
    · rintro ⟨l, hl, hly⟩
      obtain ⟨hly, hy⟩ := (hindex l y).mp hly
      rw [hother y hy] at hl
      exact ⟨⟨l, hl, hly⟩, hy⟩
  · intro l y hl
    obtain ⟨hl, hy⟩ := (hindex l y).mp hl
    rw [hother y hy]
    exact h.index_entry l y hl

end KeyedBags

end R1Emu.Lib
