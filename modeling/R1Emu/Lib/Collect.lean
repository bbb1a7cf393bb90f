import Mathlib.Data.List.Dedup
import Mathlib.Data.List.Perm.Basic

/-!
# Collecting from lists with repetitions

A function that has a result for some elements of a list collects one for each time that such
an element occurs. When a result tells the element that it is from, the list has what another
function collects without repetitions exactly when no such element is repeated and the two
functions agree.
-/
namespace R1Emu.Lib.Collect

variable {α β : Type*} {f g : α → Option β} {owner : β → α} {all once : List α}

theorem filterMap_eq_filter (f : α → Option β) (l : List α) :
    (l.filter fun a => (f a).isSome).filterMap f = l.filterMap f := by
  induction l with
  | nil => rfl
  | cons a l ih => cases h : f a <;> simp [h, ih]

/-- The owners of what is collected are the elements that have a result. -/
theorem map_owner_filterMap (howner : ∀ a b, f a = some b → owner b = a) (l : List α) :
    (l.filterMap f).map owner = l.filter fun a => (f a).isSome := by
  induction l with
  | nil => rfl
  | cons a l ih =>
    cases h : f a with
    | none => simp [h, ih]
    | some b => simp [h, ih, howner a b h]

theorem perm_filterMap_iff (hf : ∀ a b, f a = some b → owner b = a)
    (hg : ∀ a b, g a = some b → owner b = a) (honce : once.Nodup)
    (hmem : ∀ a, a ∈ once ↔ a ∈ all) :
    (all.filterMap f).Perm (once.filterMap g) ↔
      (all.filter fun a => (f a).isSome).Nodup ∧ ∀ a ∈ all, f a = g a := by
  constructor
  · intro hperm
    have howners := hperm.map owner
    rw [map_owner_filterMap hf, map_owner_filterMap hg] at howners
    refine ⟨howners.nodup_iff.mpr (honce.filter _), fun a ha => ?_⟩
    cases hfa : f a with
    | some b =>
      have hin : b ∈ once.filterMap g :=
        hperm.mem_iff.mp (List.mem_filterMap.mpr ⟨a, ha, hfa⟩)
      obtain ⟨a', -, hga⟩ := List.mem_filterMap.mp hin
      obtain rfl : a' = a := (hg a' b hga).symm.trans (hf a b hfa)
      exact hga.symm
    | none =>
      cases hga : g a with
      | none => rfl
      | some b =>
        have hin : b ∈ all.filterMap f :=
          hperm.mem_iff.mpr (List.mem_filterMap.mpr ⟨a, (hmem a).mpr ha, hga⟩)
        obtain ⟨a', -, hfa'⟩ := List.mem_filterMap.mp hin
        obtain rfl : a' = a := (hf a' b hfa').symm.trans (hg a b hga)
        rw [hfa] at hfa'
        cases hfa'
  · rintro ⟨hnodup, hagree⟩
    have hfound : (all.filter fun a => (f a).isSome).Perm
        (once.filter fun a => (f a).isSome) := by
      apply (List.perm_ext_iff_of_nodup hnodup (honce.filter _)).mpr
      intro a
      rw [List.mem_filter, List.mem_filter, hmem a]
    have hsame : once.filterMap f = once.filterMap g :=
      List.filterMap_congr fun a ha => hagree a ((hmem a).mp ha)
    have hcollected := hfound.filterMap f
    rwa [filterMap_eq_filter, filterMap_eq_filter, hsame] at hcollected

end R1Emu.Lib.Collect
