import Mathlib.Data.List.Basic

/-!
# Searching a text

A pattern is searched from the front of a text. Where one of its characters is missing it does not
occur, so that such a part of a text is skipped.
-/
namespace R1Emu.Lib.Search

variable {α : Type*} [DecidableEq α]

/-- `strstr`: the position of the first occurrence. -/
def strstr (pattern : List α) : List α → Option ℕ
  | [] => if pattern = [] then some 0 else none
  | c :: s => if pattern.isPrefixOf (c :: s) then some 0 else (strstr pattern s).map (· + 1)

variable {p : α} {pattern front s : List α} {i : ℕ}

theorem strstr_self (hpattern : pattern ≠ []) : strstr pattern (pattern ++ s) = some 0 := by
  obtain ⟨c, rest, rfl⟩ := List.exists_cons_of_ne_nil hpattern
  rw [List.cons_append, strstr, if_pos]
  rw [← List.cons_append]
  exact List.isPrefixOf_iff_prefix.mpr (List.prefix_append _ _)

/-- No occurrence starts in a part without the pattern's first character. -/
theorem strstr_skip (h : p ∉ front) :
    strstr (p :: pattern) (front ++ s) = (strstr (p :: pattern) s).map (· + front.length) := by
  induction front with
  | nil => simp
  | cons c front ih =>
    have hfront := List.ne_and_not_mem_of_not_mem_cons h
    rw [List.cons_append, strstr, if_neg (by simp [List.isPrefixOf, hfront.1]), ih hfront.2,
      Option.map_map]
    rfl

theorem strstr_eq_none (hmem : p ∈ pattern) (h : p ∉ s) : strstr pattern s = none := by
  induction s with
  | nil => simp [strstr, List.ne_nil_of_mem hmem]
  | cons c s ih =>
    have hprefix : ¬ pattern.isPrefixOf (c :: s) := fun hprefix =>
      h ((List.isPrefixOf_iff_prefix.mp hprefix).subset hmem)
    rw [strstr, if_neg hprefix, ih (List.ne_and_not_mem_of_not_mem_cons h).2]
    rfl

/-- The first occurrence of a pattern with a character that is not in front of it. -/
theorem strstr_of_notMem {a b : List α} (ha : p ∉ a) (h : p ∉ front) :
    strstr (a ++ p :: b) (front ++ (a ++ p :: b) ++ s) = some front.length := by
  induction front with
  | nil =>
    rw [List.nil_append]
    exact strstr_self (by simp)
  | cons c front ih =>
    have hfront := List.ne_and_not_mem_of_not_mem_cons h
    have hprefix : ¬ (a ++ p :: b).isPrefixOf (c :: (front ++ (a ++ p :: b) ++ s)) := by
      intro hprefix
      -- The character that is not in front would be one of the part in front.
      have hget := (List.isPrefixOf_iff_prefix.mp hprefix).getElem (by simp : a.length < _)
      have hpart : p ∈ c :: (front ++ a) := by
        have htext : c :: (front ++ (a ++ p :: b) ++ s) = c :: (front ++ a) ++ (p :: b ++ s) := by
          simp
        simp only [htext] at hget
        have hlt : a.length < (c :: (front ++ a)).length := by
          rw [List.length_cons, List.length_append]
          omega
        rw [List.getElem_append_right (Nat.le_refl _), List.getElem_append_left hlt] at hget
        simp only [Nat.sub_self, List.getElem_cons_zero] at hget
        exact hget ▸ List.getElem_mem _
      simp [hfront.1, hfront.2, ha] at hpart
    rw [List.cons_append, List.cons_append, strstr, if_neg hprefix, ih hfront.2]
    rfl

theorem le_of_strstr (h : strstr pattern s = some i) : i + pattern.length ≤ s.length := by
  induction s generalizing i with
  | nil =>
    rw [strstr] at h
    split at h
    case isTrue hnil =>
      cases h
      simp [hnil]
    case isFalse => cases h
  | cons c s ih =>
    rw [strstr] at h
    split at h
    case isTrue hprefix =>
      cases h
      rw [Nat.zero_add]
      exact (List.isPrefixOf_iff_prefix.mp hprefix).length_le
    case isFalse =>
      obtain ⟨j, hj, rfl⟩ := Option.map_eq_some_iff.mp h
      have hrest := ih hj
      rw [List.length_cons]
      omega

end R1Emu.Lib.Search
