import Mathlib.Data.List.TakeWhile

/-!
# Words

The words of a text are its maximal runs of elements other than the separator.
-/
namespace R1Emu.Lib.Words

variable {α : Type*} [DecidableEq α]

/-- The pieces between the separators, without the empty ones. -/
def words (c : α) (s : List α) : List (List α) := (s.splitOn c).filter (· ≠ [])

/-- What is in front of the first separator. -/
def firstPiece (c : α) (s : List α) : List α := s.takeWhile (· ≠ c)

/-- The first separator, and what is behind it. -/
def afterPiece (c : α) (s : List α) : List α := s.dropWhile (· ≠ c)

variable {c x : α} {s w : List α}

theorem firstPiece_append_afterPiece : firstPiece c s ++ afterPiece c s = s :=
  List.takeWhile_append_dropWhile

theorem notMem_firstPiece : c ∉ firstPiece c s := by
  intro hmem
  simpa using List.mem_takeWhile_imp hmem

theorem firstPiece_cons (h : x ≠ c) : firstPiece c (x :: s) = x :: firstPiece c s :=
  List.takeWhile_cons_of_pos (by simpa using h)

theorem afterPiece_cons (h : x ≠ c) : afterPiece c (x :: s) = afterPiece c s :=
  List.dropWhile_cons_of_pos (by simpa using h)

@[simp] theorem firstPiece_sep : firstPiece c (c :: s) = [] :=
  List.takeWhile_cons_of_neg (by simp)

@[simp] theorem afterPiece_sep : afterPiece c (c :: s) = c :: s :=
  List.dropWhile_cons_of_neg (by simp)

theorem length_afterPiece_le : (afterPiece c s).length ≤ s.length :=
  (List.dropWhile_suffix _).length_le

theorem afterPiece_eq_nil_or : afterPiece c s = [] ∨ ∃ t, afterPiece c s = c :: t := by
  induction s with
  | nil => exact Or.inl rfl
  | cons x s ih =>
    by_cases hx : x = c
    · subst hx
      exact Or.inr ⟨s, afterPiece_sep⟩
    · rwa [afterPiece_cons hx]

@[simp] theorem words_nil : words c [] = [] := by simp [words]

theorem words_append_sep (s t : List α) : words c (s ++ c :: t) = words c s ++ words c t := by
  rw [words, List.splitOn_append_cons_self, List.filter_append]
  rfl

@[simp] theorem words_sep (s : List α) : words c (c :: s) = words c s := by
  simpa using words_append_sep [] s

/-- A text without separators is one word. -/
theorem words_of_notMem (hs : s ≠ []) (h : c ∉ s) : words c s = [s] := by
  rw [words, List.splitOn_eq_singleton h]
  simp [hs]

/-- Texts with separators between them. -/
theorem words_intercalate (ws : List (List α)) :
    words c (List.intercalate [c] ws) = ws.flatMap (words c) := by
  induction ws with
  | nil => exact words_nil
  | cons w ws ih =>
    cases ws with
    | nil => simp
    | cons w' ws =>
      rw [List.intercalate_cons_cons, List.append_assoc, List.singleton_append, words_append_sep, ih]
      rfl

/-- The first word and the words behind it. -/
theorem words_cons (h : x ≠ c) :
    words c (x :: s) = firstPiece c (x :: s) :: words c (afterPiece c (x :: s)) := by
  have hfirst : firstPiece c (x :: s) ≠ [] := by simp [firstPiece_cons h]
  have hsplit : words c (firstPiece c (x :: s) ++ afterPiece c (x :: s)) =
      firstPiece c (x :: s) :: words c (afterPiece c (x :: s)) := by
    have hword := words_of_notMem hfirst notMem_firstPiece
    rcases afterPiece_eq_nil_or (c := c) (s := x :: s) with hnil | ⟨t, ht⟩
    · rw [hnil, List.append_nil, hword, words_nil]
    · rw [ht, words_append_sep, hword, words_sep]
      rfl
  rwa [firstPiece_append_afterPiece] at hsplit

/-- What is left behind a word is shorter. -/
theorem length_afterPiece_lt (h : x ≠ c) :
    (afterPiece c (x :: s)).length < (x :: s).length := by
  rw [afterPiece_cons h]
  exact Nat.lt_succ_of_le length_afterPiece_le

/-- A text is taken apart by its separators and words. -/
@[elab_as_elim]
theorem words_induction {motive : List α → Prop} (c : α) (nil : motive [])
    (sep : ∀ s, motive s → motive (c :: s))
    (word : ∀ x s, x ≠ c → motive (afterPiece c (x :: s)) → motive (x :: s)) (s : List α) :
    motive s := by
  induction hlength : s.length using Nat.strong_induction_on generalizing s with
  | _ n ih =>
    cases s with
    | nil => exact nil
    | cons x s =>
      by_cases hx : x = c
      · subst hx
        exact sep s (ih _ (by rw [← hlength, List.length_cons]; exact Nat.lt_succ_self _) s rfl)
      · exact word x s hx (ih _ (hlength ▸ length_afterPiece_lt hx) _ rfl)

theorem sublist_of_mem_words (hw : w ∈ words c s) : w.Sublist s := by
  induction s using words_induction c with
  | nil => simp at hw
  | sep s ih =>
    rw [words_sep] at hw
    exact (ih hw).cons c
  | word x s hx ih =>
    rw [words_cons hx] at hw
    rcases List.mem_cons.mp hw with rfl | hw
    · exact (List.takeWhile_prefix _).sublist
    · exact (ih hw).trans (List.dropWhile_suffix _).sublist

theorem notMem_of_mem_words (hw : w ∈ words c s) : c ∉ w := by
  induction s using words_induction c with
  | nil => simp at hw
  | sep s ih =>
    rw [words_sep] at hw
    exact ih hw
  | word x s hx ih =>
    rw [words_cons hx] at hw
    rcases List.mem_cons.mp hw with rfl | hw
    · exact notMem_firstPiece
    · exact ih hw

/-- A text with a separator is more than one word. -/
theorem length_word_lt (hs : c ∈ s) (hw : w ∈ words c s) : w.length < s.length := by
  have hsub := sublist_of_mem_words hw
  apply lt_of_le_of_ne hsub.length_le
  intro hlength
  exact notMem_of_mem_words hw (hsub.eq_of_length hlength ▸ hs)

/-- Between two words there is a separator. -/
theorem length_words_le (c : α) (s : List α) : 2 * (words c s).length ≤ s.length + 1 := by
  have hstrong : 2 * (words c s).length ≤ s.length + 1 ∧
      ∀ t, s = c :: t → 2 * (words c s).length ≤ s.length := by
    induction s using words_induction c with
    | nil => simp
    | sep s ih =>
      rw [words_sep, List.length_cons]
      exact ⟨by omega, fun _ _ => ih.1⟩
    | word x s hx ih =>
      have hshort := length_afterPiece_lt (s := s) hx
      refine ⟨?_, fun t ht => absurd (List.cons.inj ht).1 hx⟩
      rw [words_cons hx, List.length_cons]
      rcases afterPiece_eq_nil_or (c := c) (s := x :: s) with hnil | ⟨t, ht⟩
      · rw [hnil, words_nil, List.length_cons]
        simp
      · have hih := ih.2 t ht
        omega
  exact hstrong.1

end R1Emu.Lib.Words
