import R1Emu.Lib.Buffer
import R1Emu.Lib.Words

/-!
# Splitting a string

A first pass counts the words of a string, a second one copies them: each word goes into a
work buffer and from there into memory of its own. The buffer has the length of the string,
which leaves no room for the terminator of a word that is the whole string.
-/
namespace R1Emu.Utils
open R1Emu.Lib.Buffer R1Emu.Lib.Words

/-! ### The two passes -/

/-- What happens to the requests for memory of a call, in their order, and what fresh memory
holds. -/
structure Allocations where
  succeeds : ℕ → Bool
  fresh : ℕ → UInt8

inductive Pointer
  | indeterminate
  | null
  | string (chars : List UInt8)

/-- Before the character at `i`. -/
def wordCountLoop (c : UInt8) : List UInt8 → (i k : ℕ) → (lastchar : UInt8) → Option ℕ
  | [], _, k, _ => some k
  | x :: s, i, k, lastchar =>
    (if x ≠ c ∧ lastchar = c then incr k else some k).bind fun k =>
      (incr i).bind fun i => wordCountLoop c s i k x

def wordCount (s : ZString) (c : UInt8) : Option ℕ := wordCountLoop c s.chars 0 0 c

/-- Copy a word: the number of its characters, where the string goes on, and the buffer. -/
def copyWord (c : UInt8) : List UInt8 → (i j : ℕ) → (buffer : List UInt8) →
    Option (ℕ × ℕ × List UInt8)
  | [], i, j, buffer => some (i, j, buffer)
  | x :: s, i, j, buffer =>
    if x = c then some (i, j, buffer)
    else (put buffer j x).bind fun buffer =>
      (incr i).bind fun i => (incr j).bind fun j => copyWord c s i j buffer

def strdup (succeeds : Bool) (buffer : List UInt8) : Option Pointer :=
  (cstring buffer 0).map fun chars => if succeeds then .string chars else .null

/-- `lastchar` is the last separator as long as words are copied as a whole. -/
def tabFillLoop (m : Allocations) (c : UInt8) (s : List UInt8) (i k : ℕ) (lastchar : UInt8)
    (buffer : List UInt8) (splitted : List Pointer) : Option (List Pointer) :=
  match s with
  | [] => some splitted
  | x :: s =>
    if x ≠ c ∧ lastchar = c then
      (copyWord c (x :: s) i 0 buffer).bind fun (i, j, buffer) =>
        (put buffer j 0).bind fun buffer =>
          (strdup (m.succeeds (2 + k)) buffer).bind fun entry =>
            (put splitted k entry).bind fun splitted =>
              (incr k).bind fun k =>
                tabFillLoop m c (afterPiece c (x :: s)) i k lastchar buffer splitted
    else (incr i).bind fun i => tabFillLoop m c s i k x buffer splitted
termination_by s.length
decreasing_by
  · rename_i hword
    exact length_afterPiece_lt hword.1
  · exact Nat.lt_succ_self _

/-- The array of the words, or `NULL`. -/
def tabFill (m : Allocations) (s : ZString) (c : UInt8) (splitted : List Pointer)
    (lastchar : UInt8) : Option (Option (List Pointer)) :=
  if !m.succeeds 1 then some none
  else
    let buffer := (List.range s.chars.length).map m.fresh
    (tabFillLoop m c s.chars 0 0 lastchar buffer splitted).map some

def strSplit (m : Allocations) (s : ZString) (c : UInt8) : Option (Option (List Pointer)) :=
  (wordCount s c).bind fun i => (incr i).bind fun size =>
    if !m.succeeds 0 then some none
    else
      (tabFill m s c (List.replicate size .indeterminate) c).bind fun splitted =>
        -- a store through `NULL` when the buffer could not be allocated
        splitted.bind fun splitted => (put splitted i .null).map some

/-- The words of the string and a null pointer behind them. -/
def SplitsExactly (m : Allocations) (s : ZString) (c : UInt8) : Prop :=
  wordCount s c = some (words c s.chars).length ∧
    strSplit m s c = some (some ((words c s.chars).map .string ++ [.null]))

/-! ### Counting -/

section Counting

variable {c lastchar : UInt8} {s : List UInt8} {i k : ℕ}

/-- The words of the rest, without the one that the last character belongs to. -/
def wordsAhead (c lastchar : UInt8) (s : List UInt8) : List (List UInt8) :=
  if lastchar = c then words c s else words c (afterPiece c s)

theorem wordCountLoop_eq (hk : k ≤ i) (hi : i + s.length ≤ intMax) :
    wordCountLoop c s i k lastchar = some (k + (wordsAhead c lastchar s).length) := by
  induction s generalizing i k lastchar with
  | nil => simp [wordCountLoop, wordsAhead, afterPiece]
  | cons x s ih =>
    rw [List.length_cons] at hi
    have hi' : incr i = some (i + 1) := incr_of_lt (by omega)
    have hk' : incr k = some (k + 1) := incr_of_lt (by omega)
    rw [wordCountLoop]
    by_cases hx : x = c
    · subst hx
      have hahead : wordsAhead x lastchar (x :: s) = wordsAhead x x s := by simp [wordsAhead]
      rw [if_neg (by simp), hahead, Option.bind_some, hi', Option.bind_some,
        ih (by omega) (by omega)]
    · have hbehind : wordsAhead c x s = words c (afterPiece c s) := if_neg hx
      by_cases hlast : lastchar = c
      · have hahead : (wordsAhead c lastchar (x :: s)).length = (wordsAhead c x s).length + 1 := by
          rw [hbehind, wordsAhead, if_pos hlast, words_cons hx, List.length_cons,
            afterPiece_cons hx]
        rw [if_pos ⟨hx, hlast⟩, hahead, hk', Option.bind_some, hi', Option.bind_some,
          ih (by omega) (by omega)]
        congr 1
        omega
      · have hahead : wordsAhead c lastchar (x :: s) = wordsAhead c x s := by
          rw [hbehind, wordsAhead, if_neg hlast, afterPiece_cons hx]
        rw [if_neg fun h => hlast h.2, hahead, Option.bind_some, hi', Option.bind_some,
          ih (by omega) (by omega)]

/-- The counter of the characters overflows. -/
theorem wordCountLoop_overflow (hi : i ≤ intMax) (hlong : intMax < i + s.length) :
    wordCountLoop c s i k lastchar = none := by
  induction s generalizing i k lastchar with
  | nil => simp at hlong; omega
  | cons x s ih =>
    rw [List.length_cons] at hlong
    rw [wordCountLoop]
    apply Option.bind_eq_none_iff.mpr
    intro k _
    by_cases hlt : i < intMax
    · rw [incr_of_lt hlt, Option.bind_some]
      exact ih hlt (by omega)
    · rw [incr_of_le (Nat.le_of_not_lt hlt), Option.bind_none]

end Counting

theorem wordCount_eq (s : ZString) (c : UInt8) : wordCount s c =
    if s.chars.length ≤ intMax then some (words c s.chars).length else none := by
  rw [wordCount]
  split
  case isTrue h =>
    rw [wordCountLoop_eq le_rfl (by omega), wordsAhead, if_pos rfl, Nat.zero_add]
  case isFalse h => exact wordCountLoop_overflow (Nat.zero_le _) (by omega)

/-! ### Copying one word -/

section Copying

variable {c : UInt8} {s piece buffer : List UInt8} {i j : ℕ}

theorem copyWord_eq (hj : j ≤ i) (hi : i + s.length ≤ intMax)
    (hfits : j + (firstPiece c s).length ≤ buffer.length) : copyWord c s i j buffer =
      some (i + (firstPiece c s).length, j + (firstPiece c s).length,
        written buffer j (firstPiece c s)) := by
  induction s generalizing i j buffer with
  | nil => simp [copyWord, firstPiece, written]
  | cons x s ih =>
    rw [copyWord]
    by_cases hx : x = c
    · subst hx
      simp [written]
    · rw [firstPiece_cons hx, List.length_cons] at hfits
      rw [List.length_cons] at hi
      have hput : put buffer j x = some (buffer.set j x) := put_of_lt x (by omega)
      rw [if_neg hx, hput, Option.bind_some, incr_of_lt (by omega), Option.bind_some,
        incr_of_lt (by omega), Option.bind_some,
        ih (by omega) (by omega) (by rw [List.length_set]; omega), written_cons x (by omega),
        firstPiece_cons hx, List.length_cons]
      congr 2
      · omega
      · congr 1
        omega

/-- The terminator ends the copy where the piece ends. -/
theorem put_written (succeeds : Bool) (hlength : piece.length < buffer.length) (hzero : 0 ∉ piece) :
    ∃ buffer', put (written buffer 0 piece) piece.length 0 = some buffer' ∧
      buffer'.length = buffer.length ∧
      strdup succeeds buffer' = some (if succeeds then .string piece else .null) := by
  refine ⟨_, put_terminator hlength, ?_, ?_⟩
  · rw [List.length_append, List.length_cons, List.length_drop]
    omega
  · rw [strdup, cstring_of_mem (by simp), List.drop_zero, takeWhile_terminated hzero,
      Option.map_some]

/-- There is no room for the terminator of a word that fills the buffer. -/
theorem put_written_full (hlength : buffer.length = piece.length) :
    put (written buffer 0 piece) piece.length 0 = none := by
  have hfull : written buffer 0 piece = piece := by
    rw [written_front, ← hlength, List.drop_length, List.append_nil]
  rw [hfull, put, if_neg (Nat.lt_irrefl _)]

end Copying

/-! ### Filling the array -/

/-- The pointers to the copies of these words, of which the first is word `k`. -/
def entries (m : Allocations) (k : ℕ) (ws : List (List UInt8)) : List Pointer :=
  ws.mapIdx fun n w => if m.succeeds (2 + (k + n)) then .string w else .null

theorem entries_cons (m : Allocations) (k : ℕ) (w : List UInt8) (ws : List (List UInt8)) :
    entries m k (w :: ws) =
      (if m.succeeds (2 + k) then .string w else .null) :: entries m (k + 1) ws := by
  have hshift : ∀ n, 2 + (k + (n + 1)) = 2 + (k + 1 + n) := fun n => by omega
  simp only [entries, List.mapIdx_cons, Nat.add_zero, hshift]

theorem tabFillLoop_eq {m : Allocations} {c : UInt8} {s buffer : List UInt8} {i : ℕ}
    {splitted : List Pointer} (done rest : List Pointer) (hs : 0 ∉ s) (hi : i + s.length ≤ intMax)
    (hk : done.length ≤ i) (hbuffer : ∀ w ∈ words c s, w.length < buffer.length)
    (hsplitted : splitted = done ++ rest) (hrest : (words c s).length ≤ rest.length) :
    tabFillLoop m c s i done.length c buffer splitted =
      some (done ++ entries m done.length (words c s) ++ rest.drop (words c s).length) := by
  induction s using words_induction c generalizing i buffer splitted done rest with
  | nil => simp [tabFillLoop, entries, hsplitted]
  | sep s ih =>
    rw [List.length_cons] at hi
    rw [words_sep] at hbuffer hrest ⊢
    rw [tabFillLoop, if_neg (by simp), incr_of_lt (by omega), Option.bind_some]
    exact ih done rest (fun hmem => hs (List.mem_cons_of_mem _ hmem)) (by omega) (by omega)
      hbuffer hsplitted hrest
  | word x s hx ih =>
    have hword := firstPiece_append_afterPiece (c := c) (s := x :: s)
    have hlength := congrArg List.length hword
    have hpos : 0 < (firstPiece c (x :: s)).length := by
      rw [firstPiece_cons hx]
      exact Nat.succ_pos _
    rw [List.length_append] at hlength
    rw [words_cons hx, List.forall_mem_cons] at hbuffer
    rw [words_cons hx, List.length_cons] at hrest
    have hzero : 0 ∉ firstPiece c (x :: s) := fun hmem => hs (hword ▸ List.mem_append_left _ hmem)
    obtain ⟨entry, rest, rfl⟩ := List.exists_cons_of_length_pos (Nat.zero_lt_of_lt hrest)
    obtain ⟨buffer', hput, hbuffer', hdup⟩ :=
      put_written (m.succeeds (2 + done.length)) hbuffer.1 hzero
    have hstore : ∀ p, put splitted done.length p = some (done ++ [p] ++ rest) := by
      intro p
      rw [hsplitted, put_of_lt p (by simp), List.set_append_right _ _ le_rfl, Nat.sub_self,
        List.append_assoc]
      rfl
    have hih := ih (done ++ [if m.succeeds (2 + done.length) then
        .string (firstPiece c (x :: s)) else .null]) rest
      (fun hmem => hs (hword ▸ List.mem_append_right _ hmem))
      (i := i + (firstPiece c (x :: s)).length) (by omega)
      (by rw [List.length_append, List.length_singleton]; omega)
      (fun w hw => hbuffer'.symm ▸ hbuffer.2 w hw) rfl (Nat.le_of_succ_le_succ hrest)
    rw [tabFillLoop, if_pos ⟨hx, rfl⟩, copyWord_eq (Nat.zero_le i) hi (by omega), Option.bind_some]
    simp only [Nat.zero_add]
    rw [hput, Option.bind_some, hdup, Option.bind_some, hstore, Option.bind_some,
      incr_of_lt (by omega), Option.bind_some, words_cons hx, entries_cons]
    rw [List.length_append, List.length_singleton] at hih
    rw [hih]
    simp

/-- A string without a separator does not fit in the buffer with a terminator. -/
theorem tabFillLoop_unbroken {m : Allocations} {c x : UInt8} {s buffer : List UInt8} {i k : ℕ}
    {splitted : List Pointer} (hi : i + (x :: s).length ≤ intMax) (hc : c ∉ x :: s)
    (hbuffer : buffer.length = (x :: s).length) :
    tabFillLoop m c (x :: s) i k c buffer splitted = none := by
  have hx : x ≠ c := fun hx => hc (by simp [hx])
  have hfirst : firstPiece c (x :: s) = x :: s :=
    List.takeWhile_eq_self_iff.mpr fun y hy => by simpa using ne_of_mem_of_not_mem hy hc
  rw [tabFillLoop, if_pos ⟨hx, rfl⟩, copyWord_eq (Nat.zero_le i) hi (by rw [hfirst]; omega),
    Option.bind_some, hfirst]
  simp only [Nat.zero_add]
  rw [put_written_full hbuffer, Option.bind_none]

/-! ### The whole function -/

/-- Room for the terminators, and memory for the array, the buffer and the copies. -/
structure Splittable (m : Allocations) (s : ZString) (c : UInt8) : Prop where
  length_le : s.chars.length ≤ intMax
  array : m.succeeds 0
  buffer : m.succeeds 1
  separated : s.chars = [] ∨ c ∈ s.chars

theorem strSplit_eq {m : Allocations} {s : ZString} {c : UInt8} (h : Splittable m s c) :
    strSplit m s c = some (some (entries m 0 (words c s.chars) ++ [.null])) := by
  have hcount := length_words_le c s.chars
  have hmax : 1 < intMax := by decide
  have hsize : incr (words c s.chars).length = some ((words c s.chars).length + 1) := by
    apply incr_of_lt
    have hlength := h.length_le
    omega
  have hroom : ∀ w ∈ words c s.chars,
      w.length < ((List.range s.chars.length).map m.fresh).length := by
    intro w hw
    rw [List.length_map, List.length_range]
    rcases h.separated with hnil | hmem
    · simp [hnil] at hw
    · exact length_word_lt hmem hw
  have hfill : tabFill m s c (List.replicate ((words c s.chars).length + 1) .indeterminate) c =
      some (some (entries m 0 (words c s.chars) ++ [.indeterminate])) := by
    have hloop := tabFillLoop_eq (m := m) (i := 0) []
      (List.replicate ((words c s.chars).length + 1) .indeterminate) s.zero_notMem
      (by rw [Nat.zero_add]; exact h.length_le) le_rfl hroom rfl
      (by rw [List.length_replicate]; omega)
    rw [tabFill, if_neg (by simp [h.buffer])]
    simp only [List.length_nil, List.nil_append, List.drop_replicate, Nat.add_sub_cancel_left]
      at hloop
    exact congrArg (Option.map some) hloop
  have hlast : put (entries m 0 (words c s.chars) ++ [.indeterminate]) (words c s.chars).length
      .null = some (entries m 0 (words c s.chars) ++ [.null]) := by
    have hlength : (entries m 0 (words c s.chars)).length = (words c s.chars).length := by
      rw [entries, List.length_mapIdx]
    rw [put_of_lt _ (by simp [hlength]), List.set_append_right _ _ hlength.le, hlength, Nat.sub_self]
    rfl
  rw [strSplit, wordCount_eq, if_pos h.length_le, Option.bind_some, hsize, Option.bind_some,
    if_neg (by simp [h.array]), hfill, Option.bind_some, Option.bind_some, hlast, Option.map_some]

theorem splittable_of_strSplit {m : Allocations} {s : ZString} {c : UInt8} {array : List Pointer}
    (h : strSplit m s c = some (some array)) : Splittable m s c := by
  rw [strSplit, wordCount_eq] at h
  split at h
  case isFalse => cases h
  case isTrue hlength =>
    rw [Option.bind_some] at h
    obtain ⟨size, -, h⟩ := Option.bind_eq_some_iff.mp h
    split at h
    case isTrue => cases h
    case isFalse harray =>
      obtain ⟨filled, hfill, h⟩ := Option.bind_eq_some_iff.mp h
      obtain ⟨splitted, rfl, -⟩ := Option.bind_eq_some_iff.mp h
      rw [tabFill] at hfill
      split at hfill
      case isTrue => cases hfill
      case isFalse hbuffer =>
        refine ⟨hlength, by simpa using harray, by simpa using hbuffer, ?_⟩
        by_contra hunbroken
        obtain ⟨hne, hc⟩ := not_or.mp hunbroken
        obtain ⟨x, chars, hchars⟩ := List.exists_cons_of_ne_nil hne
        rw [hchars] at hlength hc hfill
        obtain ⟨filled, hloop, -⟩ := Option.map_eq_some_iff.mp hfill
        rw [tabFillLoop_unbroken (by rwa [Nat.zero_add]) hc (by simp)] at hloop
        cases hloop

theorem entries_eq_iff {m : Allocations} {k : ℕ} {ws : List (List UInt8)} :
    entries m k ws = ws.map .string ↔ ∀ n < ws.length, m.succeeds (2 + (k + n)) := by
  induction ws generalizing k with
  | nil => simp [entries]
  | cons w ws ih =>
    have hshift : ∀ n, 2 + (k + 1 + n) = 2 + (k + (n + 1)) := fun n => by omega
    have hhead : (if m.succeeds (2 + k) then Pointer.string w else .null) = .string w ↔
        m.succeeds (2 + k) := by
      cases m.succeeds (2 + k) <;> simp
    rw [entries_cons, List.map_cons, List.cons.injEq, hhead, ih, List.length_cons,
      Nat.forall_lt_succ_left]
    simp only [hshift, Nat.add_zero]

/-- Room for the terminators, and memory for everything, the copies included. -/
def SplitsWords (m : Allocations) (s : ZString) (c : UInt8) : Prop :=
  (s.chars = [] ∨ c ∈ s.chars) ∧ s.chars.length < 2 ^ 31 ∧
    ∀ n < 2 + (words c s.chars).length, m.succeeds n

theorem splitsWords_iff {m : Allocations} {s : ZString} {c : UInt8} : SplitsWords m s c ↔
    Splittable m s c ∧ entries m 0 (words c s.chars) = (words c s.chars).map .string := by
  have hlt : s.chars.length ≤ intMax ↔ s.chars.length < 2 ^ 31 := by
    rw [intMax]
    omega
  rw [entries_eq_iff]
  constructor
  · rintro ⟨hseparated, hlength, hmemory⟩
    exact ⟨⟨hlt.mpr hlength, hmemory 0 (by omega), hmemory 1 (by omega), hseparated⟩,
      fun n hn => hmemory _ (by omega)⟩
  · rintro ⟨hsplit, hcopies⟩
    refine ⟨hsplit.separated, hlt.mp hsplit.length_le, fun n hn => ?_⟩
    rcases n with _ | _ | n
    · exact hsplit.array
    · exact hsplit.buffer
    · have hcopy := hcopies n (by omega)
      rwa [Nat.zero_add, Nat.add_comm] at hcopy

theorem SplitsWords.strSplit_eq {m : Allocations} {s : ZString} {c : UInt8}
    (h : SplitsWords m s c) :
    strSplit m s c = some (some ((words c s.chars).map .string ++ [.null])) := by
  obtain ⟨hsplit, hentries⟩ := splitsWords_iff.mp h
  rw [R1Emu.Utils.strSplit_eq hsplit, hentries]

/-- A string is split into its words when it has a separator or no characters at all, its length
is an `int`, and there is memory for everything. -/
theorem strSplit_splits_iff (m : Allocations) (s : ZString) (c : UInt8) :
    SplitsExactly m s c ↔ (s.chars = [] ∨ c ∈ s.chars) ∧ s.chars.length < 2 ^ 31 ∧
      ∀ n < 2 + (words c s.chars).length, m.succeeds n := by
  change SplitsExactly m s c ↔ SplitsWords m s c
  constructor
  · intro h
    have hsplit := splittable_of_strSplit h.2
    have hentries := h.2
    rw [strSplit_eq hsplit, Option.some_inj, Option.some_inj, List.append_left_inj] at hentries
    exact splitsWords_iff.mpr ⟨hsplit, hentries⟩
  · intro h
    have hlength := (splitsWords_iff.mp h).1.length_le
    exact ⟨by rw [wordCount_eq, if_pos hlength], h.strSplit_eq⟩

/-- A single word is written behind the end of the work buffer, with its terminator. -/
theorem single_word_overruns : ¬ SplitsExactly ⟨fun _ => true, fun _ => 0⟩ ⟨[97], by decide⟩ 32 := by
  intro h
  exact absurd (splittable_of_strSplit h.2).separated (by decide)

end R1Emu.Utils
