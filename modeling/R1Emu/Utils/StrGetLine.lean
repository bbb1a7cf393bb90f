import R1Emu.Lib.Buffer
import Mathlib.Algebra.Group.Int.Defs
import Mathlib.Data.List.Basic

/-!
# Reading a text line by line

A call copies the characters from a position up to a newline, to the end of the text or to a
limit, and returns where the next call goes on. It ends its copy with a zero when it stops at
a newline or at the end, but not when it stops at the limit.
-/
namespace R1Emu.Utils
open R1Emu.Lib.Buffer

def newline : UInt8 := 10

/-! ### One call -/

/-- From the character at `i` on, of which the rest of the text is given: the position returned,
and the output. -/
def strGetLineLoop (maxlen : ℕ) : List UInt8 → (i bufpos : ℕ) → (dest : List UInt8) →
    Option (ℕ × List UInt8)
  | [], i, bufpos, dest => (put dest bufpos 0).bind fun dest => (incr i).map fun i => (i, dest)
  | c :: s, i, bufpos, dest =>
    if maxlen ≤ bufpos then some (i, dest)
    else (put dest bufpos c).bind fun dest => (incr bufpos).bind fun bufpos =>
      if c = newline then
        (put dest (bufpos - 1) 0).bind fun dest => (incr i).map fun i => (i, dest)
      else (incr i).bind fun i => strGetLineLoop maxlen s i bufpos dest

/-- `(int) strlen(str)`: the low 32 bits, with a sign. -/
def strLength (str : ZString) : ℤ :=
  let low : ℕ := str.chars.length % 2 ^ 32
  if low < 2 ^ 31 then low else low - 2 ^ 32

/-- The position is `none` for -1. -/
def strGetLine (str : ZString) (dest : List UInt8) (maxlen pos : ℕ) :
    Option (Option ℕ × List UInt8) :=
  let len := strLength str
  if len ≤ pos then some (none, dest)
  else
    (strGetLineLoop maxlen ((str.chars.take len.toNat).drop pos) pos 0 dest).map
      fun (i, dest) => (some i, dest)

/-! ### All calls -/

/-- A call that does not return -1: its position, the position it returns, and the output before
and after it. -/
structure Call where
  pos : ℕ
  next : ℕ
  before : List UInt8
  after : List UInt8

/-- The calls from a position on, until one returns -1. -/
def readLines (str : ZString) (maxlen : ℕ) : (fuel pos : ℕ) → (dest : List UInt8) →
    Option (List Call)
  | 0, _, _ => none
  | fuel + 1, pos, dest => (strGetLine str dest maxlen pos).bind fun (next, after) =>
    match next with
    | none => some []
    | some next => (readLines str maxlen fuel next after).map (⟨pos, next, dest, after⟩ :: ·)

/-- The part of the text that a call reads. -/
def Call.consumed (str : ZString) (call : Call) : List UInt8 :=
  (str.chars.take call.next).drop call.pos

/-- A call goes on, stays within the limit and a terminator, and leaves a string that is what
it read without the newline. -/
structure Call.Sound (str : ZString) (maxlen : ℕ) (call : Call) : Prop where
  progress : call.pos < call.next ∧ call.consumed str ≠ []
  length_eq : call.after.length = call.before.length
  frame : call.after.drop (maxlen + 1) = call.before.drop (maxlen + 1)
  string : ∃ piece, cstring call.after 0 = some piece ∧ piece.length ≤ maxlen ∧
    (call.consumed str = piece ∨ call.consumed str = piece ++ [newline])

/-- The calls from position 0 on come to an end, each is sound, and together they read the text. -/
def ReadsText (str : ZString) (maxlen : ℕ) (dest : List UInt8) : Prop :=
  ∃ fuel calls, readLines str maxlen fuel 0 dest = some calls ∧
    (∀ call ∈ calls, call.Sound str maxlen) ∧ calls.flatMap (Call.consumed str) = str.chars

/-- Lines that end with a newline are shorter than the limit, and the last one is not longer. -/
def WithinLimit (maxlen : ℕ) : List (List UInt8) → Prop
  | [] => True
  | [last] => last.length ≤ maxlen
  | line :: next :: lines => line.length < maxlen ∧ WithinLimit maxlen (next :: lines)

def LinesWithin (maxlen : ℕ) (s : List UInt8) : Prop := WithinLimit maxlen (s.splitOn newline)

/-! ### Copying -/

section Loop

variable {maxlen i bufpos : ℕ} {c : UInt8} {s piece dest : List UInt8}

theorem strGetLineLoop_step (hc : c ≠ newline) (hroom : bufpos < maxlen) (hmax : maxlen ≤ intMax)
    (hi : i < intMax) (hdest : maxlen < dest.length) :
    strGetLineLoop maxlen (c :: s) i bufpos dest =
      strGetLineLoop maxlen s (i + 1) (bufpos + 1) (dest.set bufpos c) := by
  rw [strGetLineLoop, if_neg (Nat.not_le.mpr hroom), put_of_lt c (by omega), Option.bind_some,
    incr_of_lt (by omega), Option.bind_some, if_neg hc, incr_of_lt hi, Option.bind_some]

/-- Characters before the limit are copied. -/
theorem strGetLineLoop_append (hpiece : newline ∉ piece) (hroom : bufpos + piece.length ≤ maxlen)
    (hmax : maxlen ≤ intMax) (hi : i + piece.length ≤ intMax) (hdest : maxlen < dest.length) :
    strGetLineLoop maxlen (piece ++ s) i bufpos dest =
      strGetLineLoop maxlen s (i + piece.length) (bufpos + piece.length)
        (written dest bufpos piece) := by
  induction piece generalizing i bufpos dest with
  | nil => simp [written]
  | cons c piece ih =>
    rw [List.length_cons] at hroom hi ⊢
    have hc : c ≠ newline := fun hc => hpiece (by simp [hc])
    have hrest : newline ∉ piece := fun hmem => hpiece (List.mem_cons_of_mem _ hmem)
    rw [List.cons_append, strGetLineLoop_step hc (by omega) hmax (by omega) hdest,
      ih hrest (by omega) (by omega) (by rwa [List.length_set]), written_cons c (by omega),
      Nat.add_right_comm i, Nat.add_right_comm bufpos]
    rfl

/-- A line that is cut. -/
theorem strGetLineLoop_cut (hpiece : newline ∉ piece) (hlength : piece.length = maxlen)
    (hmax : maxlen ≤ intMax) (hi : i + piece.length ≤ intMax) (hdest : maxlen < dest.length) :
    strGetLineLoop maxlen (piece ++ c :: s) i 0 dest =
      some (i + piece.length, piece ++ dest.drop maxlen) := by
  rw [strGetLineLoop_append hpiece (by omega) hmax hi hdest, strGetLineLoop, if_pos (by omega),
    written_front, hlength]

/-- A line with its newline. -/
theorem strGetLineLoop_line (hpiece : newline ∉ piece) (hlength : piece.length < maxlen)
    (hmax : maxlen ≤ intMax) (hi : i + piece.length < intMax) (hdest : maxlen < dest.length) :
    strGetLineLoop maxlen (piece ++ newline :: s) i 0 dest =
      some (i + piece.length + 1, piece ++ 0 :: dest.drop (piece.length + 1)) := by
  have hfront : (written dest 0 piece).length = dest.length := length_written (by omega)
  have hput : ∀ c, put (written dest 0 piece) piece.length c =
      some ((written dest 0 piece).set piece.length c) := fun c => put_of_lt c (by omega)
  have hterminator := put_terminator (hlength.trans hdest)
  rw [hput] at hterminator
  rw [strGetLineLoop_append hpiece (by omega) hmax hi.le hdest, Nat.zero_add, strGetLineLoop,
    if_neg (by omega), hput, Option.bind_some, incr_of_lt (by omega), Option.bind_some,
    if_pos rfl, Nat.add_sub_cancel, put_of_lt 0 (by rw [List.length_set]; omega),
    Option.bind_some, incr_of_lt hi, Option.map_some, List.set_set,
    Option.some_inj.mp hterminator]

/-- The end of the text. -/
theorem strGetLineLoop_last (hpiece : newline ∉ piece) (hlength : piece.length ≤ maxlen)
    (hmax : maxlen ≤ intMax) (hi : i + piece.length ≤ intMax) (hdest : maxlen < dest.length) :
    strGetLineLoop maxlen piece i 0 dest = (incr (i + piece.length)).map fun i =>
      (i, piece ++ 0 :: dest.drop (piece.length + 1)) := by
  have happend : strGetLineLoop maxlen (piece ++ []) i 0 dest = strGetLineLoop maxlen []
      (i + piece.length) (0 + piece.length) (written dest 0 piece) :=
    strGetLineLoop_append hpiece (by omega) hmax hi hdest
  rw [List.append_nil, Nat.zero_add] at happend
  rw [happend, strGetLineLoop, put_terminator (hlength.trans_lt hdest), Option.bind_some]

/-- The position returned is not behind the end of the text by more than one. -/
theorem strGetLineLoop_next_le {next : ℕ} {after : List UInt8}
    (h : strGetLineLoop maxlen s i bufpos dest = some (next, after)) :
    i ≤ next ∧ next ≤ i + s.length + 1 := by
  have hincr : ∀ {i next : ℕ}, incr i = some next → next = i + 1 := by
    intro i next h
    rw [incr] at h
    split at h
    · exact (Option.some_inj.mp h).symm
    · cases h
  induction s generalizing i bufpos dest with
  | nil =>
    obtain ⟨dest', -, h⟩ := Option.bind_eq_some_iff.mp h
    obtain ⟨i', hi, h⟩ := Option.map_eq_some_iff.mp h
    obtain ⟨rfl, -⟩ := Prod.mk.inj h
    rw [hincr hi, List.length_nil]
    omega
  | cons c s ih =>
    rw [strGetLineLoop] at h
    rw [List.length_cons]
    split at h
    · obtain ⟨rfl, -⟩ := Prod.mk.inj (Option.some_inj.mp h)
      omega
    · obtain ⟨dest', -, h⟩ := Option.bind_eq_some_iff.mp h
      obtain ⟨bufpos', -, h⟩ := Option.bind_eq_some_iff.mp h
      split at h
      · obtain ⟨dest'', -, h⟩ := Option.bind_eq_some_iff.mp h
        obtain ⟨i', hi, h⟩ := Option.map_eq_some_iff.mp h
        obtain ⟨rfl, -⟩ := Prod.mk.inj h
        rw [hincr hi]
        omega
      · obtain ⟨i', hi, h⟩ := Option.bind_eq_some_iff.mp h
        have hnext := ih h
        rw [hincr hi] at hnext
        omega

end Loop

/-! ### Lines -/

section Lines

variable {maxlen : ℕ} {line s : List UInt8}

theorem linesWithin_last (h : newline ∉ line) : LinesWithin maxlen line ↔ line.length ≤ maxlen := by
  rw [LinesWithin, List.splitOn_eq_singleton h, WithinLimit]

theorem linesWithin_line (h : newline ∉ line) : LinesWithin maxlen (line ++ newline :: s) ↔
    line.length < maxlen ∧ LinesWithin maxlen s := by
  obtain ⟨next, lines, hlines⟩ := List.exists_cons_of_ne_nil (List.splitOn_ne_nil newline s)
  rw [LinesWithin, List.splitOn_append_cons_self, List.splitOn_eq_singleton h, LinesWithin, hlines,
    List.singleton_append, WithinLimit]

/-- The first line of a text. -/
theorem exists_first_line (s : List UInt8) :
    newline ∉ s ∨ ∃ line rest, s = line ++ newline :: rest ∧ newline ∉ line := by
  by_cases hmem : newline ∈ s
  · exact Or.inr (List.eq_append_cons_of_mem hmem)
  · exact Or.inl hmem

end Lines

/-! ### One call on a text -/

section Step

variable {str : ZString} {maxlen pos : ℕ} {front s dest : List UInt8}

theorem strLength_eq (h : str.chars.length ≤ intMax) : strLength str = str.chars.length := by
  have hmax : intMax = 2 ^ 31 - 1 := rfl
  have hlow : str.chars.length % 2 ^ 32 = str.chars.length := Nat.mod_eq_of_lt (by omega)
  rw [strLength, hlow]
  exact if_pos (by omega)

theorem strGetLine_end (h : str.chars.length ≤ intMax) (hpos : str.chars.length ≤ pos) :
    strGetLine str dest maxlen pos = some (none, dest) := by
  rw [strGetLine, strLength_eq h]
  exact if_pos (by omega)

theorem strGetLine_eq (h : str.chars.length ≤ intMax) (hchars : str.chars = front ++ s)
    (hs : s ≠ []) : strGetLine str dest maxlen front.length =
      (strGetLineLoop maxlen s front.length 0 dest).map fun r => (some r.1, r.2) := by
  have hlength := congrArg List.length hchars
  have hpos := List.length_pos_iff.mpr hs
  rw [List.length_append] at hlength
  rw [strGetLine, strLength_eq h]
  simp only
  rw [if_neg (by omega), Int.toNat_natCast, List.take_length, hchars, List.drop_left]

theorem readLines_end {fuel : ℕ} (h : str.chars.length ≤ intMax) (hpos : str.chars.length ≤ pos) :
    readLines str maxlen (fuel + 1) pos dest = some [] := by
  rw [readLines, strGetLine_end h hpos]
  rfl

theorem readLines_next {fuel next : ℕ} {after : List UInt8} (h : str.chars.length ≤ intMax)
    (hchars : str.chars = front ++ s) (hs : s ≠ [])
    (hloop : strGetLineLoop maxlen s front.length 0 dest = some (next, after)) :
    readLines str maxlen (fuel + 1) front.length dest =
      (readLines str maxlen fuel next after).map (⟨front.length, next, dest, after⟩ :: ·) := by
  rw [readLines, strGetLine_eq h hchars hs, hloop]
  rfl

end Step

/-! ### A call that stops at a newline or at the end -/

section Sound

variable {str : ZString} {maxlen next : ℕ} {front piece read rest dest : List UInt8}

theorem consumed_eq (before after : List UInt8) (hchars : str.chars = front ++ (read ++ rest))
    (hnext : next = front.length + read.length ∨ rest = [] ∧ front.length + read.length ≤ next) :
    Call.consumed str ⟨front.length, next, before, after⟩ = read := by
  have htake : str.chars.take next = front ++ read := by
    rw [hchars, ← List.append_assoc]
    rcases hnext with rfl | ⟨rfl, hle⟩
    · exact List.take_left' (List.length_append)
    · rw [List.append_nil]
      exact List.take_of_length_le (by rwa [List.length_append])
  rw [Call.consumed, htake, List.drop_left]

/-- The output behind the terminator is what it was. -/
theorem drop_terminated {n : ℕ} (h : piece.length < n) :
    (piece ++ 0 :: dest.drop (piece.length + 1)).drop n = dest.drop n := by
  obtain ⟨d, rfl⟩ := Nat.exists_eq_add_of_le (Nat.succ_le_of_lt h)
  have hfront : (piece ++ [0]).length = piece.length.succ := by simp
  calc (piece ++ 0 :: dest.drop (piece.length + 1)).drop (piece.length.succ + d)
      = ((piece ++ [0] ++ dest.drop (piece.length + 1)).drop (piece ++ [0]).length).drop d := by
        rw [List.drop_drop, hfront, List.append_cons]
    _ = dest.drop (piece.length.succ + d) := by rw [List.drop_left, List.drop_drop]

theorem sound_of_terminated (hchars : str.chars = front ++ (read ++ rest))
    (hnext : next = front.length + read.length ∨ rest = [] ∧ front.length + read.length ≤ next)
    (hread : read = piece ∨ read = piece ++ [newline]) (hne : read ≠ [])
    (hlength : piece.length ≤ maxlen) (hdest : maxlen < dest.length) :
    Call.Sound str maxlen
      ⟨front.length, next, dest, piece ++ 0 :: dest.drop (piece.length + 1)⟩ := by
  have hconsumed := consumed_eq dest (piece ++ 0 :: dest.drop (piece.length + 1)) hchars hnext
  have hpos := List.length_pos_iff.mpr hne
  have hzero : 0 ∉ piece := by
    intro hmem
    apply str.zero_notMem
    rw [hchars]
    rcases hread with rfl | rfl <;> simp [hmem]
  refine ⟨⟨?_, hconsumed ▸ hne⟩, ?_, ?_, ⟨piece, ?_, hlength, hconsumed ▸ hread⟩⟩
  · change front.length < next
    rcases hnext with rfl | ⟨-, hle⟩ <;> omega
  · simp only [List.length_append, List.length_cons, List.length_drop]
    omega
  · exact drop_terminated (Nat.lt_succ_of_le hlength)
  · rw [cstring_of_mem (by simp), List.drop_zero, takeWhile_terminated hzero]

/-- The text behind a line. -/
theorem behind_line {line : List UInt8} (hchars : str.chars = front ++ (line ++ newline :: rest)) :
    str.chars = (front ++ line ++ [newline]) ++ rest ∧
      (front ++ line ++ [newline]).length = front.length + line.length + 1 := by
  simp [hchars, Nat.add_assoc]

theorem getLast?_behind_line {line : List UInt8} (hrest : rest ≠ []) :
    (line ++ newline :: rest).getLast? = rest.getLast? := by
  obtain ⟨c, hc⟩ := Option.isSome_iff_exists.mp (List.getLast?_isSome.mpr hrest)
  rw [List.append_cons, List.getLast?_append, hc, Option.some_or]

/-- The calls from a position on. -/
theorem readLines_sound {s : List UInt8} (hchars : str.chars = front ++ s)
    (hlength : str.chars.length ≤ intMax) (hmax : maxlen ≤ intMax) (hlines : LinesWithin maxlen s)
    (hend : s = [] ∨ s.getLast? = some newline ∨ str.chars.length < intMax)
    (hdest : maxlen < dest.length) : ∃ fuel calls,
      readLines str maxlen fuel front.length dest = some calls ∧
        (∀ call ∈ calls, call.Sound str maxlen) ∧ calls.flatMap (Call.consumed str) = s := by
  induction hn : s.length using Nat.strong_induction_on generalizing front s dest with
  | _ n ih =>
    have hcount := congrArg List.length hchars
    rw [List.length_append] at hcount
    by_cases hs : s = []
    · subst hs
      exact ⟨1, [], readLines_end hlength (by simp [hchars]), by simp, rfl⟩
    rcases exists_first_line s with hlast | ⟨line, rest, rfl, hline⟩
    · -- the last line has no newline, and the next call returns -1
      have hfits : s.length ≤ maxlen := (linesWithin_last hlast).mp hlines
      have hi : front.length + s.length < intMax := by
        rcases hend with hnil | hnewline | hlt
        · exact absurd hnil hs
        · exact absurd (List.mem_of_getLast? hnewline) hlast
        · omega
      have hloop := strGetLineLoop_last hlast hfits hmax hi.le hdest
      rw [incr_of_lt hi, Option.map_some] at hloop
      have hchars' : str.chars = front ++ (s ++ []) := by rw [List.append_nil, hchars]
      have hnext : front.length + s.length + 1 = front.length + s.length ∨
          ([] : List UInt8) = [] ∧ front.length + s.length ≤ front.length + s.length + 1 :=
        Or.inr ⟨rfl, Nat.le_succ _⟩
      refine ⟨2, _, (readLines_next hlength hchars hs hloop).trans (congrArg _
        (readLines_end hlength (by omega))), ?_, ?_⟩
      · simpa using sound_of_terminated hchars' hnext (Or.inl rfl) hs hfits hdest
      · simpa using consumed_eq _ _ hchars' hnext
    · -- a line with its newline, and the rest of the text
      obtain ⟨hfits, hrest⟩ := (linesWithin_line hline).mp hlines
      rw [List.length_append, List.length_cons] at hcount hn
      have hloop := strGetLineLoop_line (s := rest) hline hfits hmax
        (by omega : front.length + line.length < intMax) hdest
      obtain ⟨hchars', hposition⟩ := behind_line hchars
      have hend' : rest = [] ∨ rest.getLast? = some newline ∨ str.chars.length < intMax := by
        by_cases hnil : rest = []
        · exact Or.inl hnil
        · rw [getLast?_behind_line hnil] at hend
          exact Or.inr (hend.resolve_left hs)
      have hafter : maxlen < (line ++ 0 :: dest.drop (line.length + 1)).length := by
        rw [List.length_append, List.length_cons, List.length_drop]
        omega
      obtain ⟨fuel, calls, hcalls, hsound, hread⟩ := ih rest.length (by omega) hchars' hrest hend'
        hafter rfl
      rw [hposition] at hcalls
      have hfirst : str.chars = front ++ ((line ++ [newline]) ++ rest) := by
        rw [hchars, List.append_cons]
      have hnext : front.length + line.length + 1 = front.length + (line ++ [newline]).length ∨
          rest = [] ∧ front.length + (line ++ [newline]).length ≤ front.length + line.length + 1 :=
        Or.inl (by simp; omega)
      refine ⟨fuel + 1, _, (readLines_next hlength hchars hs hloop).trans (congrArg _ hcalls),
        ?_, ?_⟩
      · intro call hcall
        rcases List.mem_cons.mp hcall with rfl | hcall
        · exact sound_of_terminated hfirst hnext (Or.inr rfl) (by simp) hfits.le hdest
        · exact hsound call hcall
      · rw [List.flatMap_cons, consumed_eq _ _ hfirst hnext, hread, ← List.append_cons]

end Sound

/-! ### What goes wrong -/

section Unsound

variable {str : ZString} {maxlen fuel : ℕ} {front s dest : List UInt8} {calls : List Call}

/-- A cut line has no terminator in an array without zeroes. -/
theorem unsound_of_cut {chunk rest : List UInt8} {c : UInt8}
    (hchars : str.chars = front ++ (chunk ++ c :: rest)) (hlength : str.chars.length ≤ intMax)
    (hmax : maxlen ≤ intMax) (hchunk : newline ∉ chunk) (hfull : chunk.length = maxlen)
    (hdest : maxlen < dest.length)
    (hfresh : 0 ∉ dest.drop maxlen)
    (h : readLines str maxlen (fuel + 1) front.length dest = some calls) :
    ∃ call ∈ calls, ¬ call.Sound str maxlen := by
  have hcount := congrArg List.length hchars
  rw [List.length_append, List.length_append] at hcount
  have hloop := strGetLineLoop_cut (c := c) (s := rest) hchunk hfull hmax
    (by omega : front.length + chunk.length ≤ intMax) hdest
  rw [readLines_next hlength hchars (by simp) hloop] at h
  obtain ⟨calls, -, rfl⟩ := Option.map_eq_some_iff.mp h
  refine ⟨_, List.mem_cons_self, fun hsound => ?_⟩
  obtain ⟨piece, hstring, -⟩ := hsound.string
  rw [cstring] at hstring
  split at hstring
  case isTrue hzero =>
    rcases List.mem_append.mp hzero with hzero | hzero
    · exact str.zero_notMem (by rw [hchars]; simp [hzero])
    · exact hfresh hzero
  case isFalse => cases hstring

/-- A text with a long line is not read in sound calls. -/
theorem exists_unsound (hchars : str.chars = front ++ s) (hlength : str.chars.length ≤ intMax)
    (hmax : maxlen ≤ intMax) (hlines : ¬ LinesWithin maxlen s)
    (hdest : maxlen < dest.length) (hfresh : 0 ∉ dest.drop maxlen)
    (h : readLines str maxlen fuel front.length dest = some calls) :
    ∃ call ∈ calls, ¬ call.Sound str maxlen := by
  induction fuel generalizing front s dest calls with
  | zero => cases h
  | succ fuel ih =>
    -- a line that is long enough to be cut
    have hcut : ∀ {line rest}, s = line ++ rest → newline ∉ line → maxlen ≤ line.length →
        maxlen < s.length → ∃ call ∈ calls, ¬ call.Sound str maxlen := by
      intro line rest hs hline hlong hmore
      have hchunk : s.take maxlen = line.take maxlen := by
        rw [hs, List.take_append_of_le_length hlong]
      obtain ⟨c, behind, hbehind⟩ : ∃ c behind, s.drop maxlen = c :: behind :=
        List.exists_cons_of_length_pos (by rw [List.length_drop]; omega)
      have hsplit : str.chars = front ++ (s.take maxlen ++ c :: behind) := by
        rw [← hbehind, List.take_append_drop, hchars]
      refine unsound_of_cut hsplit hlength hmax ?_ ?_ hdest hfresh h
      · rw [hchunk]
        exact fun hmem => hline (List.mem_of_mem_take hmem)
      · rw [List.length_take]
        omega
    rcases exists_first_line s with hlast | ⟨line, rest, rfl, hline⟩
    · rw [linesWithin_last hlast] at hlines
      exact hcut (List.append_nil s).symm hlast (by omega) (by omega)
    · rw [linesWithin_line hline] at hlines
      by_cases hfits : line.length < maxlen
      · have hcount := congrArg List.length hchars
        rw [List.length_append, List.length_append, List.length_cons] at hcount
        obtain ⟨hchars', hposition⟩ := behind_line hchars
        have hloop := strGetLineLoop_line (s := rest) hline hfits hmax
          (by omega : front.length + line.length < intMax) hdest
        rw [readLines_next hlength hchars (by simp) hloop, ← hposition] at h
        obtain ⟨calls, hcalls, rfl⟩ := Option.map_eq_some_iff.mp h
        have hfresh' : 0 ∉ (line ++ 0 :: dest.drop (line.length + 1)).drop maxlen := by
          rwa [drop_terminated hfits]
        obtain ⟨call, hcall, hunsound⟩ := ih hchars' (fun hrest => hlines ⟨hfits, hrest⟩)
          (by rw [List.length_append, List.length_cons, List.length_drop]; omega) hfresh' hcalls
        exact ⟨call, List.mem_cons_of_mem _ hcall, hunsound⟩
      · exact hcut rfl hline (by omega) (by simp; omega)

/-- Behind the last character of the longest text there is no position. -/
theorem readLines_overflow (hchars : str.chars = front ++ s)
    (hlength : str.chars.length = intMax) (hmax : maxlen ≤ intMax)
    (hlines : LinesWithin maxlen s) (hs : s ≠ [])
    (hend : s.getLast? ≠ some newline) (hdest : maxlen < dest.length) :
    readLines str maxlen fuel front.length dest = none := by
  induction fuel generalizing front s dest with
  | zero => rfl
  | succ fuel ih =>
    have hcount := congrArg List.length hchars
    rw [List.length_append] at hcount
    rcases exists_first_line s with hlast | ⟨line, rest, rfl, hline⟩
    · have hloop := strGetLineLoop_last hlast ((linesWithin_last hlast).mp hlines) hmax
        (by omega : front.length + s.length ≤ intMax) hdest
      rw [incr_of_le (by omega), Option.map_none] at hloop
      rw [readLines, strGetLine_eq hlength.le hchars hs, hloop]
      rfl
    · obtain ⟨hfits, hrest⟩ := (linesWithin_line hline).mp hlines
      obtain ⟨hchars', hposition⟩ := behind_line hchars
      rw [List.length_append, List.length_cons] at hcount
      have hne : rest ≠ [] := by
        rintro rfl
        exact hend (by simp)
      rw [getLast?_behind_line hne] at hend
      have hloop := strGetLineLoop_line (s := rest) hline hfits hmax
        (by omega : front.length + line.length < intMax) hdest
      rw [readLines_next hlength.le hchars hs hloop, ← hposition, ih hchars' hrest hne hend
        (by rw [List.length_append, List.length_cons, List.length_drop]; omega), Option.map_none]

end Unsound

/-- The calls do not read behind the length of the text as an `int`. -/
theorem length_flatMap_consumed_le {str : ZString} {maxlen fuel pos : ℕ} {dest : List UInt8}
    {calls : List Call} (hpos : pos ≤ (strLength str).toNat + 1)
    (h : readLines str maxlen fuel pos dest = some calls) :
    (calls.flatMap (Call.consumed str)).length ≤ (strLength str).toNat + 1 - pos := by
  induction fuel generalizing pos dest calls with
  | zero => cases h
  | succ fuel ih =>
    rw [readLines, strGetLine] at h
    simp only at h
    split at h
    case isTrue =>
      rw [Option.bind_some, Option.some_inj] at h
      subst h
      exact Nat.zero_le _
    case isFalse hlt =>
      obtain ⟨r, hr, h⟩ := Option.bind_eq_some_iff.mp h
      obtain ⟨⟨next, after⟩, hloop, rfl⟩ := Option.map_eq_some_iff.mp hr
      obtain ⟨calls, hcalls, rfl⟩ := Option.map_eq_some_iff.mp h
      have hlt : pos < (strLength str).toNat := by omega
      have hnext : pos ≤ next ∧ next ≤ (strLength str).toNat + 1 := by
        have hloop := strGetLineLoop_next_le hloop
        rw [List.length_drop, List.length_take] at hloop
        omega
      have hih := ih hnext.2 hcalls
      have hconsumed : (Call.consumed str ⟨pos, next, dest, after⟩).length ≤ next - pos := by
        rw [Call.consumed, List.length_drop, List.length_take]
        exact Nat.sub_le_sub_right (Nat.min_le_left _ _) _
      change (Call.consumed str ⟨pos, next, dest, after⟩ ++ calls.flatMap _).length ≤ _
      rw [List.length_append]
      generalize (strLength str).toNat = len at hnext hih ⊢
      omega

/-- A text that is read is not longer than the largest `int`. -/
theorem length_le_of_readsText {str : ZString} {maxlen : ℕ} {dest : List UInt8}
    (h : ReadsText str maxlen dest) : str.chars.length ≤ intMax := by
  obtain ⟨fuel, calls, hcalls, -, hread⟩ := h
  have hlength := length_flatMap_consumed_le (Nat.zero_le _) hcalls
  have hmax : intMax = 2 ^ 31 - 1 := rfl
  rw [hread, strLength] at hlength
  split at hlength <;> omega

/-- A text is read, whatever is in the output before, when no line reaches the limit. -/
theorem strGetLine_reads_iff (str : ZString) {maxlen : ℕ} (hmax : maxlen ≤ intMax) :
    (∀ dest : List UInt8, maxlen < dest.length → ReadsText str maxlen dest) ↔
      LinesWithin maxlen str.chars ∧ (str.chars.length < intMax ∨
        str.chars.length = intMax ∧ str.chars.getLast? = some newline) := by
  constructor
  · intro h
    have hdest : maxlen < (List.replicate (maxlen + 1) newline).length := by
      rw [List.length_replicate]
      exact Nat.lt_succ_self _
    have hread := h _ hdest
    have hlength := length_le_of_readsText hread
    obtain ⟨fuel, calls, hcalls, hsound, -⟩ := hread
    have hlines : LinesWithin maxlen str.chars := by
      by_contra hlong
      obtain ⟨call, hcall, hunsound⟩ := exists_unsound (List.nil_append _).symm hlength hmax hlong
        hdest (by simp [newline]) hcalls
      exact hunsound (hsound call hcall)
    refine ⟨hlines, ?_⟩
    by_contra hend
    have hfull : str.chars.length = intMax := by omega
    have hne : str.chars ≠ [] := by
      rw [← List.length_pos_iff, hfull]
      decide
    have hfail : readLines str maxlen fuel 0 (List.replicate (maxlen + 1) newline) = none :=
      readLines_overflow (List.nil_append _).symm hfull hmax hlines hne
        (fun hlast => hend (Or.inr ⟨hfull, hlast⟩)) hdest
    rw [hfail] at hcalls
    cases hcalls
  · rintro ⟨hlines, hend⟩ dest hdest
    have hlength : str.chars.length ≤ intMax := by omega
    exact readLines_sound (List.nil_append _).symm hlength hmax hlines
      (Or.inr (hend.symm.imp_left And.right)) hdest

theorem strGetLine_reads_short :
    ReadsText ⟨[97, 98, 99, 10, 100], by decide⟩ 4 [1, 1, 1, 1, 1] := by
  have hlines : LinesWithin 4 ([97, 98, 99] ++ newline :: [100]) := by
    rw [linesWithin_line (by decide), linesWithin_last (by decide)]
    decide
  exact (strGetLine_reads_iff ⟨[97, 98, 99, 10, 100], by decide⟩ (by decide)).mpr
    ⟨hlines, by decide⟩ _ (by decide)

/-- A line that is longer than the limit, in an array that holds no zero. -/
theorem long_line_not_terminated : ¬ ReadsText ⟨[97, 98, 99], by decide⟩ 2 [1, 1, 1] := by
  rintro ⟨fuel, calls, hcalls, hsound, -⟩
  have hlines : ¬ LinesWithin 2 [97, 98, 99] := by
    rw [linesWithin_last (by decide)]
    decide
  obtain ⟨call, hcall, hunsound⟩ := exists_unsound (List.nil_append _).symm (by decide) (by decide)
    hlines (by decide) (by decide) hcalls
  exact hunsound (hsound call hcall)

end R1Emu.Utils
