import Mathlib.Algebra.Group.Nat.Defs
import Mathlib.Data.List.TakeWhile

/-!
# Buffers that are read and written within their bounds

A buffer is a list of bytes. A part that does not lie in it cannot be read or written, and a
string in it ends with the first zero behind its start, which has to be in the buffer as well.
-/
namespace R1Emu.Lib.Buffer

variable {α : Type*}

/-- The `len` elements from `off` on. -/
def slice (buffer : List α) (off len : ℕ) : Option (List α) :=
  if off + len ≤ buffer.length then some ((buffer.drop off).take len) else none

def put (buffer : List α) (i : ℕ) (a : α) : Option (List α) :=
  if i < buffer.length then some (buffer.set i a) else none

/-- Put one element behind the other. -/
def putAll (buffer : List α) (i : ℕ) : List α → Option (List α)
  | [] => some buffer
  | a :: as => (put buffer i a).bind fun buffer => putAll buffer (i + 1) as

/-- Put these elements at the front. -/
def fill (buffer elements : List α) : Option (List α) :=
  if elements.length ≤ buffer.length then some (elements ++ buffer.drop elements.length) else none

/-- `snprintf`: a text is cut so that it has this size with its terminator. -/
def snprintf (buffer : List UInt8) (size : ℕ) (text : List UInt8) : Option (List UInt8) :=
  if size = 0 then some buffer else fill buffer (text.take (size - 1) ++ [0])

/-- A buffer after a piece has been written from `j` on. -/
def written (buffer : List α) (j : ℕ) (piece : List α) : List α :=
  buffer.take j ++ piece ++ buffer.drop (j + piece.length)

/-- The string at `off`, without its terminator. -/
def cstring (buffer : List UInt8) (off : ℕ) : Option (List UInt8) :=
  if 0 ∈ buffer.drop off then some ((buffer.drop off).takeWhile (· != 0)) else none

/-- A string in memory, without its terminator. -/
structure ZString where
  chars : List UInt8
  zero_notMem : 0 ∉ chars

/-- The string at `off`. -/
def zstring (buffer : List UInt8) (off : ℕ) : Option ZString :=
  if 0 ∈ buffer.drop off then
    some ⟨(buffer.drop off).takeWhile (· != 0), fun hmem => by
      simpa using List.mem_takeWhile_imp hmem⟩
  else none

def intMax : ℕ := 2 ^ 31 - 1

/-- `i++` of an `int`. -/
def incr (i : ℕ) : Option ℕ := if i < intMax then some (i + 1) else none

section
variable {buffer : List α} {off len i : ℕ}

theorem incr_of_lt (h : i < intMax) : incr i = some (i + 1) := if_pos h

theorem incr_of_le (h : intMax ≤ i) : incr i = none := if_neg (Nat.not_lt.mpr h)

theorem slice_of_le (h : off + len ≤ buffer.length) :
    slice buffer off len = some ((buffer.drop off).take len) := if_pos h

theorem slice_of_lt (h : buffer.length < off + len) : slice buffer off len = none :=
  if_neg (Nat.not_le_of_lt h)

theorem put_of_lt (a : α) (h : i < buffer.length) : put buffer i a = some (buffer.set i a) :=
  if_pos h

theorem fill_of_le {elements : List α} (h : elements.length ≤ buffer.length) :
    fill buffer elements = some (elements ++ buffer.drop elements.length) := if_pos h

end

section Written

variable {buffer piece : List α} {j : ℕ}

theorem written_cons (x : α) (h : j < buffer.length) :
    written (buffer.set j x) (j + 1) piece = written buffer j (x :: piece) := by
  have htake : (buffer.set j x).take (j + 1) = buffer.take j ++ [x] := by
    rw [List.take_add_one, List.take_set_of_le le_rfl, List.getElem?_set_self h]
    rfl
  have hdrop : (buffer.set j x).drop (j + 1 + piece.length) =
      buffer.drop (j + (x :: piece).length) := by
    rw [List.drop_set_of_lt (by omega), List.length_cons, Nat.add_assoc, Nat.add_comm 1]
  rw [written, htake, hdrop, List.append_assoc _ [x]]
  rfl

theorem written_front : written buffer 0 piece = piece ++ buffer.drop piece.length := by
  rw [written, List.take_zero, List.nil_append, Nat.zero_add]

theorem length_written (h : j + piece.length ≤ buffer.length) :
    (written buffer j piece).length = buffer.length := by
  rw [written, List.length_append, List.length_append, List.length_take, List.length_drop]
  omega

/-- A piece and its terminator. -/
theorem put_terminator {buffer piece : List UInt8} (h : piece.length < buffer.length) :
    put (written buffer 0 piece) piece.length 0 =
      some (piece ++ 0 :: buffer.drop (piece.length + 1)) := by
  obtain ⟨x, behind, hbehind⟩ : ∃ x behind, buffer.drop piece.length = x :: behind :=
    List.exists_cons_of_length_pos (by rw [List.length_drop]; omega)
  have htail : buffer.drop (piece.length + 1) = behind := by
    rw [← List.drop_drop, hbehind]
    rfl
  rw [written_front, hbehind, htail, put_of_lt 0 (by simp), List.set_append_right _ _ le_rfl,
    Nat.sub_self]
  rfl

theorem written_written {piece' : List α} (h : j + piece.length ≤ buffer.length) :
    written (written buffer j piece) (j + piece.length) piece' =
      written buffer j (piece ++ piece') := by
  have hlength : (buffer.take j ++ piece).length = j + piece.length := by
    rw [List.length_append, List.length_take, Nat.min_eq_left (by omega)]
  have htake : (written buffer j piece).take (j + piece.length) = buffer.take j ++ piece := by
    rw [written, ← hlength, List.take_left]
  have hdrop : (written buffer j piece).drop (j + piece.length + piece'.length) =
      buffer.drop (j + (piece ++ piece').length) := by
    rw [written, List.drop_append, List.drop_of_length_le (by rw [hlength]; omega), hlength,
      List.drop_drop, List.nil_append, Nat.add_sub_cancel_left, List.length_append, Nat.add_assoc]
  rw [written, htake, hdrop, written]
  simp

theorem putAll_eq (h : j + piece.length ≤ buffer.length) :
    putAll buffer j piece = some (written buffer j piece) := by
  induction piece generalizing buffer j with
  | nil => simp [putAll, written]
  | cons a piece ih =>
    rw [List.length_cons] at h
    rw [putAll, put_of_lt a (by omega), Option.bind_some, ih (by rw [List.length_set]; omega),
      written_cons a (by omega)]

theorem of_putAll {buffer' : List α} (hj : j ≤ buffer.length)
    (h : putAll buffer j piece = some buffer') :
    buffer'.length = buffer.length ∧ j + piece.length ≤ buffer.length := by
  induction piece generalizing buffer j with
  | nil =>
    cases h
    exact ⟨rfl, hj⟩
  | cons a piece ih =>
    obtain ⟨buffer₁, hput, hrest⟩ := Option.bind_eq_some_iff.mp h
    rw [put] at hput
    split at hput
    case isTrue hlt =>
      cases hput
      have hih := ih (by rw [List.length_set]; omega) hrest
      rw [List.length_set] at hih
      exact ⟨hih.1, by rw [List.length_cons]; omega⟩
    case isFalse => cases hput

end Written

theorem cstring_of_mem {buffer : List UInt8} {off : ℕ} (h : 0 ∈ buffer.drop off) :
    cstring buffer off = some ((buffer.drop off).takeWhile (· != 0)) := if_pos h

theorem takeWhile_terminated {text behind : List UInt8} (h : 0 ∉ text) :
    (text ++ 0 :: behind).takeWhile (· != 0) = text := by
  have hself : text.takeWhile (· != 0) = text := by
    rw [List.takeWhile_eq_self_iff]
    intro c hc
    simpa using ne_of_mem_of_not_mem hc h
  rw [List.takeWhile_append, if_pos (by rw [hself]), List.takeWhile_cons_of_neg (by simp),
    List.append_nil]

theorem map_chars_zstring (buffer : List UInt8) (off : ℕ) :
    (zstring buffer off).map ZString.chars = cstring buffer off := by
  rw [zstring, cstring]
  split <;> rfl

theorem isSome_zstring {buffer : List UInt8} {off : ℕ} :
    (zstring buffer off).isSome ↔ 0 ∈ buffer.drop off := by
  rw [zstring]
  split <;> simp [*]

/-- What is behind the terminator is not part of the string. -/
theorem takeWhile_append_of_mem {text behind : List UInt8} (h : 0 ∈ text) :
    (text ++ behind).takeWhile (· != 0) = text.takeWhile (· != 0) := by
  induction text with
  | nil => exact absurd h List.not_mem_nil
  | cons letter text ih =>
    rw [List.cons_append, List.takeWhile_cons, List.takeWhile_cons]
    by_cases hletter : letter = 0
    · simp [hletter]
    · rw [ih ((List.mem_cons.mp h).resolve_left (Ne.symm hletter))]

end R1Emu.Lib.Buffer
