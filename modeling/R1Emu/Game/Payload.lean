import R1Emu.Game.Handling
import R1Emu.Lib.Buffer

/-!
# Payloads in memory

A handler reads memory, all of which can be read. What it reads within the bounds of its
payload are the payload's own bytes, and a string that ends in the payload ends there in memory.
-/
namespace R1Emu.Game
open R1Emu.Lib.Buffer R1Emu.Server

/-- The bytes lie in memory at `packet`. -/
def Holds (m : Memory) (packet : ℕ) (bytes : List UInt8) : Prop :=
  ∀ i b, bytes[i]? = some b → m (packet + i) = b

section Holds
variable {m : Memory} {packet : ℕ} {bytes : List UInt8}

theorem Holds.tail {b : UInt8} (h : Holds m packet (b :: bytes)) : Holds m (packet + 1) bytes := by
  intro i a ha
  have hbehind := h (i + 1) a ha
  rwa [Nat.add_comm i 1, ← Nat.add_assoc] at hbehind

theorem Holds.drop (h : Holds m packet bytes) (off : ℕ) :
    Holds m (packet + off) (bytes.drop off) := by
  intro i a ha
  rw [List.getElem?_drop] at ha
  rw [Nat.add_assoc]
  exact h _ a ha

/-- What is read within the payload. -/
theorem Holds.read (h : Holds m packet bytes) {off len : ℕ} {part : List UInt8}
    (hpart : slice bytes off len = some part) : m.read (packet + off) len = part := by
  rw [slice] at hpart
  split at hpart
  next hle =>
    cases hpart
    apply List.ext_getElem
    · rw [Memory.read, List.length_map, List.length_range, List.length_take, List.length_drop]
      omega
    · intro i hi hi'
      simp only [Memory.read, List.getElem_map, List.getElem_range, List.getElem_take,
        List.getElem_drop, Nat.add_assoc]
      exact h _ _ (List.getElem?_eq_getElem _)
  next => cases hpart

/-- What is written within the payload. -/
theorem Holds.put (h : Holds m packet bytes) {i : ℕ} {a : UInt8} {bytes' : List UInt8}
    (hput : put bytes i a = some bytes') :
    Holds (Function.update m (packet + i) a) packet bytes' := by
  rw [Lib.Buffer.put] at hput
  split at hput
  next hlt =>
    cases hput
    intro j b hb
    by_cases hj : j = i
    · subst hj
      rw [List.getElem?_set_self hlt] at hb
      rw [Function.update_self]
      exact Option.some.inj hb
    · rw [List.getElem?_set_ne (Ne.symm hj)] at hb
      rw [Function.update_of_ne (by omega)]
      exact h j b hb
  next => cases hput

theorem stringFrom_of_mem (h : Holds m packet bytes) (hmem : 0 ∈ bytes) {fuel : ℕ}
    (hfuel : bytes.length ≤ fuel) :
    stringFrom m fuel packet = bytes.takeWhile (· != 0) := by
  induction bytes generalizing packet fuel with
  | nil => exact absurd hmem List.not_mem_nil
  | cons b bytes ih =>
    have hb : m packet = b := h 0 b rfl
    cases fuel with
    | zero => exact absurd hfuel (Nat.not_succ_le_zero _)
    | succ fuel =>
      rw [stringFrom, hb, List.takeWhile_cons]
      by_cases hzero : b = 0
      · simp [hzero]
      · have hrest := ih h.tail ((List.mem_cons.mp hmem).resolve_left (Ne.symm hzero))
          (Nat.le_of_succ_le_succ hfuel)
        simp [hzero, hrest]

/-- A string that ends within the payload. -/
theorem Holds.string (h : Holds m packet bytes) (hlength : bytes.length ≤ 2 ^ 64) {off : ℕ}
    {text : List UInt8} (htext : cstring bytes off = some text) :
    stringFrom m (2 ^ 64) (packet + off) = text := by
  rw [cstring] at htext
  split at htext
  next hmem =>
    cases htext
    apply stringFrom_of_mem (h.drop off) hmem
    rw [List.length_drop]
    exact (Nat.sub_le _ _).trans hlength
  next => cases htext

end Holds

end R1Emu.Game
