import Mathlib.Data.List.Basic
import Mathlib.Tactic.Ring

/-!
# Little-endian byte strings

Fixed-width little-endian images of unsigned integers. Encoding has the stated width,
decoding reads exactly that width, and each is the inverse of the other.
-/
namespace R1Emu.Lib.Bytes

/-- The `w` low-order bytes of `n`, least significant first. -/
def leBytes : ℕ → ℕ → List UInt8
  | 0, _ => []
  | w + 1, n => UInt8.ofNat n :: leBytes w (n / 256)

/-- The value of a little-endian byte string. -/
def leValue : List UInt8 → ℕ
  | [] => 0
  | b :: bs => b.toNat + 256 * leValue bs

@[simp] theorem leBytes_length (w n : ℕ) : (leBytes w n).length = w := by
  induction w generalizing n with
  | zero => rfl
  | succ w ih => simp [leBytes, ih]

theorem leValue_leBytes (w n : ℕ) : leValue (leBytes w n) = n % 256 ^ w := by
  induction w generalizing n with
  | zero => simp [leBytes, leValue, Nat.mod_one]
  | succ w ih =>
    rw [leBytes, leValue, ih, UInt8.toNat_ofNat', pow_succ' 256 w, Nat.mod_mul]

theorem leValue_leBytes_of_lt {w n : ℕ} (h : n < 256 ^ w) : leValue (leBytes w n) = n := by
  rw [leValue_leBytes, Nat.mod_eq_of_lt h]

theorem leValue_lt (bs : List UInt8) : leValue bs < 256 ^ bs.length := by
  induction bs with
  | nil => simp [leValue]
  | cons b bs ih =>
    have hb := b.toNat_lt
    rw [leValue, List.length_cons, pow_succ']
    omega

theorem leBytes_leValue (bs : List UInt8) : leBytes bs.length (leValue bs) = bs := by
  induction bs with
  | nil => rfl
  | cons b bs ih =>
    have hb := b.toNat_lt
    have hd : (b.toNat + 256 * leValue bs) / 256 = leValue bs := by omega
    rw [List.length_cons, leValue, leBytes, hd, ih]
    congr 1
    apply UInt8.toNat_inj.mp
    rw [UInt8.toNat_ofNat']
    omega

theorem leBytes_injective {w m n : ℕ} (hm : m < 256 ^ w) (hn : n < 256 ^ w)
    (h : leBytes w m = leBytes w n) : m = n := by
  rw [← leValue_leBytes_of_lt hm, h, leValue_leBytes_of_lt hn]

section Layout
variable {α : Type*}

/-- Where a record starts behind the ones in front of it. -/
def recordOffset (sizes : List ℕ) (i : ℕ) : ℕ := (sizes.take i).sum

/-- Each record of a sequence stands at its offset. -/
theorem record_at (front back : List α) {records : List (List α)} {i : ℕ} {r : List α}
    (hr : records[i]? = some r) :
    ((front ++ (records.flatten ++ back)).drop
      (front.length + recordOffset (records.map List.length) i)).take r.length = r := by
  obtain ⟨hi, rfl⟩ := List.getElem?_eq_some_iff.mp hr
  have hsplit : records.flatten =
      (records.take i).flatten ++ (records[i] ++ (records.drop (i + 1)).flatten) := by
    rw [← List.flatten_cons, ← List.flatten_append, ← List.drop_eq_getElem_cons hi,
      List.take_append_drop]
  have hlength : recordOffset (records.map List.length) i = (records.take i).flatten.length := by
    rw [recordOffset, List.length_flatten, List.map_take]
  rw [← List.drop_drop, List.drop_left, hlength, hsplit, List.append_assoc, List.drop_left,
    List.append_assoc, List.take_left]

end Layout

end R1Emu.Lib.Bytes
