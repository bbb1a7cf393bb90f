import Mathlib.Data.List.Basic
import Mathlib.Data.List.Forall2
import Mathlib.Data.List.TakeWhile
import Mathlib.Data.Nat.Log
import Mathlib.Tactic.IntervalCases

/-!
# Formatted text in C

Texts are strings of bytes. `printf` copies its format and puts the text of its next argument
in the place of each conversion; `strtoul` reads numbers back. An argument is what
is passed: a machine word, of which a conversion without a length modifier prints the low
32 bits, a string, or the bits of a float.
-/
namespace R1Emu.Lib.CFormat

abbrev Text := List UInt8

/-- The bytes of a string literal. -/
def text (s : String) : Text := s.toUTF8.data.toList

/-! ### Numerals -/

def digit (d : ℕ) : UInt8 := UInt8.ofNat d.digitChar.toNat

/-- The digits of a number, without leading zeroes and in lower case. -/
def numeral (base n : ℕ) : Text := (Nat.toDigits base n).map fun c => UInt8.ofNat c.toNat

/-- The value of a character as a digit, and 36 where it is none. -/
def digitValue (c : UInt8) : ℕ :=
  if 48 ≤ c ∧ c ≤ 57 then c.toNat - 48
  else if 97 ≤ c ∧ c ≤ 122 then c.toNat - 87
  else if 65 ≤ c ∧ c ≤ 90 then c.toNat - 55
  else 36

/-- The value of the digits at the front of a text. -/
def digitsValue (base : ℕ) (s : Text) : ℕ :=
  (s.takeWhile (digitValue · < base)).foldl (fun n c => n * base + digitValue c) 0

theorem numeral_eq {base : ℕ} (hbase : 1 < base) (n : ℕ) : numeral base n =
    if n < base then [digit n] else numeral base (n / base) ++ [digit (n % base)] := by
  rw [numeral, Nat.toDigits_eq_if hbase]
  split
  · rfl
  · rw [List.map_append]
    rfl

theorem digitValue_digit {d : ℕ} (hd : d < 16) : digitValue (digit d) = d := by
  interval_cases d <;> rfl

theorem numeral_ne_nil (base n : ℕ) : numeral base n ≠ [] :=
  List.map_eq_nil_iff.not.mpr Nat.toDigits_ne_nil

theorem length_numeral_le {base n k : ℕ} (hbase : 1 < base) (hk : 0 < k) (hn : n < base ^ k) :
    (numeral base n).length ≤ k := by
  rw [numeral, List.length_map]
  exact (Nat.length_toDigits_le_iff hbase hk).mpr hn

/-- As many digits as the logarithm says. -/
theorem length_numeral {base : ℕ} (hbase : 1 < base) (n : ℕ) :
    (numeral base n).length = Nat.log base n + 1 := by
  induction n using Nat.strong_induction_on with
  | _ n ih =>
    rw [numeral_eq hbase]
    split
    case isTrue hlt => rw [Nat.log_of_lt hlt, List.length_singleton]
    case isFalse hge =>
      have hdiv : n / base < n := Nat.div_lt_self (by omega) hbase
      rw [List.length_append, ih _ hdiv, Nat.log_of_one_lt_of_le hbase (Nat.le_of_not_lt hge)]
      rfl

/-- What is left of a number of which only this many digits are kept. -/
def leading (base room n : ℕ) : ℕ := n / base ^ (Nat.log base n + 1 - room)

section Leading

variable {base room n : ℕ} (hbase : 1 < base)

theorem leading_of_log_lt (h : Nat.log base n < room) : leading base room n = n := by
  rw [leading, Nat.sub_eq_zero_of_le h, pow_zero, Nat.div_one]

theorem leading_of_lt (hroom : 0 < room) (h : n < base ^ room) : leading base room n = n :=
  leading_of_log_lt (Nat.log_lt_of_lt_pow' hroom.ne' h)

include hbase

/-- A digit that is cut off anyway does not matter. -/
theorem leading_div (hroom : 0 < room) (h : base ^ (room - 1) ≤ n / base) :
    leading base room (n / base) = leading base room n := by
  have hpos : 0 < base ^ (room - 1) := Nat.pow_pos (by omega)
  have hge : base ≤ n := by
    by_contra hlt
    rw [Nat.div_eq_of_lt (Nat.lt_of_not_le hlt)] at h
    omega
  have hlog : Nat.log base n = Nat.log base (n / base) + 1 := Nat.log_of_one_lt_of_le hbase hge
  have hroom' : room - 1 ≤ Nat.log base (n / base) := Nat.le_log_of_pow_le hbase h
  have hsub : Nat.log base (n / base) + 1 + 1 - room = Nat.log base (n / base) + 1 - room + 1 := by
    omega
  rw [leading, leading, hlog, hsub, pow_succ', Nat.div_div_eq_div_mul]

theorem le_leading (hroom : 0 < room) (h : base ^ (room - 1) ≤ n) :
    base ^ (room - 1) ≤ leading base room n := by
  have hpos : 0 < n := (Nat.pow_pos (by omega)).trans_le h
  have hlog : room - 1 ≤ Nat.log base n := Nat.le_log_of_pow_le hbase h
  have hsplit : room - 1 + (Nat.log base n + 1 - room) = Nat.log base n := by omega
  rw [leading, Nat.le_div_iff_mul_le (Nat.pow_pos (by omega)), ← pow_add, hsplit]
  exact Nat.pow_log_le_self base hpos.ne'

end Leading

/-- The front of a numeral is a numeral. -/
theorem take_numeral {base room : ℕ} (hbase : 1 < base) (hroom : 0 < room) (n : ℕ) :
    (numeral base n).take room = numeral base (leading base room n) := by
  induction n using Nat.strong_induction_on with
  | _ n ih =>
    by_cases hfits : Nat.log base n + 1 ≤ room
    · rw [leading_of_log_lt hfits,
        List.take_of_length_le ((length_numeral hbase n).trans_le hfits)]
    · have hge : base ≤ n := by
        by_contra hlt
        rw [Nat.log_of_lt (Nat.lt_of_not_le hlt)] at hfits
        exact hfits hroom
      have hlog : Nat.log base n = Nat.log base (n / base) + 1 :=
        Nat.log_of_one_lt_of_le hbase hge
      have hsub : Nat.log base (n / base) + 1 + 1 - room =
          Nat.log base (n / base) + 1 - room + 1 := by omega
      have hshort : room ≤ (numeral base (n / base)).length := by
        rw [length_numeral hbase]
        omega
      rw [numeral_eq hbase, if_neg (Nat.not_lt.mpr hge), List.take_append_of_le_length hshort,
        ih _ (Nat.div_lt_self (by omega) hbase), leading, leading, hlog, hsub, pow_succ',
        Nat.div_div_eq_div_mul]

section Base

variable {base : ℕ} (hbase : 1 < base) (hbase' : base ≤ 16)

include hbase hbase'

theorem digitValue_lt_of_mem_numeral {n : ℕ} {c : UInt8} (hc : c ∈ numeral base n) :
    digitValue c < base := by
  induction n using Nat.strong_induction_on with
  | _ n ih =>
    rw [numeral_eq hbase] at hc
    split at hc
    case isTrue hlt =>
      rw [List.mem_singleton.mp hc, digitValue_digit (hlt.trans_le hbase')]
      exact hlt
    case isFalse hge =>
      have hmod : n % base < base := Nat.mod_lt n (by omega)
      rcases List.mem_append.mp hc with hc | hc
      · exact ih (n / base) (Nat.div_lt_self (by omega) hbase) hc
      · rw [List.mem_singleton.mp hc, digitValue_digit (hmod.trans_le hbase')]
        exact hmod

theorem foldl_numeral (n : ℕ) :
    (numeral base n).foldl (fun n c => n * base + digitValue c) 0 = n := by
  induction n using Nat.strong_induction_on with
  | _ n ih =>
    rw [numeral_eq hbase]
    split
    case isTrue hlt =>
      rw [List.foldl_cons, digitValue_digit (hlt.trans_le hbase')]
      simp
    case isFalse hge =>
      have hmod : n % base < base := Nat.mod_lt n (by omega)
      rw [List.foldl_append, ih (n / base) (Nat.div_lt_self (by omega) hbase), List.foldl_cons,
        List.foldl_nil, digitValue_digit (hmod.trans_le hbase'), Nat.div_add_mod']

theorem digitsValue_numeral (n : ℕ) : digitsValue base (numeral base n) = n := by
  have hall : (numeral base n).takeWhile (digitValue · < base) = numeral base n :=
    List.takeWhile_eq_self_iff.mpr fun c hc =>
      decide_eq_true (digitValue_lt_of_mem_numeral hbase hbase' hc)
  rw [digitsValue, hall, foldl_numeral hbase hbase']

theorem numeral_injective : Function.Injective (numeral base) :=
  Function.LeftInverse.injective (digitsValue_numeral hbase hbase')

end Base

/-- A number with a sign. -/
def decimal (z : ℤ) : Text := if z < 0 then 45 :: numeral 10 z.natAbs else numeral 10 z.natAbs

theorem minus_notMem_numeral (n : ℕ) : 45 ∉ numeral 10 n := fun hmem =>
  absurd (digitValue_lt_of_mem_numeral (by decide) (by decide) hmem) (by decide)

/-- A text that starts with a numeral does not start with a sign. -/
theorem numeral_ne_cons_minus (n : ℕ) (s : Text) : numeral 10 n ≠ 45 :: s := fun h =>
  minus_notMem_numeral n (h ▸ List.mem_cons_self)

/-- A number is a minus sign at most, and digits. -/
theorem decimal_digits {z : ℤ} {c : UInt8} (hc : c ∈ decimal z) : c = 45 ∨ digitValue c < 10 := by
  rw [decimal] at hc
  split at hc
  · rcases List.mem_cons.mp hc with rfl | hc
    · exact .inl rfl
    · exact .inr (digitValue_lt_of_mem_numeral (by decide) (by decide) hc)
  · exact .inr (digitValue_lt_of_mem_numeral (by decide) (by decide) hc)

theorem notMem_decimal {c : UInt8} (h : c ≠ 45) (h' : 10 ≤ digitValue c) (z : ℤ) :
    c ∉ decimal z := by
  intro hc
  rcases decimal_digits hc with hminus | hdigit
  · exact h hminus
  · exact absurd hdigit (Nat.not_lt.mpr h')

theorem decimal_ne_nil (z : ℤ) : decimal z ≠ [] := by
  rw [decimal]
  split
  · exact List.cons_ne_nil _ _
  · exact numeral_ne_nil 10 _

/-! ### Upper case and leading zeroes -/

/-- `toupper` in the C locale. -/
def toupper (c : UInt8) : UInt8 := if 97 ≤ c ∧ c ≤ 122 then c - 32 else c

/-- `%0wX` of a number. -/
def padded (width n : ℕ) : Text :=
  List.replicate (width - (numeral 16 n).length) 48 ++ (numeral 16 n).map toupper

/-- The digits that `%X` prints. -/
def UpperDigit (c : UInt8) : Prop := 48 ≤ c ∧ c ≤ 57 ∨ 65 ≤ c ∧ c ≤ 70

instance (c : UInt8) : Decidable (UpperDigit c) := inferInstanceAs (Decidable (_ ∨ _))

theorem digitValue_toupper_digit {d : ℕ} (hd : d < 16) : digitValue (toupper (digit d)) = d := by
  interval_cases d <;> rfl

theorem upperDigit_toupper {d : ℕ} (hd : d < 16) : UpperDigit (toupper (digit d)) := by
  interval_cases d <;> decide

theorem toupper_digit_of_upperDigit {c : UInt8} (h : UpperDigit c) :
    digitValue c < 16 ∧ toupper (digit (digitValue c)) = c := by
  have hall : ∀ n < 256, UpperDigit (UInt8.ofNat n) → digitValue (UInt8.ofNat n) < 16 ∧
      toupper (digit (digitValue (UInt8.ofNat n))) = UInt8.ofNat n := by
    decide +kernel
  have hc := hall c.toNat c.toNat_lt
  rw [UInt8.ofNat_toNat] at hc
  exact hc h

/-- A byte is printed with a digit for each half. -/
theorem padded_two {n : ℕ} (hn : n < 256) :
    padded 2 n = [toupper (digit (n / 16)), toupper (digit (n % 16))] := by
  have hzero : toupper (digit 0) = 48 := rfl
  by_cases hsmall : n < 16
  · rw [padded, numeral_eq (by decide), if_pos hsmall, Nat.div_eq_of_lt hsmall,
      Nat.mod_eq_of_lt hsmall, hzero]
    rfl
  · have hhigh : n / 16 < 16 := Nat.div_lt_of_lt_mul hn
    rw [padded, numeral_eq (by decide), if_neg hsmall, numeral_eq (by decide), if_pos hhigh]
    rfl

theorem plain_of_digitValue {base : ℕ} (hbase : base ≤ 36) {c : UInt8} (h : digitValue c < base) :
    c ≠ 32 ∧ c ≠ 37 := by
  constructor <;>
  · rintro rfl
    exact absurd h (Nat.not_lt.mpr hbase)

/-! ### Conversions -/

/-- The quotient rounded to the nearest integer, and to the even one of two. -/
def divRound (n d : ℕ) : ℕ :=
  if d < 2 * (n % d) ∨ 2 * (n % d) = d ∧ n / d % 2 = 1 then n / d + 1 else n / d

/-- The absolute value of a finite float in millionths. -/
def millionths (bits : UInt32) : ℕ :=
  let exponent := bits.toNat / 2 ^ 23 % 2 ^ 8
  let fraction := bits.toNat % 2 ^ 23
  let mantissa := if exponent = 0 then fraction else 2 ^ 23 + fraction
  if 150 ≤ exponent then mantissa * 2 ^ (exponent - 150) * 10 ^ 6
  else divRound (mantissa * 10 ^ 6) (2 ^ (150 - max exponent 1))

def sixDigits (n : ℕ) : Text := [5, 4, 3, 2, 1, 0].map fun i => digit (n / 10 ^ i % 10)

/-- `%f` of a float with these bits. -/
def formatFloat (bits : UInt32) : Text :=
  (if bits.toNat / 2 ^ 31 = 1 then [45] else []) ++
    if bits.toNat / 2 ^ 23 % 2 ^ 8 = 255 then
      if bits.toNat % 2 ^ 23 = 0 then [105, 110, 102] else [110, 97, 110]
    else numeral 10 (millionths bits / 10 ^ 6) ++ 46 :: sixDigits (millionths bits % 10 ^ 6)

/-- A text without spaces and percent signs. -/
def Plain (s : Text) : Prop := ∀ c ∈ s, c ≠ 32 ∧ c ≠ 37

instance (s : Text) : Decidable (Plain s) := List.decidableBAll _ s

theorem plain_append {s t : Text} : Plain (s ++ t) ↔ Plain s ∧ Plain t := List.forall_mem_append

theorem numeral_plain {base : ℕ} (hbase : 1 < base) (hbase' : base ≤ 16) (n : ℕ) :
    Plain (numeral base n) := fun _ hc =>
  plain_of_digitValue (hbase'.trans (by decide)) (digitValue_lt_of_mem_numeral hbase hbase' hc)

/-- Digits and letters, a sign and a point. -/
theorem mem_formatFloat {bits : UInt32} {c : UInt8} (hc : c ∈ formatFloat bits) :
    digitValue c < 36 ∨ c = 45 ∨ c = 46 := by
  have hdigit : ∀ {c : UInt8}, digitValue c < 10 → digitValue c < 36 :=
    fun h => h.trans (by decide)
  rcases List.mem_append.mp hc with hc | hc
  · split at hc
    · exact .inr (.inl (List.mem_singleton.mp hc))
    · cases hc
  split at hc
  · have hletters : c ∈ [(105 : UInt8), 110, 102, 97] := by
      split at hc
      · exact (by decide : [(105 : UInt8), 110, 102] ⊆ [105, 110, 102, 97]) hc
      · exact (by decide : [(110 : UInt8), 97, 110] ⊆ [105, 110, 102, 97]) hc
    simp only [List.mem_cons, List.not_mem_nil, or_false] at hletters
    rcases hletters with rfl | rfl | rfl | rfl <;> exact .inl (by decide)
  · rcases List.mem_append.mp hc with hc | hc
    · exact .inl (hdigit (digitValue_lt_of_mem_numeral (by decide) (by decide) hc))
    · rcases List.mem_cons.mp hc with rfl | hc
      · exact .inr (.inr rfl)
      · obtain ⟨i, -, rfl⟩ := List.mem_map.mp hc
        have hmod : millionths bits % 10 ^ 6 / 10 ^ i % 10 < 10 := Nat.mod_lt _ (by decide)
        left
        rw [digitValue_digit (hmod.trans (by decide))]
        exact hmod.trans (by decide)

theorem formatFloat_plain (bits : UInt32) : Plain (formatFloat bits) := by
  intro c hc
  rcases mem_formatFloat hc with hc | rfl | rfl
  · exact plain_of_digitValue (le_refl 36) hc
  · decide
  · decide

theorem divRound_le (n d : ℕ) : divRound n d ≤ n / d + 1 := by
  unfold divRound
  split <;> omega

/-- The largest float has 39 digits in front of its point. -/
theorem millionths_lt {bits : UInt32} (hfinite : bits.toNat / 2 ^ 23 % 2 ^ 8 ≠ 255) :
    millionths bits / 10 ^ 6 < 10 ^ 39 := by
  have hexponent : bits.toNat / 2 ^ 23 % 2 ^ 8 ≤ 254 := by omega
  generalize hmantissa : (if bits.toNat / 2 ^ 23 % 2 ^ 8 = 0 then bits.toNat % 2 ^ 23
    else 2 ^ 23 + bits.toNat % 2 ^ 23) = mantissa
  have hlt : mantissa < 2 ^ 24 := by
    rw [← hmantissa]
    split <;> omega
  have hlarge : (2 : ℕ) ^ 24 * 2 ^ 104 ≤ 10 ^ 39 := by decide
  simp only [millionths, hmantissa]
  split
  · have hpow : 2 ^ (bits.toNat / 2 ^ 23 % 2 ^ 8 - 150) ≤ 2 ^ 104 :=
      Nat.pow_le_pow_right (by decide) (by omega)
    rw [Nat.mul_div_cancel _ (by decide)]
    exact (Nat.mul_lt_mul_of_lt_of_le hlt hpow (by decide)).trans_le hlarge
  · have hround := divRound_le (mantissa * 10 ^ 6) (2 ^ (150 - max (bits.toNat / 2 ^ 23 % 2 ^ 8) 1))
    have hdiv : mantissa * 10 ^ 6 / 2 ^ (150 - max (bits.toNat / 2 ^ 23 % 2 ^ 8) 1) ≤
        mantissa * 10 ^ 6 := Nat.div_le_self _ _
    omega

theorem length_formatFloat_le (bits : UInt32) : (formatFloat bits).length ≤ 47 := by
  have hsign : (if bits.toNat / 2 ^ 31 = 1 then [(45 : UInt8)] else []).length ≤ 1 := by
    split <;> simp
  have hrest : (if bits.toNat / 2 ^ 23 % 2 ^ 8 = 255 then
      if bits.toNat % 2 ^ 23 = 0 then [(105 : UInt8), 110, 102] else [110, 97, 110]
    else numeral 10 (millionths bits / 10 ^ 6) ++ 46 :: sixDigits (millionths bits % 10 ^ 6)).length
      ≤ 46 := by
    split
    · split <;> simp
    · next hfinite =>
      have hwhole := length_numeral_le (by decide) (by decide) (millionths_lt hfinite)
      rw [List.length_append, List.length_cons, sixDigits, List.length_map]
      simp only [List.length_cons, List.length_nil]
      omega
  rw [formatFloat, List.length_append]
  omega

theorem formatFloat_ne_nil (bits : UInt32) : formatFloat bits ≠ [] := by
  apply List.append_ne_nil_of_right_ne_nil
  split
  · split <;> decide
  · exact List.append_ne_nil_of_right_ne_nil _ (List.cons_ne_nil _ _)

/-- `%s`, `%x`, `%llx`, `%f`, `%u`, `%d` and `%llu`. -/
inductive Conversion
  | s | x | llx | f | u | d | llu
  deriving DecidableEq

inductive Arg
  | string (s : Text)
  | word (n : UInt64)
  | float (bits : UInt32)

/-- The text of an argument; a conversion of another kind of argument is undefined. -/
def convert : Conversion → Arg → Option Text
  | .s, .string s => some s
  | .x, .word n => some (numeral 16 (n.toNat % 2 ^ 32))
  | .llx, .word n => some (numeral 16 n.toNat)
  | .f, .float bits => some (formatFloat bits)
  | .u, .word n => some (numeral 10 (n.toNat % 2 ^ 32))
  | .d, .word n => some (decimal n.toUInt32.toInt32.toInt)
  | .llu, .word n => some (numeral 10 n.toNat)
  | _, _ => none

@[simp] theorem convert_string (s : Text) : convert .s (.string s) = some s := rfl

@[simp] theorem convert_long (n : UInt64) :
    convert .llx (.word n) = some (numeral 16 n.toNat) := rfl

@[simp] theorem convert_float (bits : UInt32) :
    convert .f (.float bits) = some (formatFloat bits) := rfl

theorem convert_word {n : UInt64} (hn : n.toNat < 2 ^ 32) :
    convert .x (.word n) = some (numeral 16 n.toNat) := by
  rw [convert, Nat.mod_eq_of_lt hn]

@[simp] theorem convert_uint8 (n : UInt8) :
    convert .x (.word n.toUInt64) = some (numeral 16 n.toNat) :=
  convert_word (n.toNat_lt.trans (by decide))

@[simp] theorem convert_uint16 (n : UInt16) :
    convert .x (.word n.toUInt64) = some (numeral 16 n.toNat) :=
  convert_word (n.toNat_lt.trans (by decide))

@[simp] theorem convert_uint32 (n : UInt32) :
    convert .x (.word n.toUInt64) = some (numeral 16 n.toNat) :=
  convert_word n.toNat_lt

/-- A format, taken apart. -/
inductive Piece
  | text (s : Text)
  | conv (c : Conversion)
  deriving DecidableEq

/-- A format is taken apart character by character. Only a conversion, or another percent sign,
may follow a percent sign. -/
def pieces : Text → Option (List Piece)
  | [] => some []
  | 37 :: 115 :: s => (pieces s).map (.conv .s :: ·)
  | 37 :: 120 :: s => (pieces s).map (.conv .x :: ·)
  | 37 :: 102 :: s => (pieces s).map (.conv .f :: ·)
  | 37 :: 117 :: s => (pieces s).map (.conv .u :: ·)
  | 37 :: 100 :: s => (pieces s).map (.conv .d :: ·)
  | 37 :: 108 :: 108 :: 120 :: s => (pieces s).map (.conv .llx :: ·)
  | 37 :: 108 :: 108 :: 117 :: s => (pieces s).map (.conv .llu :: ·)
  | 37 :: 37 :: s => (pieces s).map (.text [37] :: ·)
  | c :: s => if c = 37 then none else (pieces s).map (.text [c] :: ·)

def printf : List Piece → List Arg → Option Text
  | [], _ => some []
  | .text s :: format, args => (printf format args).map (s ++ ·)
  | .conv _ :: _, [] => none
  | .conv c :: format, arg :: args =>
    (convert c arg).bind fun s => (printf format args).map (s ++ ·)

/-- Whatever follows the format and its arguments is printed behind this text. -/
def Prints (format : List Piece) (args : List Arg) (s : Text) : Prop :=
  ∀ rest restArgs, printf (format ++ rest) (args ++ restArgs) =
    (printf rest restArgs).map (s ++ ·)

theorem Prints.printf_eq {format : List Piece} {args : List Arg} {s : Text}
    (h : Prints format args s) : printf format args = some s := by
  have hall := h [] []
  simpa [printf] using hall

/-- A text in a format. -/
def chars (s : Text) : List Piece := s.map fun c => .text [c]

theorem pieces_cons {c : UInt8} (hc : c ≠ 37) (s : Text) :
    pieces (c :: s) = (pieces s).map (.text [c] :: ·) := by
  rw [pieces, if_neg hc] <;> exact fun _ h => absurd h hc

/-- A format may be taken apart in two parts, unless it is broken in a conversion. -/
theorem pieces_append {s t : Text} {format : List Piece} (h : pieces s = some format) :
    pieces (s ++ t) = (pieces t).map (format ++ ·) := by
  fun_induction pieces s generalizing format with
  | case1 =>
    cases h
    simp
  | case10 => cases h
  | case2 s ih | case3 s ih | case4 s ih | case5 s ih | case6 s ih | case7 s ih | case8 s ih
  | case9 s ih =>
    obtain ⟨rest, hrest, rfl⟩ := Option.map_eq_some_iff.mp h
    simp only [List.cons_append, pieces, ih hrest, Option.map_map]
    rfl
  | case11 c s _ _ _ _ _ _ _ _ hc ih =>
    obtain ⟨rest, hrest, rfl⟩ := Option.map_eq_some_iff.mp h
    rw [List.cons_append, pieces_cons hc, ih hrest, Option.map_map]
    rfl

theorem pieces_append_of {s t : Text} {f g : List Piece} (h : pieces s = some f)
    (h' : pieces t = some g) : pieces (s ++ t) = some (f ++ g) := by
  rw [pieces_append h, h', Option.map_some]

theorem pieces_flatMap {α : Type} {rows : List α} {text : α → Text} {format : α → List Piece}
    (h : ∀ row ∈ rows, pieces (text row) = some (format row)) :
    pieces (rows.flatMap text) = some (rows.flatMap format) := by
  induction rows with
  | nil => rfl
  | cons row rows ih =>
    obtain ⟨hrow, hrows⟩ := List.forall_mem_cons.mp h
    exact pieces_append_of hrow (ih hrows)

theorem prints_nil : Prints [] [] [] := by
  intro rest restArgs
  simp

theorem prints_text (s : Text) : Prints [.text s] [] s := fun _ _ => rfl

theorem prints_conv {c : Conversion} {arg : Arg} {s : Text} (h : convert c arg = some s) :
    Prints [.conv c] [arg] s := by
  intro rest restArgs
  rw [List.singleton_append, List.singleton_append, printf, h, Option.bind_some]

theorem Prints.append {f g : List Piece} {as bs : List Arg} {s t : Text} (h : Prints f as s)
    (h' : Prints g bs t) : Prints (f ++ g) (as ++ bs) (s ++ t) := by
  intro rest restArgs
  rw [List.append_assoc, List.append_assoc, h, h', Option.map_map]
  congr 1
  funext u
  exact (List.append_assoc s t u).symm

theorem prints_texts {α : Type} (piece : α → Text) (rows : List α) :
    Prints (rows.map fun row => .text (piece row)) [] (rows.flatMap piece) := by
  induction rows with
  | nil => exact prints_nil
  | cons row rows ih => exact (prints_text (piece row)).append ih

theorem prints_chars (s : Text) : Prints (chars s) [] s := by
  have h := prints_texts (fun c => [c]) s
  rwa [List.flatMap_singleton'] at h

/-- A format that repeats a pattern for each row takes one argument for each of them. -/
theorem prints_flatMap {α : Type} {pattern : α → List Piece} {value : α → Text} {rows : List α}
    {args : List Arg} (h : List.Forall₂ (fun row arg => Prints (pattern row) [arg] (value row))
      rows args) : Prints (rows.flatMap pattern) args (rows.flatMap value) := by
  induction h with
  | nil => exact prints_nil
  | cons hrow _ ih => exact hrow.append ih

/-! ### Reading numbers -/

/-- `isspace` in the C locale. -/
def isspace (c : UInt8) : Bool := c == 32 || (9 ≤ c && c ≤ 13)

/-- The sign in front of a number, and what follows it. -/
def splitSign : Text → Bool × Text
  | 45 :: s => (true, s)
  | 43 :: s => (false, s)
  | s => (false, s)

/-- A hexadecimal number may have `0x` in front of its digits. -/
def dropBasePrefix (base : ℕ) : Text → Text
  | 48 :: x :: c :: s =>
    if base = 16 ∧ (x = 120 ∨ x = 88) ∧ digitValue c < 16 then c :: s else 48 :: x :: c :: s
  | s => s

/-- Whether a number is negative, and its absolute value. -/
def readNumber (base : ℕ) (s : Text) : Bool × ℕ :=
  let signed := splitSign (s.dropWhile isspace)
  (signed.1, digitsValue base (dropBasePrefix base signed.2))

/-- `strtoul`, with a `long` of 64 bits as on Linux: a negative number wraps around. -/
def strtoul (base : ℕ) (s : Text) : ℕ :=
  let (negative, n) := readNumber base s
  if 2 ^ 64 ≤ n then 2 ^ 64 - 1 else if negative then (2 ^ 64 - n) % 2 ^ 64 else n

/-- `strtol`, with a `long` of 64 bits as on Linux: the nearest number in range. -/
def strtol (base : ℕ) (s : Text) : ℤ :=
  let (negative, n) := readNumber base s
  if negative then max (-n) (-2 ^ 63) else min n (2 ^ 63 - 1)

/-- `strtol`, with a `long` of 32 bits as on Windows. -/
def strtol32 (base : ℕ) (s : Text) : ℤ :=
  let (negative, n) := readNumber base s
  if negative then max (-n) (-2 ^ 31) else min n (2 ^ 31 - 1)

/-- How much of a text `strtol` reads as a decimal number; nothing, where there are no digits. -/
def numberLength (s : Text) : ℕ :=
  let digits := (splitSign (s.dropWhile isspace)).2.takeWhile (digitValue · < 10)
  if digits = [] then 0
  else s.length - (splitSign (s.dropWhile isspace)).2.length + digits.length

/-- The `x` of a prefix is no digit. -/
theorem dropBasePrefix_digits (base : ℕ) {s : Text} (h : ∀ c ∈ s, digitValue c < 16) :
    dropBasePrefix base s = s := by
  unfold dropBasePrefix
  split
  next x c s =>
    rw [if_neg]
    rintro ⟨-, hx | hx, -⟩
    · have hbad := h 120 (by rw [hx]; simp)
      exact absurd hbad (by decide)
    · have hbad := h 88 (by rw [hx]; simp)
      exact absurd hbad (by decide)
  next => rfl

/-- A digit is no space and no sign. -/
theorem digit_front {c : UInt8} (h : digitValue c < 16) : isspace c = false ∧ c ≠ 45 ∧ c ≠ 43 := by
  have hall : ∀ n < 256, digitValue (UInt8.ofNat n) < 16 → isspace (UInt8.ofNat n) = false ∧
      UInt8.ofNat n ≠ 45 ∧ UInt8.ofNat n ≠ 43 := by
    decide +kernel
  have hc := hall c.toNat c.toNat_lt
  rw [UInt8.ofNat_toNat] at hc
  exact hc h

/-- Spaces are skipped in front of a digit. -/
theorem splitSign_digit {c : UInt8} {s spaces : Text} (h : digitValue c < 16)
    (hspaces : ∀ x ∈ spaces, isspace x) :
    splitSign ((spaces ++ c :: s).dropWhile isspace) = (false, c :: s) := by
  obtain ⟨hspace, hminus, hplus⟩ := digit_front h
  rw [List.dropWhile_append_of_pos hspaces, List.dropWhile_cons_of_neg (by rw [hspace]; decide)]
  unfold splitSign
  split
  next heq => exact absurd (List.cons.inj heq).1 hminus
  next heq => exact absurd (List.cons.inj heq).1 hplus
  next => rfl

theorem readNumber_digits (base : ℕ) {s : Text} (h : ∀ c ∈ s, digitValue c < 16) :
    readNumber base s = (false, digitsValue base s) := by
  have hsign : splitSign (s.dropWhile isspace) = (false, s) := by
    cases s with
    | nil => rfl
    | cons c s => exact splitSign_digit (h c List.mem_cons_self) (List.forall_mem_nil _)
  rw [readNumber, hsign, dropBasePrefix_digits base h]

theorem strtoul_digits {s : Text} (h : ∀ c ∈ s, digitValue c < 16)
    (hlt : digitsValue 16 s < 2 ^ 64) : strtoul 16 s = digitsValue 16 s := by
  rw [strtoul, readNumber_digits 16 h]
  simp only [Nat.not_le.mpr hlt, if_false, Bool.false_eq_true]

/-- What is printed in hexadecimal digits is read back. -/
theorem strtoul_numeral {n : ℕ} (hn : n < 2 ^ 64) : strtoul 16 (numeral 16 n) = n := by
  have hvalue : digitsValue 16 (numeral 16 n) = n := digitsValue_numeral (by decide) (by decide) n
  rw [strtoul_digits (fun c => digitValue_lt_of_mem_numeral (by decide) (by decide))
    (hvalue.trans_lt hn), hvalue]

theorem decimal_natCast (n : ℕ) : decimal n = numeral 10 n :=
  if_neg (Int.natCast_nonneg n).not_gt

/-- The sign and the digits of a number that is printed in decimal digits. -/
theorem readNumber_decimal (z : ℤ) : readNumber 10 (decimal z) = (decide (z < 0), z.natAbs) := by
  have hdigits : ∀ c ∈ numeral 10 z.natAbs, digitValue c < 16 := fun c hc =>
    (digitValue_lt_of_mem_numeral (by decide) (by decide) hc).trans (by decide)
  have hvalue : digitsValue 10 (numeral 10 z.natAbs) = z.natAbs :=
    digitsValue_numeral (by decide) (by decide) _
  rcases lt_or_ge z 0 with hneg | hpos
  · have hspace : List.dropWhile isspace (45 :: numeral 10 z.natAbs) =
        45 :: numeral 10 z.natAbs := List.dropWhile_cons_of_neg (by decide)
    rw [decimal, if_pos hneg, readNumber, hspace]
    simp only [splitSign, dropBasePrefix_digits 10 hdigits, hvalue, hneg, decide_true]
  · rw [decimal, if_neg hpos.not_gt, readNumber_digits 10 hdigits, hvalue,
      decide_eq_false hpos.not_gt]

/-- So is a number that is printed in decimal digits. -/
theorem strtol_signed {z : ℤ} (hz : z.natAbs < 2 ^ 63) : strtol 10 (decimal z) = z := by
  rw [strtol, readNumber_decimal]
  simp only [decide_eq_true_eq]
  split <;> omega

theorem strtol_decimal {n : ℕ} (hn : n < 2 ^ 63) : strtol 10 (decimal n) = n :=
  strtol_signed hn

/-- A number of 32 bits is read alike. -/
theorem strtol32_eq_strtol {base : ℕ} {s : Text} (hlow : -2 ^ 31 ≤ strtol base s)
    (hhigh : strtol base s < 2 ^ 31) : strtol32 base s = strtol base s := by
  rw [strtol] at hlow hhigh ⊢
  rw [strtol32]
  dsimp only at hlow hhigh ⊢
  split at hlow <;> rename_i hnegative
  · rw [if_pos hnegative] at hhigh
    rw [if_pos hnegative, if_pos hnegative]
    omega
  · rw [if_neg hnegative] at hhigh
    rw [if_neg hnegative, if_neg hnegative]
    omega

theorem strtol32_decimal (z : ℤ) :
    strtol32 10 (decimal z) = max (-2 ^ 31) (min z (2 ^ 31 - 1)) := by
  rw [strtol32, readNumber_decimal]
  simp only [decide_eq_true_eq]
  split <;> omega

end R1Emu.Lib.CFormat
