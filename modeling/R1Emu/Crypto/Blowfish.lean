import R1Emu.Lib.Bytes
import R1Emu.Lib.CFormat
import R1Emu.Lib.Feistel
import Mathlib.Data.List.GetD
import Mathlib.Data.Nat.Bitwise
import Mathlib.Data.Fintype.Basic
import Mathlib.Tactic.FinCases

/-!
# Blowfish

The cipher of the client's packets. Encryption and decryption are one network with the subkeys in
opposite orders, so that they are inverse under every key schedule.
-/
namespace R1Emu.Crypto
open R1Emu.Lib R1Emu.Lib.CFormat

/-! ### Words -/

/-- `n2l`, from the next four bytes. -/
def n2l (b₀ b₁ b₂ b₃ : UInt8) : UInt32 :=
  b₀.toUInt32 <<< 24 ||| b₁.toUInt32 <<< 16 ||| b₂.toUInt32 <<< 8 ||| b₃.toUInt32

/-- The byte at a position that `l2n` writes. -/
def l2n (l : UInt32) : Fin 4 → UInt8
  | 0 => (l >>> 24).toUInt8
  | 1 => (l >>> 16).toUInt8
  | 2 => (l >>> 8).toUInt8
  | 3 => l.toUInt8

theorem or_eq_add {a b k : ℕ} (ha : 2 ^ k ∣ a) (hb : b < 2 ^ k) : a ||| b = a + b := by
  obtain ⟨c, rfl⟩ := ha
  exact (Nat.two_pow_add_eq_or_of_lt hb c).symm

theorem toNat_n2l (b₀ b₁ b₂ b₃ : UInt8) : (n2l b₀ b₁ b₂ b₃).toNat =
    b₀.toNat * 2 ^ 24 + b₁.toNat * 2 ^ 16 + b₂.toNat * 2 ^ 8 + b₃.toNat := by
  have h₀ := b₀.toNat_lt
  have h₁ := b₁.toNat_lt
  have h₂ := b₂.toNat_lt
  have h₃ := b₃.toNat_lt
  have hshift : ∀ (b : UInt8) (k : ℕ), k ≤ 24 → b.toNat <<< k % 2 ^ 32 = b.toNat * 2 ^ k := by
    intro b k hk
    rw [Nat.shiftLeft_eq]
    apply Nat.mod_eq_of_lt
    calc b.toNat * 2 ^ k ≤ b.toNat * 2 ^ 24 :=
          Nat.mul_le_mul_left _ (Nat.pow_le_pow_right (by decide) hk)
      _ < 2 ^ 32 := by
          have := b.toNat_lt
          omega
  have hwords : (n2l b₀ b₁ b₂ b₃).toNat =
      b₀.toNat * 2 ^ 24 ||| b₁.toNat * 2 ^ 16 ||| b₂.toNat * 2 ^ 8 ||| b₃.toNat := by
    simp only [n2l, UInt32.toNat_or, UInt32.toNat_shiftLeft, UInt8.toNat_toUInt32]
    exact congrArg₂ (· ||| ·) (congrArg₂ (· ||| ·) (congrArg₂ (· ||| ·) (hshift b₀ 24 le_rfl)
      (hshift b₁ 16 (by decide))) (hshift b₂ 8 (by decide))) rfl
  have h₁₆ : b₀.toNat * 2 ^ 24 ||| b₁.toNat * 2 ^ 16 = b₀.toNat * 2 ^ 24 + b₁.toNat * 2 ^ 16 :=
    or_eq_add (k := 24) (by omega) (by omega)
  have h₈ : b₀.toNat * 2 ^ 24 + b₁.toNat * 2 ^ 16 ||| b₂.toNat * 2 ^ 8 =
      b₀.toNat * 2 ^ 24 + b₁.toNat * 2 ^ 16 + b₂.toNat * 2 ^ 8 :=
    or_eq_add (k := 16) (by omega) (by omega)
  rw [hwords, h₁₆, h₈, or_eq_add (k := 8) (by omega) (by omega)]

theorem n2l_l2n (l : UInt32) : n2l (l2n l 0) (l2n l 1) (l2n l 2) (l2n l 3) = l := by
  have h := l.toNat_lt
  rw [← UInt32.toNat_inj, toNat_n2l]
  simp [l2n, Nat.shiftRight_eq_div_pow]
  omega

theorem l2n_n2l (bytes : Fin 4 → UInt8) :
    l2n (n2l (bytes 0) (bytes 1) (bytes 2) (bytes 3)) = bytes := by
  have h₀ := (bytes 0).toNat_lt
  have h₁ := (bytes 1).toNat_lt
  have h₂ := (bytes 2).toNat_lt
  have h₃ := (bytes 3).toNat_lt
  funext i
  rw [← UInt8.toNat_inj]
  fin_cases i <;> simp [l2n, Nat.shiftRight_eq_div_pow, toNat_n2l] <;> omega

/-! ### Blocks -/

/-- `BF_KEY`. -/
structure BfKey where
  P : Vector UInt32 18
  S : Vector UInt32 (4 * 256)

/-- The entry of a substitution table for one byte. -/
def BfKey.sBox (key : BfKey) (table : Fin 4) (byte : UInt8) : UInt32 :=
  key.S.get ⟨256 * table + byte.toNat, by have := byte.toNat_lt; omega⟩

/-- What `BF_ENC` mixes into one half for the other one. -/
def bfF (key : BfKey) (r : UInt32) : UInt32 :=
  ((key.sBox 0 (r >>> 24).toUInt8 + key.sBox 1 (r >>> 16).toUInt8) ^^^
    key.sBox 2 (r >>> 8).toUInt8) + key.sBox 3 r.toUInt8

/-- `BF_ENC`, with the subkey at an index. -/
def bfEnc (key : BfKey) (ll r : UInt32) (i : Fin 18) : UInt32 :=
  (ll ^^^ key.P.get i) ^^^ bfF key r

def bfEncrypt (key : BfKey) (data : UInt32 × UInt32) : UInt32 × UInt32 :=
  let l := data.1
  let r := data.2
  let l := l ^^^ key.P.get 0
  let r := bfEnc key r l 1
  let l := bfEnc key l r 2
  let r := bfEnc key r l 3
  let l := bfEnc key l r 4
  let r := bfEnc key r l 5
  let l := bfEnc key l r 6
  let r := bfEnc key r l 7
  let l := bfEnc key l r 8
  let r := bfEnc key r l 9
  let l := bfEnc key l r 10
  let r := bfEnc key r l 11
  let l := bfEnc key l r 12
  let r := bfEnc key r l 13
  let l := bfEnc key l r 14
  let r := bfEnc key r l 15
  let l := bfEnc key l r 16
  let r := r ^^^ key.P.get 17
  (r, l)

def bfDecrypt (key : BfKey) (data : UInt32 × UInt32) : UInt32 × UInt32 :=
  let l := data.1
  let r := data.2
  let l := l ^^^ key.P.get 17
  let r := bfEnc key r l 16
  let l := bfEnc key l r 15
  let r := bfEnc key r l 14
  let l := bfEnc key l r 13
  let r := bfEnc key r l 12
  let l := bfEnc key l r 11
  let r := bfEnc key r l 10
  let l := bfEnc key l r 9
  let r := bfEnc key r l 8
  let l := bfEnc key l r 7
  let r := bfEnc key r l 6
  let l := bfEnc key l r 5
  let r := bfEnc key r l 4
  let l := bfEnc key l r 3
  let r := bfEnc key r l 2
  let l := bfEnc key l r 1
  let r := r ^^^ key.P.get 0
  (r, l)

/-- The two words of a block. -/
def words (block : Fin 8 → UInt8) : UInt32 × UInt32 :=
  (n2l (block 0) (block 1) (block 2) (block 3), n2l (block 4) (block 5) (block 6) (block 7))

/-- `BF_ecb_encrypt`. -/
def bfEcbEncrypt (key : BfKey) (encrypt : Bool) (block : Fin 8 → UInt8) : Fin 8 → UInt8 :=
  let d := words block
  let d := if encrypt then bfEncrypt key d else bfDecrypt key d
  Fin.append (l2n d.1) (l2n d.2)

theorem xor_cancels : Feistel.Cancels fun a b : UInt32 => a ^^^ b := fun a b => by
  simp only [UInt32.xor_assoc, UInt32.xor_self, UInt32.xor_zero]

/-- The functions of the sixteen rounds. -/
def bfRounds (key : BfKey) : List (UInt32 → UInt32) :=
  [1, 2, 3, 4, 5, 6, 7, 8, 9, 10, 11, 12, 13, 14, 15, 16].map fun i r => key.P.get i ^^^ bfF key r

theorem bfEncrypt_eq (key : BfKey) (data : UInt32 × UInt32) : bfEncrypt key data =
    Feistel.cipher (fun a b => a ^^^ b) (key.P.get 0) (key.P.get 17) (bfRounds key) data := by
  simp only [bfEncrypt, bfEnc, Feistel.cipher, bfRounds, List.map_cons, List.map_nil,
    Feistel.network_cons, Feistel.network_nil, Feistel.round, UInt32.xor_assoc]

theorem bfDecrypt_eq (key : BfKey) (data : UInt32 × UInt32) : bfDecrypt key data =
    Feistel.cipher (fun a b => a ^^^ b) (key.P.get 17) (key.P.get 0) (bfRounds key).reverse data := by
  simp only [bfDecrypt, bfEnc, Feistel.cipher, bfRounds, List.map_cons, List.map_nil,
    List.reverse_cons, List.reverse_nil, List.nil_append, List.cons_append,
    Feistel.network_cons, Feistel.network_nil, Feistel.round, UInt32.xor_assoc]

theorem bfDecrypt_bfEncrypt (key : BfKey) (data : UInt32 × UInt32) :
    bfDecrypt key (bfEncrypt key data) = data := by
  rw [bfEncrypt_eq, bfDecrypt_eq]
  exact Feistel.cipher_reverse xor_cancels ..

theorem bfEncrypt_bfDecrypt (key : BfKey) (data : UInt32 × UInt32) :
    bfEncrypt key (bfDecrypt key data) = data := by
  rw [bfEncrypt_eq, bfDecrypt_eq]
  exact (Feistel.cipherEquiv xor_cancels _ _ _).right_inv data

theorem append_words (block : Fin 8 → UInt8) :
    (Fin.append (l2n (words block).1) (l2n (words block).2) : Fin 8 → UInt8) = block := by
  have hleft : l2n (words block).1 = fun i : Fin 4 => block (Fin.castAdd 4 i) :=
    l2n_n2l fun i => block (Fin.castAdd 4 i)
  have hright : l2n (words block).2 = fun i : Fin 4 => block (Fin.natAdd 4 i) :=
    l2n_n2l fun i => block (Fin.natAdd 4 i)
  rw [hleft, hright]
  exact Fin.append_castAdd_natAdd

theorem words_append (d : UInt32 × UInt32) :
    words (Fin.append (l2n d.1) (l2n d.2) : Fin 8 → UInt8) = d :=
  Prod.ext (n2l_l2n d.1) (n2l_l2n d.2)

theorem bfEcbEncrypt_eq (key : BfKey) (encrypt : Bool) (block : Fin 8 → UInt8) :
    words (bfEcbEncrypt key encrypt block) =
      if encrypt then bfEncrypt key (words block) else bfDecrypt key (words block) := by
  simp only [bfEcbEncrypt, words_append]

/-- Each mode is the inverse of the other, under every key schedule. -/
theorem bfEcbEncrypt_not (key : BfKey) (encrypt : Bool) (block : Fin 8 → UInt8) :
    bfEcbEncrypt key (!encrypt) (bfEcbEncrypt key encrypt block) = block := by
  rw [← append_words (bfEcbEncrypt key (!encrypt) _), bfEcbEncrypt_eq, bfEcbEncrypt_eq]
  cases encrypt with
  | false => simp [bfEncrypt_bfDecrypt, append_words]
  | true => simp [bfDecrypt_bfEncrypt, append_words]

/-! ### Key schedules -/

/-- The byte of the key at the pointer, which goes back to the front at the end. -/
def nextByte (data : List UInt8) (len d : ℕ) : UInt8 × ℕ :=
  (data.getD d 0, if len ≤ d + 1 then 0 else d + 1)

/-- The next word of the key, and the pointer behind it. -/
def nextWord (data : List UInt8) (len d : ℕ) : UInt32 × ℕ :=
  let (b₀, d) := nextByte data len d
  let ri := b₀.toUInt32
  let (b₁, d) := nextByte data len d
  let ri := ri <<< 8 ||| b₁.toUInt32
  let (b₂, d) := nextByte data len d
  let ri := ri <<< 8 ||| b₂.toUInt32
  let (b₃, d) := nextByte data len d
  (ri <<< 8 ||| b₃.toUInt32, d)

/-- The key is mixed into these subkeys. -/
def mixKey (data : List UInt8) (len : ℕ) :
    List (Fin 18) → ℕ → Vector UInt32 18 → Vector UInt32 18
  | [], _, p => p
  | i :: subkeys, d, p =>
    let (ri, d) := nextWord data len d
    mixKey data len subkeys d (p.set i (p.get i ^^^ ri))

/-- Each pair of these subkeys is replaced by the encryption of the pair before it. -/
def expandP : List (Fin 9) → BfKey → UInt32 × UInt32 → BfKey × (UInt32 × UInt32)
  | [], key, d => (key, d)
  | i :: pairs, key, d =>
    let d := bfEncrypt key d
    expandP pairs { key with P := (key.P.set (2 * i) d.1).set (2 * i + 1) d.2 } d

/-- And so are the entries of the substitution tables. -/
def expandS : List (Fin 512) → BfKey → UInt32 × UInt32 → BfKey
  | [], key, _ => key
  | i :: pairs, key, d =>
    let d := bfEncrypt key d
    expandS pairs { key with S := (key.S.set (2 * i) d.1).set (2 * i + 1) d.2 } d

/-- The subkeys into which a key was mixed. -/
def mixedKey (len : ℕ) (data : List UInt8) (p : Vector UInt32 18) : Vector UInt32 18 :=
  let len := if 18 * 4 < len then 18 * 4 else len
  mixKey data len (List.finRange 18) 0 p

def bfSetKeyCustomSch (key : BfKey) (len : ℕ) (data : List UInt8) : BfKey :=
  let key := { key with P := mixedKey len data key.P }
  let (key, d) := expandP (List.finRange 9) key (0, 0)
  expandS (List.finRange 512) key d

/-! ### Repeated keys -/

/-- The byte that is mixed in at a position: the key is repeated. -/
def keyByte (data : List UInt8) (len k : ℕ) : UInt8 := data.getD (k % max len 1) 0

def keyWord (data : List UInt8) (len k : ℕ) : UInt32 :=
  n2l (keyByte data len k) (keyByte data len (k + 1)) (keyByte data len (k + 2))
    (keyByte data len (k + 3))

theorem shifts_eq_n2l (b₀ b₁ b₂ b₃ : UInt8) :
    ((b₀.toUInt32 <<< 8 ||| b₁.toUInt32) <<< 8 ||| b₂.toUInt32) <<< 8 ||| b₃.toUInt32 =
      n2l b₀ b₁ b₂ b₃ := by
  have h₀ := b₀.toNat_lt
  have h₁ := b₁.toNat_lt
  have h₂ := b₂.toNat_lt
  have h₃ := b₃.toNat_lt
  have hstep : ∀ (l : UInt32) (b : UInt8), l.toNat < 2 ^ 24 →
      (l <<< 8 ||| b.toUInt32).toNat = l.toNat * 2 ^ 8 + b.toNat := by
    intro l b hl
    have hb := b.toNat_lt
    have hshift : (l <<< 8).toNat = l.toNat * 2 ^ 8 := by
      simp [Nat.shiftLeft_eq]
      omega
    rw [UInt32.toNat_or, hshift, UInt8.toNat_toUInt32, or_eq_add (k := 8) (by omega) (by omega)]
  have h0 : b₀.toUInt32.toNat = b₀.toNat := UInt8.toNat_toUInt32 b₀
  have h1 := hstep b₀.toUInt32 b₁ (by omega)
  have h2 := hstep _ b₂ (by rw [h1]; omega)
  rw [← UInt32.toNat_inj, hstep _ b₃ (by rw [h2]; omega), h2, h1, h0, toNat_n2l]
  omega

theorem nextByte_eq (data : List UInt8) (len k : ℕ) :
    nextByte data len (k % max len 1) = (keyByte data len k, (k + 1) % max len 1) := by
  have hlt : k % max len 1 < max len 1 := Nat.mod_lt _ (by omega)
  have hnext : (k + 1) % max len 1 = if len ≤ k % max len 1 + 1 then 0 else k % max len 1 + 1 := by
    rw [← Nat.mod_add_mod]
    split
    · rw [show k % max len 1 + 1 = max len 1 by omega, Nat.mod_self]
    · exact Nat.mod_eq_of_lt (by omega)
  rw [nextByte, hnext]
  rfl

theorem nextWord_eq (data : List UInt8) (len k : ℕ) :
    nextWord data len (k % max len 1) = (keyWord data len k, (k + 4) % max len 1) := by
  simp only [nextWord, nextByte_eq, shifts_eq_n2l]
  rfl

theorem get_set (p : Vector UInt32 18) (i j : Fin 18) (word : UInt32) :
    (p.set i word).get j = if i = j then word else p.get j := by
  change (p.set i word)[j.val] = if i = j then word else p[j.val]
  rw [Vector.getElem_set]
  simp only [Fin.ext_iff]

/-- Each of the subkeys gets its own word. -/
theorem get_mixKey (data : List UInt8) (len : ℕ) {subkeys : List (Fin 18)} (h : subkeys.Nodup)
    (k : ℕ) (p : Vector UInt32 18) (j : Fin 18) :
    (mixKey data len subkeys (k % max len 1) p).get j =
      if j ∈ subkeys then p.get j ^^^ keyWord data len (k + 4 * subkeys.idxOf j) else p.get j := by
  induction subkeys generalizing k p with
  | nil => rfl
  | cons i subkeys ih =>
    obtain ⟨hi, hnodup⟩ := List.nodup_cons.mp h
    rw [mixKey, nextWord_eq]
    simp only
    rw [ih hnodup, get_set]
    by_cases hij : i = j
    · subst hij
      rw [if_neg hi, if_pos rfl, if_pos List.mem_cons_self, List.idxOf_cons_self]
      rfl
    · rw [if_neg hij, List.idxOf_cons_ne _ hij]
      simp only [List.mem_cons, Ne.symm hij, false_or]
      rw [show k + 4 + 4 * List.idxOf j subkeys = k + 4 * (List.idxOf j subkeys + 1) by omega]

theorem get_mixedKey (len : ℕ) (data : List UInt8) (p : Vector UInt32 18) (j : Fin 18) :
    (mixedKey len data p).get j = p.get j ^^^ keyWord data (min len 72) (4 * j) := by
  have hlen : (if 18 * 4 < len then 18 * 4 else len) = min len 72 := by
    split <;> omega
  have h := get_mixKey data (min len 72) (List.nodup_finRange 18) 0 p j
  rw [Nat.zero_mod, if_pos (List.mem_finRange j), List.idxOf_finRange, Nat.zero_add] at h
  rw [mixedKey, hlen, h]

theorem n2l_inj {b₀ b₁ b₂ b₃ b₀' b₁' b₂' b₃' : UInt8} :
    n2l b₀ b₁ b₂ b₃ = n2l b₀' b₁' b₂' b₃' ↔ b₀ = b₀' ∧ b₁ = b₁' ∧ b₂ = b₂' ∧ b₃ = b₃' := by
  constructor
  · intro h
    have hbytes : l2n (n2l b₀ b₁ b₂ b₃) = l2n (n2l b₀' b₁' b₂' b₃') := congrArg l2n h
    have hleft := l2n_n2l (Fin.cons b₀ (Fin.cons b₁ (Fin.cons b₂ fun _ => b₃)))
    have hright := l2n_n2l (Fin.cons b₀' (Fin.cons b₁' (Fin.cons b₂' fun _ => b₃')))
    have hsame := hleft.symm.trans (hbytes.trans hright)
    exact ⟨congrFun hsame 0, congrFun hsame 1, congrFun hsame 2, congrFun hsame 3⟩
  · rintro ⟨rfl, rfl, rfl, rfl⟩
    rfl

/-- Two keys are mixed into the subkeys alike exactly when they repeat to the same bytes. -/
theorem mixedKey_eq_iff {data data' : List UInt8} {len len' : ℕ} (p : Vector UInt32 18) :
    mixedKey len data p = mixedKey len' data' p ↔
      ∀ k < 72, keyByte data (min len 72) k = keyByte data' (min len' 72) k := by
  have hwords : mixedKey len data p = mixedKey len' data' p ↔ ∀ j : Fin 18,
      keyWord data (min len 72) (4 * j) = keyWord data' (min len' 72) (4 * j) := by
    constructor
    · intro h j
      have hj := congrArg (fun p : Vector UInt32 18 => p.get j) h
      simp only [get_mixedKey] at hj
      exact UInt32.xor_right_inj _ |>.mp hj
    · intro h
      apply Vector.ext
      intro j hj
      have hget := get_mixedKey len data p ⟨j, hj⟩
      rw [h, ← get_mixedKey] at hget
      exact hget
  rw [hwords]
  simp only [keyWord, n2l_inj]
  constructor
  · intro h k hk
    obtain ⟨h₀, h₁, h₂, h₃⟩ := h ⟨k / 4, by omega⟩
    have hsplit : k = 4 * (k / 4) ∨ k = 4 * (k / 4) + 1 ∨ k = 4 * (k / 4) + 2 ∨
        k = 4 * (k / 4) + 3 := by omega
    rcases hsplit with hk | hk | hk | hk <;> rw [hk]
    · exact h₀
    · exact h₁
    · exact h₂
    · exact h₃
  · intro h j
    have hj := j.2
    exact ⟨h _ (by omega), h _ (by omega), h _ (by omega), h _ (by omega)⟩

/-! ### Schedules -/

/-- What the round at an index mixes in for a half: at both ends that is the subkey alone. -/
def bfRound (f : UInt32 → UInt32) (k : UInt32) (i : Fin 18) (r : UInt32) : UInt32 :=
  if i = 0 ∨ i = 17 then k else k ^^^ f r

theorem bfRound_inj {f : UInt32 → UInt32} {k k' r : UInt32} {i : Fin 18}
    (h : bfRound f k i r = bfRound f k' i r) : k = k' := by
  unfold bfRound at h
  split at h
  · exact h
  · exact UInt32.xor_left_inj _ |>.mp h

theorem bfEncrypt_eq_network (key : BfKey) (data : UInt32 × UInt32) : bfEncrypt key data =
    Feistel.network (fun a b => a ^^^ b)
      ((List.finRange 18).map fun i => bfRound (bfF key) (key.P.get i) i) data.swap := by
  rw [bfEncrypt_eq, Feistel.cipher_eq_network]
  rfl

/-- The subkeys of a pair. -/
def evenIndex (i : Fin 9) : Fin 18 := ⟨2 * i, by omega⟩

def oddIndex (i : Fin 9) : Fin 18 := ⟨2 * i + 1, by omega⟩

/-- The keys differ in one pair of subkeys at most. -/
def SameBut (i : Fin 9) (key key' : BfKey) : Prop :=
  ∀ j, j ≠ evenIndex i → j ≠ oddIndex i → key.P.get j = key'.P.get j

theorem finRange_split (i : Fin 9) : List.finRange 18 = (List.finRange 18).take (2 * i) ++
    evenIndex i :: oddIndex i :: (List.finRange 18).drop (2 * i + 2) := by
  revert i
  decide

theorem get_ext {p p' : Vector UInt32 18} (h : ∀ j : Fin 18, p.get j = p'.get j) : p = p' :=
  Vector.ext fun j hj => h ⟨j, hj⟩

/-- One encrypted block tells the two subkeys when the others are known. -/
theorem bfEncrypt_inj {key key' : BfKey} {i : Fin 9} {data : UInt32 × UInt32}
    (hS : key.S = key'.S) (hsame : SameBut i key key')
    (h : bfEncrypt key data = bfEncrypt key' data) : key.P = key'.P := by
  have hf : bfF key = bfF key' := by
    funext r
    simp only [bfF, BfKey.sBox, hS]
  have hnodup := List.nodup_finRange 18
  rw [finRange_split i] at hnodup
  obtain ⟨-, hpair, hapart⟩ := List.nodup_append.mp hnodup
  obtain ⟨heven, hpair⟩ := List.nodup_cons.mp hpair
  obtain ⟨hodd, -⟩ := List.nodup_cons.mp hpair
  have hbefore : ((List.finRange 18).take (2 * i)).map
      (fun i => bfRound (bfF key) (key.P.get i) i) =
        ((List.finRange 18).take (2 * i)).map fun i => bfRound (bfF key') (key'.P.get i) i := by
    apply List.map_congr_left
    intro j hj
    rw [hf, hsame j (hapart j hj _ List.mem_cons_self)
      (hapart j hj _ (List.mem_cons_of_mem _ List.mem_cons_self))]
  have hafter : ((List.finRange 18).drop (2 * i + 2)).map
      (fun i => bfRound (bfF key) (key.P.get i) i) =
        ((List.finRange 18).drop (2 * i + 2)).map fun i => bfRound (bfF key') (key'.P.get i) i := by
    apply List.map_congr_left
    intro j hj
    rw [hf, hsame j (fun heq => heven (List.mem_cons_of_mem _ (heq ▸ hj)))
      (fun heq => hodd (heq ▸ hj))]
  rw [bfEncrypt_eq_network, bfEncrypt_eq_network, finRange_split i] at h
  simp only [List.map_append, List.map_cons] at h
  rw [hbefore, hafter] at h
  obtain ⟨x, y, hx, hy⟩ := Feistel.network_pair xor_cancels
    (fun a b c => UInt32.xor_right_inj a |>.mp) h
  rw [hf] at hx hy
  apply get_ext
  intro j
  by_cases hj : j = evenIndex i
  · rw [hj]
    exact bfRound_inj hx
  by_cases hj' : j = oddIndex i
  · rw [hj']
    exact bfRound_inj hy
  exact hsame j hj hj'

/-- One pair of subkeys is replaced. -/
def setPair (key : BfKey) (i : Fin 9) (d : UInt32 × UInt32) : BfKey :=
  { key with P := (key.P.set (2 * i) d.1).set (2 * i + 1) d.2 }

theorem get_setPair (key : BfKey) (i : Fin 9) (d : UInt32 × UInt32) (j : Fin 18) :
    (setPair key i d).P.get j =
      if j = oddIndex i then d.2 else if j = evenIndex i then d.1 else key.P.get j := by
  have heven : (key.P.set (2 * i) d.1).get j = if evenIndex i = j then d.1 else key.P.get j :=
    get_set key.P (evenIndex i) j d.1
  have hodd : (setPair key i d).P.get j =
      if oddIndex i = j then d.2 else (key.P.set (2 * i) d.1).get j :=
    get_set (key.P.set (2 * i) d.1) (oddIndex i) j d.2
  rw [hodd, heven]
  simp only [eq_comm]

theorem evenIndex_ne_oddIndex (i i' : Fin 9) : evenIndex i ≠ oddIndex i' := by
  intro h
  have hval : 2 * i.val = 2 * i'.val + 1 := congrArg Fin.val h
  omega

theorem evenIndex_inj {i i' : Fin 9} (h : evenIndex i = evenIndex i') : i = i' := by
  have hval : 2 * i.val = 2 * i'.val := congrArg Fin.val h
  omega

theorem oddIndex_inj {i i' : Fin 9} (h : oddIndex i = oddIndex i') : i = i' := by
  have hval : 2 * i.val + 1 = 2 * i'.val + 1 := congrArg Fin.val h
  omega

theorem expandS_P (pairs : List (Fin 512)) (key : BfKey) (d : UInt32 × UInt32) :
    (expandS pairs key d).P = key.P := by
  induction pairs generalizing key d with
  | nil => rfl
  | cons i pairs ih => exact ih _ _

/-- The subkeys in front of the expansion are known from those behind it. A block that was
encrypted stands in the pair before, so that it is known too. -/
theorem of_expandP {pairs : List (Fin 9)} (hnodup : pairs.Nodup) {key key' : BfKey}
    {d d' : UInt32 × UInt32} (hS : key.S = key'.S)
    (hblock : ∀ i ∈ pairs.head?, SameBut i key key' → d = d')
    (h : (expandP pairs key d).1.P = (expandP pairs key' d').1.P) : key.P = key'.P := by
  induction pairs generalizing key key' d d' with
  | nil => exact h
  | cons i pairs ih =>
    obtain ⟨hi, hnodup⟩ := List.nodup_cons.mp hnodup
    have hpairs : (setPair key i (bfEncrypt key d)).P = (setPair key' i (bfEncrypt key' d')).P := by
      change (expandP pairs (setPair key i (bfEncrypt key d)) (bfEncrypt key d)).1.P =
        (expandP pairs (setPair key' i (bfEncrypt key' d')) (bfEncrypt key' d')).1.P at h
      refine ih hnodup hS ?_ h
      intro i' hi' hsame
      have hne : i ≠ i' := fun heq => hi (heq ▸ List.mem_of_mem_head? hi')
      have heven := hsame (evenIndex i) (fun heq => hne (evenIndex_inj heq))
        (evenIndex_ne_oddIndex i i')
      have hodd := hsame (oddIndex i) (evenIndex_ne_oddIndex i' i).symm
        (fun heq => hne (oddIndex_inj heq))
      simp only [get_setPair, evenIndex_ne_oddIndex, if_true, if_false] at heven hodd
      exact Prod.ext heven hodd
    have hget : ∀ j, (setPair key i (bfEncrypt key d)).P.get j =
        (setPair key' i (bfEncrypt key' d')).P.get j := fun j => by rw [hpairs]
    simp only [get_setPair] at hget
    have hsame : SameBut i key key' := by
      intro j heven hodd
      simpa [heven, hodd] using hget j
    have heven := hget (evenIndex i)
    have hodd := hget (oddIndex i)
    simp only [evenIndex_ne_oddIndex, if_true, if_false] at heven hodd
    rw [← hblock i rfl hsame] at heven hodd
    exact bfEncrypt_inj hS hsame (Prod.ext heven hodd)

theorem bfSetKeyCustomSch_P (key : BfKey) (len : ℕ) (data : List UInt8) :
    (bfSetKeyCustomSch key len data).P =
      (expandP (List.finRange 9) ⟨mixedKey len data key.P, key.S⟩ (0, 0)).1.P :=
  expandS_P ..

theorem getElem_repeat {data : List UInt8} (h : data ≠ []) {k : ℕ} (hk : k < 72) :
    data[k % data.length]? = some (keyByte data (min data.length 72) k) := by
  have hpos := List.length_pos_iff.mpr h
  have hmod : k % max (min data.length 72) 1 = k % data.length := by
    rcases Nat.lt_or_ge 72 data.length with hlong | hshort
    · rw [show max (min data.length 72) 1 = 72 by omega, Nat.mod_eq_of_lt hk,
        Nat.mod_eq_of_lt (hk.trans hlong)]
    · rw [show max (min data.length 72) 1 = data.length by omega]
  rw [keyByte, hmod, List.getElem?_eq_getElem (Nat.mod_lt _ hpos),
    List.getD_eq_getElem _ _ (Nat.mod_lt _ hpos)]

/-- Two keys give the same schedule exactly when they repeat to the same bytes. -/
theorem bfSetKeyCustomSch_eq_iff (key : BfKey) {data data' : List UInt8} (h : data ≠ [])
    (h' : data' ≠ []) :
    bfSetKeyCustomSch key data.length data = bfSetKeyCustomSch key data'.length data' ↔
      ∀ k < 72, data[k % data.length]? = data'[k % data'.length]? := by
  have hbytes : mixedKey data.length data key.P = mixedKey data'.length data' key.P ↔
      ∀ k < 72, data[k % data.length]? = data'[k % data'.length]? := by
    rw [mixedKey_eq_iff]
    refine forall₂_congr fun k hk => ?_
    rw [getElem_repeat h hk, getElem_repeat h' hk, Option.some_inj]
  rw [← hbytes]
  constructor
  · intro hschedule
    have hP := congrArg BfKey.P hschedule
    rw [bfSetKeyCustomSch_P, bfSetKeyCustomSch_P] at hP
    have hmixed := of_expandP (List.nodup_finRange 9) (by rfl) (fun _ _ _ => by rfl) hP
    exact hmixed
  · intro hmixed
    simp only [bfSetKeyCustomSch, hmixed]

/-! ### The schedule of the servers -/

def keyIndex : Fin 16 := 11

def numPoint : List ℕ := [16, 2, 256, 768]

def seekPoint : List ℕ := [4, 1056, 24, 284]

def keyTable : Vector Text 16 :=
  #v[text "jvwvqgfghyrqewea",
    text "gsqsdafkssqshafd",
    text "mmxi0dozaqblnmwo",
    text "nyrqvwescuanhanu",
    text "gbeugfaacudgaxcs",
    text "rbneolithqb5yswm",
    text "1udgandceoferaxe",
    text "qarqvwessdicaqbe",
    text "2udqaxxxiscogito",
    text "affcbjwxymsi0doz",
    text "ydigadeath8nnmwd",
    text "hsunffalqyrqewes",
    text "gqbnnmnmymsi0doz",
    text "hvwvqgfl1nrqewes",
    text "sxqsdafkssqsdafk",
    text "ssqsaafsssqsdof6"]

/-- The words in front of the key are copied, unless there are too many. -/
def copyWords (initSchedule : List UInt32) : List (ℕ × ℕ) → List UInt32 → Option (List UInt32)
  | [], schedule => some schedule
  | (num, seek) :: points, schedule =>
    if 1042 < num + schedule.length then none
    else copyWords initSchedule points (schedule ++ (initSchedule.drop seek).take num)

def BfKey.ofWords (schedule : List UInt32) : BfKey where
  P := Vector.ofFn fun i => schedule.getD i 0
  S := Vector.ofFn fun i => schedule.getD (18 + i) 0

/-- `cryptoInit`, with the words of `initSchedule` and a key of the table. -/
def cryptoInit (initSchedule : List UInt32) (index : Fin 16) : Option BfKey :=
  (copyWords initSchedule (numPoint.zip seekPoint) []).map fun schedule =>
    bfSetKeyCustomSch (.ofWords schedule) 16 (keyTable.get index)

theorem keyTable_length (index : Fin 16) : (keyTable.get index).length = 16 := by
  revert index
  decide

/-- The copied words do not depend on the key. -/
theorem cryptoInit_eq {initSchedule : List UInt32} (h : initSchedule.length = 1062) :
    ∃ key, ∀ index, cryptoInit initSchedule index =
      some (bfSetKeyCustomSch key (keyTable.get index).length (keyTable.get index)) := by
  obtain ⟨schedule, hschedule⟩ : ∃ schedule,
      copyWords initSchedule (numPoint.zip seekPoint) [] = some schedule := by
    simp [copyWords, numPoint, seekPoint, h]
  refine ⟨.ofWords schedule, fun index => ?_⟩
  rw [cryptoInit, hschedule, Option.map_some, keyTable_length]

theorem keys_apart : cryptoInit (List.replicate 1062 0) keyIndex ≠
    cryptoInit (List.replicate 1062 0) 10 := by
  obtain ⟨key, hkey⟩ := cryptoInit_eq (List.length_replicate (n := 1062) (a := 0))
  rw [hkey, hkey]
  intro h
  have hbytes := (bfSetKeyCustomSch_eq_iff key (by decide) (by decide)).mp (Option.some.inj h)
  exact absurd (hbytes 0 (by decide)) (by decide)

end R1Emu.Crypto
