import R1Emu.Game.Names
import R1Emu.Lib.Buffer
import R1Emu.Lib.CFormat
import R1Emu.Server.Worker

/-!
# The key of a socket session

A socket has an identity of five bytes. Its session is stored under a key, the identity in
hexadecimal digits, and whoever has the key turns it back into the identity to send to the
socket: the key is read as one number, which is taken apart again by shifts.
-/
namespace R1Emu.Game
open R1Emu.Lib.CFormat R1Emu.Lib.Buffer

/-! ### Identities and keys -/

def socketSessionIdSize : ℕ := 11

abbrev SocketIdentity := Vector UInt8 5

def socketSessionGenSessionKey (sessionId : SocketIdentity) (sessionKey : List UInt8) :
    Option (List UInt8) :=
  snprintf sessionKey socketSessionIdSize (sessionId.toList.flatMap fun b => padded 2 b.toNat)

def socketSessionGenId (sessionKey : List UInt8) : SocketIdentity :=
  let identity := UInt64.ofNat (strtoul 16 (cString sessionKey))
  #v[((identity >>> 32) &&& 0xFF).toUInt8,
    ((identity >>> 24) &&& 0xFF).toUInt8,
    ((identity >>> 16) &&& 0xFF).toUInt8,
    ((identity >>> 8) &&& 0xFF).toUInt8,
    (identity &&& 0xFF).toUInt8]

/-- The frames that tell the router whom to send a packet to. -/
def identityFrames (clients : List (List UInt8)) : List (List UInt8) :=
  clients.map fun identityKey => (socketSessionGenId identityKey).toList

/-- Ten digits in upper case, and a terminator. -/
def IsSessionKey (key : List UInt8) : Prop :=
  ∃ digits, digits.length = 10 ∧ (∀ c ∈ digits, UpperDigit c) ∧ key = digits ++ [0]

/-! ### Digits -/

/-- The digits of a byte. -/
def byteDigits (b : UInt8) : Text :=
  [toupper (digit (b.toNat / 16)), toupper (digit (b.toNat % 16))]

theorem padded_byte (b : UInt8) : padded 2 b.toNat = byteDigits b := padded_two b.toNat_lt

theorem upperDigit_of_mem {b c : UInt8} (hc : c ∈ byteDigits b) : UpperDigit c := by
  have hhigh : b.toNat / 16 < 16 := Nat.div_lt_of_lt_mul b.toNat_lt
  have hlow : b.toNat % 16 < 16 := Nat.mod_lt _ (by decide)
  rcases List.mem_pair.mp hc with rfl | rfl
  · exact upperDigit_toupper hhigh
  · exact upperDigit_toupper hlow

theorem UpperDigit.ne_zero {c : UInt8} (h : UpperDigit c) : c ≠ 0 := by
  rintro rfl
  exact absurd h (by decide)

/-- Each byte is a digit to the base 256. -/
theorem foldl_byteDigits (bytes : List UInt8) (n : ℕ) :
    (bytes.flatMap byteDigits).foldl (fun n c => n * 16 + digitValue c) n =
      bytes.foldl (fun n b => n * 256 + b.toNat) n := by
  induction bytes generalizing n with
  | nil => rfl
  | cons b bytes ih =>
    have hhigh : b.toNat / 16 < 16 := Nat.div_lt_of_lt_mul b.toNat_lt
    have hlow : b.toNat % 16 < 16 := Nat.mod_lt _ (by decide)
    have hbyte : (n * 16 + b.toNat / 16) * 16 + b.toNat % 16 = n * 256 + b.toNat := by omega
    rw [List.flatMap_cons, List.foldl_append, List.foldl_cons, byteDigits, List.foldl_cons,
      List.foldl_cons, List.foldl_nil, digitValue_toupper_digit hhigh,
      digitValue_toupper_digit hlow, hbyte, ih]

theorem foldl_bytes_lt (bytes : List UInt8) (n : ℕ) :
    bytes.foldl (fun n b => n * 256 + b.toNat) n < (n + 1) * 256 ^ bytes.length := by
  induction bytes generalizing n with
  | nil => simp
  | cons b bytes ih =>
    have hb : n * 256 + b.toNat + 1 ≤ (n + 1) * 256 := by have := b.toNat_lt; omega
    calc bytes.foldl (fun n b => n * 256 + b.toNat) (n * 256 + b.toNat)
        < (n * 256 + b.toNat + 1) * 256 ^ bytes.length := ih _
      _ ≤ (n + 1) * 256 * 256 ^ bytes.length := Nat.mul_le_mul_right _ hb
      _ = (n + 1) * 256 ^ (bytes.length + 1) := by rw [mul_assoc, Nat.pow_succ']

/-- The identity, as a number. -/
def identityValue (sessionId : SocketIdentity) : ℕ :=
  sessionId.toList.foldl (fun n b => n * 256 + b.toNat) 0

def keyDigits (sessionId : SocketIdentity) : Text := sessionId.toList.flatMap byteDigits

theorem length_keyDigits (sessionId : SocketIdentity) : (keyDigits sessionId).length = 10 := by
  have hlength : sessionId.toList.length = 5 := sessionId.length_toList
  have hall : ∀ bytes : List UInt8, (bytes.flatMap byteDigits).length = 2 * bytes.length := by
    intro bytes
    induction bytes with
    | nil => rfl
    | cons b bytes ih =>
      rw [List.flatMap_cons, List.length_append, ih, List.length_cons]
      change 2 + 2 * bytes.length = 2 * (bytes.length + 1)
      omega
  rw [keyDigits, hall, hlength]

theorem upperDigit_of_mem_keyDigits {sessionId : SocketIdentity} {c : UInt8}
    (hc : c ∈ keyDigits sessionId) : UpperDigit c := by
  obtain ⟨b, -, hb⟩ := List.mem_flatMap.mp hc
  exact upperDigit_of_mem hb

theorem isSessionKey_keyDigits (sessionId : SocketIdentity) :
    IsSessionKey (keyDigits sessionId ++ [0]) :=
  ⟨_, length_keyDigits sessionId, fun _ => upperDigit_of_mem_keyDigits, rfl⟩

theorem strtoul_keyDigits (sessionId : SocketIdentity) :
    strtoul 16 (keyDigits sessionId) = identityValue sessionId := by
  have hdigits : ∀ c ∈ keyDigits sessionId, digitValue c < 16 := fun c hc =>
    (toupper_digit_of_upperDigit (upperDigit_of_mem_keyDigits hc)).1
  have hvalue : digitsValue 16 (keyDigits sessionId) = identityValue sessionId := by
    rw [digitsValue, List.takeWhile_eq_self_iff.mpr fun c hc => decide_eq_true (hdigits c hc),
      keyDigits, foldl_byteDigits, identityValue]
  have hlt : identityValue sessionId < 2 ^ 64 :=
    (foldl_bytes_lt sessionId.toList 0).trans (by rw [sessionId.length_toList]; decide)
  rw [strtoul_digits hdigits (hvalue.trans_lt hlt), hvalue]

/-- The string of a key is its digits. -/
theorem cString_key {digits : Text} (h : ∀ c ∈ digits, UpperDigit c) :
    cString (digits ++ [0]) = digits := by
  have hzero : 0 ∉ digits := fun hmem => UpperDigit.ne_zero (h 0 hmem) rfl
  rw [cString, List.takeWhile_append, ← cString, cString_of_notMem hzero, if_pos rfl]
  exact List.append_nil digits

/-! ### From the identity to the key -/

theorem socketSessionGenSessionKey_eq (sessionId : SocketIdentity)
    (buffer : Chars socketSessionIdSize) :
    socketSessionGenSessionKey sessionId buffer.toList = some (keyDigits sessionId ++ [0]) := by
  have hdigits : (sessionId.toList.flatMap fun b => padded 2 b.toNat) = keyDigits sessionId :=
    List.flatMap_congr fun b _ => padded_byte b
  have htake : (keyDigits sessionId).take (socketSessionIdSize - 1) = keyDigits sessionId :=
    List.take_of_length_le (length_keyDigits sessionId).le
  have hlength : (keyDigits sessionId ++ [0]).length = buffer.toList.length := by
    rw [List.length_append, length_keyDigits, buffer.length_toList]
    rfl
  rw [socketSessionGenSessionKey, hdigits, snprintf, if_neg (by decide), htake,
    fill_of_le hlength.le, hlength, List.drop_length, List.append_nil]

/-! ### From the key to the identity -/

/-- Shifting and masking takes one of the bytes out of a number. -/
theorem shifted_byte {n m : ℕ} (hn : n < 2 ^ 64) {k : UInt64} (hk : k.toNat = m) (hm : m < 64) :
    ((UInt64.ofNat n >>> k) &&& 0xFF).toUInt8 = UInt8.ofNat (n / 2 ^ m) := by
  apply UInt8.toNat_inj.mp
  have hmask : ∀ m, m &&& 255 = m % 256 := fun m => Nat.and_two_pow_sub_one_eq_mod m 8
  rw [UInt64.toNat_toUInt8, UInt64.toNat_and, UInt64.toNat_shiftRight, UInt8.toNat_ofNat',
    UInt64.toNat_ofNat_of_lt' hn, hk, Nat.mod_eq_of_lt hm, Nat.shiftRight_eq_div_pow]
  change ((n / 2 ^ m) &&& 255) % 256 = (n / 2 ^ m) % 256
  rw [hmask, Nat.mod_mod]

theorem masked_byte {n : ℕ} (hn : n < 2 ^ 64) :
    (UInt64.ofNat n &&& 0xFF).toUInt8 = UInt8.ofNat n := by
  simpa using shifted_byte hn (k := 0) rfl (by decide)

theorem SocketIdentity.eq_bytes (sessionId : SocketIdentity) :
    sessionId = #v[sessionId[0], sessionId[1], sessionId[2], sessionId[3], sessionId[4]] := by
  ext i hi
  interval_cases i <;> rfl

theorem identityValue_bytes (a b c d e : UInt8) : identityValue #v[a, b, c, d, e] =
    (((a.toNat * 256 + b.toNat) * 256 + c.toNat) * 256 + d.toNat) * 256 + e.toNat := by
  simp [identityValue]

/-- What is left after the shift is the byte and a multiple of 256. -/
theorem shifted_bytes (a b c d e : UInt8) {n : ℕ} (hn : n = identityValue #v[a, b, c, d, e]) :
    UInt8.ofNat (n / 2 ^ 32) = a ∧ UInt8.ofNat (n / 2 ^ 24) = b ∧ UInt8.ofNat (n / 2 ^ 16) = c ∧
      UInt8.ofNat (n / 2 ^ 8) = d ∧ UInt8.ofNat n = e := by
  have hbyte : ∀ {n : ℕ} {b : UInt8}, n % 256 = b.toNat → UInt8.ofNat n = b := by
    intro n b hn
    apply UInt8.toNat_inj.mp
    rw [UInt8.toNat_ofNat', ← hn]
  rw [identityValue_bytes] at hn
  have ha := a.toNat_lt
  have hb := b.toNat_lt
  have hc := c.toNat_lt
  have hd := d.toNat_lt
  have he := e.toNat_lt
  refine ⟨hbyte ?_, hbyte ?_, hbyte ?_, hbyte ?_, hbyte ?_⟩ <;> omega

theorem vector_congr {a b c d e a' b' c' d' e' : UInt8} (ha : a = a') (hb : b = b') (hc : c = c')
    (hd : d = d') (he : e = e') : #v[a, b, c, d, e] = #v[a', b', c', d', e'] := by
  rw [ha, hb, hc, hd, he]

theorem socketSessionGenId_eq {key : List UInt8} {n : ℕ} (hn : n < 2 ^ 64)
    (hkey : strtoul 16 (cString key) = n) : socketSessionGenId key =
      #v[UInt8.ofNat (n / 2 ^ 32), UInt8.ofNat (n / 2 ^ 24), UInt8.ofNat (n / 2 ^ 16),
        UInt8.ofNat (n / 2 ^ 8), UInt8.ofNat n] := by
  subst hkey
  exact vector_congr (shifted_byte hn rfl (by decide)) (shifted_byte hn rfl (by decide))
    (shifted_byte hn rfl (by decide)) (shifted_byte hn rfl (by decide)) (masked_byte hn)

theorem socketSessionGenId_key (sessionId : SocketIdentity) :
    socketSessionGenId (keyDigits sessionId ++ [0]) = sessionId := by
  have hlt : identityValue sessionId < 2 ^ 64 :=
    (foldl_bytes_lt sessionId.toList 0).trans (by rw [sessionId.length_toList]; decide)
  have hkey : strtoul 16 (cString (keyDigits sessionId ++ [0])) = identityValue sessionId := by
    rw [cString_key fun _ => upperDigit_of_mem_keyDigits, strtoul_keyDigits]
  obtain ⟨h0, h1, h2, h3, h4⟩ := shifted_bytes sessionId[0] sessionId[1] sessionId[2]
    sessionId[3] sessionId[4] (congrArg identityValue sessionId.eq_bytes)
  rw [socketSessionGenId_eq hlt hkey, h0, h1, h2, h3, h4, ← SocketIdentity.eq_bytes]

/-! ### Every key is the key of an identity -/

/-- The byte with these two digits. -/
def byteOfDigits (high low : UInt8) : UInt8 := UInt8.ofNat (16 * digitValue high + digitValue low)

theorem byteDigits_byteOfDigits {high low : UInt8} (hhigh : UpperDigit high)
    (hlow : UpperDigit low) : byteDigits (byteOfDigits high low) = [high, low] := by
  obtain ⟨hhigh, htop⟩ := toupper_digit_of_upperDigit hhigh
  obtain ⟨hlow, hbottom⟩ := toupper_digit_of_upperDigit hlow
  have hvalue : (byteOfDigits high low).toNat = 16 * digitValue high + digitValue low := by
    rw [byteOfDigits, UInt8.toNat_ofNat', Nat.mod_eq_of_lt (by omega)]
  have hdiv : (16 * digitValue high + digitValue low) / 16 = digitValue high := by omega
  have hmod : (16 * digitValue high + digitValue low) % 16 = digitValue low := by omega
  rw [byteDigits, hvalue, hdiv, hmod, htop, hbottom]

/-- Digits in pairs are the digits of bytes. -/
theorem digits_of_bytes {n : ℕ} {digits : Text} (hlength : digits.length = 2 * n)
    (hdigits : ∀ c ∈ digits, UpperDigit c) :
    ∃ bytes : List UInt8, bytes.length = n ∧ bytes.flatMap byteDigits = digits := by
  induction n generalizing digits with
  | zero => exact ⟨[], rfl, (List.length_eq_zero_iff.mp hlength).symm⟩
  | succ n ih =>
    obtain ⟨high, low, digits, rfl⟩ : ∃ high low rest, digits = high :: low :: rest := by
      rcases digits with _ | ⟨high, _ | ⟨low, rest⟩⟩
      · simp at hlength
      · simp at hlength
        omega
      · exact ⟨high, low, rest, rfl⟩
    rw [List.forall_mem_cons, List.forall_mem_cons] at hdigits
    obtain ⟨hhigh, hlow, hrest⟩ := hdigits
    have hlength' : digits.length = 2 * n := by simp only [List.length_cons] at hlength; omega
    obtain ⟨bytes, hbytes, hflat⟩ := ih hlength' hrest
    refine ⟨byteOfDigits high low :: bytes, congrArg (· + 1) hbytes, ?_⟩
    rw [List.flatMap_cons, byteDigits_byteOfDigits hhigh hlow, hflat]
    rfl

theorem IsSessionKey.exists_identity {key : List UInt8} (h : IsSessionKey key) :
    ∃ sessionId, key = keyDigits sessionId ++ [0] := by
  obtain ⟨digits, hlength, hdigits, rfl⟩ := h
  obtain ⟨bytes, hbytes, hflat⟩ := digits_of_bytes (n := 5) hlength hdigits
  exact ⟨⟨bytes.toArray, hbytes⟩, congrArg (· ++ [0]) hflat.symm⟩

/-- The worker's keys are the strings of these. -/
theorem worker_sessionKey (sessionId : SocketIdentity) :
    (Server.socketSessionGenSessionKey sessionId.toList).map (fun c => UInt8.ofNat c.toNat) =
      keyDigits sessionId := by
  have hdigit : ∀ d < 16, UInt8.ofNat (Server.hexDigits.getD d '0').toNat = toupper (digit d) := by
    decide +kernel
  have htake : sessionId.toList.take 5 = sessionId.toList :=
    List.take_of_length_le sessionId.length_toList.le
  rw [Server.socketSessionGenSessionKey, htake, List.map_flatMap, keyDigits]
  apply List.flatMap_congr
  intro b _
  have hhigh : b.toNat / 16 < 16 := Nat.div_lt_of_lt_mul b.toNat_lt
  have hlow : b.toNat % 16 < 16 := Nat.mod_lt _ (by decide)
  rw [List.map_cons, List.map_cons, hdigit _ hhigh, hdigit _ hlow]
  rfl

/-- An identity comes back from its key and a key from its identity, so that no two identities
have the same key and packets that are sent to keys go to their sockets. -/
theorem session_key_round_trip :
    (∀ (sessionId : SocketIdentity) (buffer : Chars socketSessionIdSize), ∃ key,
      socketSessionGenSessionKey sessionId buffer.toList = some key ∧ IsSessionKey key ∧
        socketSessionGenId key = sessionId) ∧
    (∀ key, IsSessionKey key → ∀ buffer : Chars socketSessionIdSize,
      socketSessionGenSessionKey (socketSessionGenId key) buffer.toList = some key) ∧
    (∀ (sessionId sessionId' : SocketIdentity) (buffer buffer' : Chars socketSessionIdSize),
      socketSessionGenSessionKey sessionId buffer.toList =
        socketSessionGenSessionKey sessionId' buffer'.toList → sessionId = sessionId') ∧
    ∀ (sockets : List SocketIdentity) (keys : List (List UInt8)),
      List.Forall₂ (fun sessionId key => ∃ buffer : Chars socketSessionIdSize,
        socketSessionGenSessionKey sessionId buffer.toList = some key) sockets keys →
      identityFrames keys = sockets.map Vector.toList := by
  refine ⟨?_, ?_, ?_, ?_⟩
  · intro sessionId buffer
    exact ⟨_, socketSessionGenSessionKey_eq sessionId buffer, isSessionKey_keyDigits sessionId,
      socketSessionGenId_key sessionId⟩
  · intro key hkey buffer
    obtain ⟨sessionId, rfl⟩ := hkey.exists_identity
    rw [socketSessionGenId_key, socketSessionGenSessionKey_eq]
  · intro sessionId sessionId' buffer buffer' hsame
    rw [socketSessionGenSessionKey_eq, socketSessionGenSessionKey_eq, Option.some_inj] at hsame
    rw [← socketSessionGenId_key sessionId, hsame, socketSessionGenId_key]
  · intro sockets keys hkeys
    induction hkeys with
    | nil => rfl
    | @cons sessionId key sockets keys hkey _ ih =>
      obtain ⟨buffer, hkey⟩ := hkey
      rw [socketSessionGenSessionKey_eq, Option.some_inj] at hkey
      subst hkey
      have hfirst := congrArg Vector.toList (socketSessionGenId_key sessionId)
      exact congrArg₂ List.cons hfirst ih

end R1Emu.Game
