import R1Emu.Commander.InventoryIndex
import R1Emu.Game.Names
import R1Emu.Lib.Buffer
import R1Emu.Lib.CFormat
import R1Emu.Server.Monitor
import Mathlib.Logic.Function.Basic

/-!
# The keys of the hash tables

Items, static data and the clients of a router are found by numbers of 64 bits, in tables
whose keys are strings. The number is printed into an array, which is too small for some
static data, and a router's file descriptor is printed in decimal where the array was made for
hexadecimal digits, so that the end of a large one is cut off.

The formats of actors and descriptors are `%I64x` and `%I64d`. They are taken for what the runtime of
the Windows build makes of them, where `I64` is the length modifier of 64 bits; glibc reads a flag and
a width of 64 instead.
-/
namespace R1Emu.Game
open R1Emu.Commander R1Emu.Lib.CFormat R1Emu.Lib.Buffer R1Emu.Lib.Transition R1Emu.Server

/-! ### The generators -/

def actorKeySize : ℕ := 17

def actorGenKey (uid : UInt64) (key : List UInt8) : Option (List UInt8) :=
  snprintf key actorKeySize (numeral 16 uid.toNat)

/-- `sizeof(StaticDataId) + 1`. -/
def staticDataKeySize : ℕ := 8 + 1

def staticDataGenKey (id : UInt64) (key : List UInt8) : Option (List UInt8) :=
  snprintf key (8 * 2 + 1) (numeral 16 id.toNat)

def routerMonitorFdKeySize : ℕ := 8 * 2 + 1

def routerMonitorGenKey (fd : UInt64) (fdKey : List UInt8) : Option (List UInt8) :=
  snprintf fdKey routerMonitorFdKeySize (decimal fd.toInt64.toInt)

/-! ### Tables -/

/-- A table of objects by strings. -/
abbrev ZHash (α : Type) := List UInt8 → Option α

def zhashLookup {α : Type} (table : ZHash α) (key : List UInt8) : Option α := table (cString key)

/-- A key that is in the table is not inserted again. -/
def zhashInsert {α : Type} (table : ZHash α) (key : List UInt8) (object : α) : Option (ZHash α) :=
  if (zhashLookup table key).isSome then none
  else some (Function.update table (cString key) (some object))

/-- The keys of two numbers fit into their arrays with their terminators, they are distinct, and
what is inserted for one number is not found for the other. -/
def KeptApart (α : Type) (size : ℕ) (genKey : UInt64 → List UInt8 → Option (List UInt8))
    (id id' : UInt64) : Prop :=
  ∀ buffer buffer' : Chars size, ∃ key key', genKey id buffer.toList = some key ∧
    genKey id' buffer'.toList = some key' ∧ 0 ∈ key ∧ 0 ∈ key' ∧ cString key ≠ cString key' ∧
    ∀ (table inserted : ZHash α) (object : α), zhashInsert table key object = some inserted →
      zhashLookup inserted key = some object ∧ zhashLookup inserted key' = zhashLookup table key'

/-! ### Keys that are printed -/

theorem zero_notMem_numeral {base : ℕ} (hbase : 1 < base) (hbase' : base ≤ 16) (n : ℕ) :
    0 ∉ numeral base n := fun hmem =>
  absurd (digitValue_lt_of_mem_numeral hbase hbase' hmem)
    (Nat.not_lt.mpr (hbase'.trans (by decide)))

theorem zero_notMem_decimal (z : ℤ) : 0 ∉ decimal z := by
  have hnumeral : 0 ∉ numeral 10 z.natAbs := zero_notMem_numeral (by decide) (by decide) _
  rw [decimal]
  split
  · exact List.not_mem_cons_of_ne_of_not_mem (by decide) hnumeral
  · exact hnumeral

section Printed

variable {α : Type} {size : ℕ} {text text' : Text}

/-- The string that was printed is read back, up to the size that was given. -/
theorem snprintf_fits {room : ℕ} (buffer : Chars size) (hroom : (text.take room).length < size)
    (hzero : 0 ∉ text) : ∃ key, snprintf buffer.toList (room + 1) text = some key ∧ 0 ∈ key ∧
      cString key = text.take room := by
  have hlength : (text.take room ++ [0]).length ≤ buffer.toList.length := by
    rw [List.length_append, buffer.length_toList]
    exact hroom
  have hfront : 0 ∉ text.take room := fun hmem => hzero (List.mem_of_mem_take hmem)
  refine ⟨_, (if_neg (Nat.succ_ne_zero room)).trans (fill_of_le hlength), by simp, ?_⟩
  rw [Nat.add_sub_cancel, List.append_assoc, cString, List.takeWhile_append, ← cString,
    cString_of_notMem hfront, if_pos rfl, List.singleton_append, List.takeWhile_cons_of_neg (by simp),
    List.append_nil]

theorem snprintf_overflows {room : ℕ} {buffer : Chars size} (hroom : size ≤ (text.take room).length) :
    snprintf buffer.toList (room + 1) text = none := by
  rw [snprintf, if_neg (Nat.succ_ne_zero room), fill, if_neg]
  rw [List.length_append, buffer.length_toList]
  exact Nat.not_le.mpr (Nat.lt_succ_of_le hroom)

/-- Two numbers are kept apart when both keys fit and the printed fronts are distinct. -/
theorem keptApart_iff (room : ℕ) {genKey : UInt64 → List UInt8 → Option (List UInt8)}
    {id id' : UInt64} (hkey : ∀ key, genKey id key = snprintf key (room + 1) text)
    (hkey' : ∀ key, genKey id' key = snprintf key (room + 1) text') (hzero : 0 ∉ text)
    (hzero' : 0 ∉ text') : KeptApart α size genKey id id' ↔
      (text.take room).length < size ∧ (text'.take room).length < size ∧
        text.take room ≠ text'.take room := by
  constructor
  · intro h
    obtain ⟨key, key', hid, hid', -, -, hne, -⟩ :=
      h (Vector.replicate size 0) (Vector.replicate size 0)
    rw [hkey] at hid
    rw [hkey'] at hid'
    have hfits : (text.take room).length < size := by
      by_contra hlong
      rw [snprintf_overflows (Nat.le_of_not_lt hlong)] at hid
      cases hid
    have hfits' : (text'.take room).length < size := by
      by_contra hlong
      rw [snprintf_overflows (Nat.le_of_not_lt hlong)] at hid'
      cases hid'
    obtain ⟨printed, hprinted, -, hstring⟩ :=
      snprintf_fits (Vector.replicate size 0) hfits hzero
    obtain ⟨printed', hprinted', -, hstring'⟩ :=
      snprintf_fits (Vector.replicate size 0) hfits' hzero'
    rw [Option.some_inj.mp (hid.symm.trans hprinted),
      Option.some_inj.mp (hid'.symm.trans hprinted'), hstring, hstring'] at hne
    exact ⟨hfits, hfits', hne⟩
  · rintro ⟨hfits, hfits', hne⟩
    intro buffer buffer'
    obtain ⟨key, hid, hmem, hstring⟩ := snprintf_fits buffer hfits hzero
    obtain ⟨key', hid', hmem', hstring'⟩ := snprintf_fits buffer' hfits' hzero'
    have hdistinct : cString key ≠ cString key' := by rwa [hstring, hstring']
    refine ⟨key, key', (hkey _).trans hid, (hkey' _).trans hid', hmem, hmem', hdistinct, ?_⟩
    intro table inserted object hinsert
    rw [zhashInsert] at hinsert
    split at hinsert
    case isTrue => cases hinsert
    case isFalse =>
      cases hinsert
      exact ⟨Function.update_self _ _ _, Function.update_of_ne hdistinct.symm _ _⟩

end Printed

/-! ### Hexadecimal keys -/

theorem length_hex_le_iff {n k : ℕ} (hk : 0 < k) : (numeral 16 n).length ≤ k ↔ n < 16 ^ k := by
  rw [numeral, List.length_map]
  exact Nat.length_toDigits_le_iff (by decide) hk

/-- No more than sixteen digits are printed, so that nothing is cut off. -/
theorem take_hex (id : UInt64) : (numeral 16 id.toNat).take 16 = numeral 16 id.toNat :=
  List.take_of_length_le ((length_hex_le_iff (by decide)).mpr id.toNat_lt)

theorem hex_ne_iff {id id' : UInt64} : numeral 16 id.toNat ≠ numeral 16 id'.toNat ↔ id ≠ id' :=
  ((numeral_injective (by decide) (by decide)).eq_iff.trans UInt64.toNat_inj).not

theorem actorGenKey_keptApart {α : Type} {uid uid' : UInt64} (hne : uid ≠ uid') :
    KeptApart α actorKeySize actorGenKey uid uid' := by
  have hzero : ∀ n, 0 ∉ numeral 16 n := zero_notMem_numeral (by decide) (by decide)
  have hfits : ∀ uid : UInt64, (numeral 16 uid.toNat).length < actorKeySize := fun uid =>
    Nat.lt_succ_of_le ((length_hex_le_iff (by decide)).mpr uid.toNat_lt)
  rw [keptApart_iff 16 (fun _ => rfl) (fun _ => rfl) (hzero _) (hzero _), take_hex, take_hex]
  exact ⟨hfits uid, hfits uid', hex_ne_iff.mpr hne⟩

theorem staticDataGenKey_keptApart_iff {α : Type} {id id' : UInt64} (hne : id ≠ id') :
    KeptApart α staticDataKeySize staticDataGenKey id id' ↔
      id.toNat < 2 ^ 32 ∧ id'.toNat < 2 ^ 32 := by
  have hzero : ∀ n, 0 ∉ numeral 16 n := zero_notMem_numeral (by decide) (by decide)
  have hfits : ∀ id : UInt64, (numeral 16 id.toNat).length < staticDataKeySize ↔
      id.toNat < 2 ^ 32 := fun id => Nat.lt_succ_iff.trans (length_hex_le_iff (by decide))
  rw [keptApart_iff 16 (fun _ => rfl) (fun _ => rfl) (hzero _) (hzero _), take_hex, take_hex, hfits,
    hfits]
  exact and_congr_right fun _ => and_iff_left (hex_ne_iff.mpr hne)

/-! ### Decimal keys -/

/-- The sign of a file descriptor that is printed as a signed number, and what is printed of its
absolute value into sixteen characters. -/
def fdFront (fd : UInt64) : Bool × ℕ :=
  if fd.toNat < 2 ^ 63 then (false, leading 10 16 fd.toNat)
  else (true, leading 10 15 (2 ^ 64 - fd.toNat))

def frontText (front : Bool × ℕ) : Text :=
  if front.1 then 45 :: numeral 10 front.2 else numeral 10 front.2

theorem frontText_injective : Function.Injective frontText := by
  have hnumeral : Function.Injective (numeral 10) := numeral_injective (by decide) (by decide)
  rintro ⟨negative, n⟩ ⟨negative', n'⟩ h
  cases negative <;> cases negative'
  · exact congrArg (Prod.mk false) (hnumeral h)
  · exact absurd h (numeral_ne_cons_minus _ _)
  · exact absurd h.symm (numeral_ne_cons_minus _ _)
  · exact congrArg (Prod.mk true) (hnumeral (List.cons.inj h).2)

theorem toInt_fd (fd : UInt64) : fd.toInt64.toInt =
    if fd.toNat < 2 ^ 63 then (fd.toNat : ℤ) else (fd.toNat : ℤ) - 2 ^ 64 := by
  have hcond : 2 * fd.toNat < 2 ^ 64 ↔ fd.toNat < 2 ^ 63 := by omega
  have hint : fd.toInt64.toInt = fd.toBitVec.toInt := rfl
  rw [hint, BitVec.toInt_eq_toNat_cond, UInt64.toNat_toBitVec, if_congr hcond rfl rfl]
  rfl

theorem take_decimal (fd : UInt64) :
    (decimal fd.toInt64.toInt).take 16 = frontText (fdFront fd) := by
  have hlt := fd.toNat_lt
  rw [decimal, toInt_fd, fdFront]
  by_cases hfd : fd.toNat < 2 ^ 63
  · have hpos : ¬ (fd.toNat : ℤ) < 0 := by omega
    simp only [if_pos hfd, if_neg hpos, Int.natAbs_natCast]
    exact take_numeral (by decide) (by decide) _
  · have hneg : (fd.toNat : ℤ) - 2 ^ 64 < 0 := by omega
    have habs : ((fd.toNat : ℤ) - 2 ^ 64).natAbs = 2 ^ 64 - fd.toNat := by omega
    simp only [if_neg hfd, if_pos hneg, habs]
    exact congrArg (45 :: ·) (take_numeral (by decide) (by decide) _)

theorem routerMonitorGenKey_keptApart_iff {α : Type} {fd fd' : UInt64} :
    KeptApart α routerMonitorFdKeySize routerMonitorGenKey fd fd' ↔ fdFront fd ≠ fdFront fd' := by
  have hfits : ∀ s : Text, (s.take 16).length < routerMonitorFdKeySize := fun s =>
    Nat.lt_succ_of_le (List.length_take_le 16 s)
  rw [keptApart_iff 16 (fun _ => rfl) (fun _ => rfl) (zero_notMem_decimal _)
    (zero_notMem_decimal _), and_iff_right (hfits _), and_iff_right (hfits _), take_decimal,
    take_decimal, frontText_injective.ne_iff]

/-! ### File descriptors with a key of their own -/

theorem fdFront_positive {fd : UInt64} (h : fd.toNat < 2 ^ 63) :
    fdFront fd = (false, leading 10 16 fd.toNat) := if_pos h

theorem fdFront_negative {fd : UInt64} (h : 2 ^ 63 ≤ fd.toNat) :
    fdFront fd = (true, leading 10 15 (2 ^ 64 - fd.toNat)) := if_neg (Nat.not_lt.mpr h)

/-- The last digit does not matter behind sixteen others. -/
theorem fdFront_div_positive {fd fd' : UInt64} (h : fd.toNat < 2 ^ 63)
    (hdiv : fd'.toNat = fd.toNat / 10) (hlong : 10 ^ 15 ≤ fd'.toNat) : fdFront fd' = fdFront fd := by
  have hlead : leading 10 16 (fd.toNat / 10) = leading 10 16 fd.toNat :=
    leading_div (by decide) (by decide) (hdiv ▸ hlong)
  rw [fdFront_positive h, fdFront_positive (by omega), hdiv, hlead]

theorem fdFront_div_negative {fd fd' : UInt64} (h : 2 ^ 63 ≤ fd.toNat)
    (hdiv : 2 ^ 64 - fd'.toNat = (2 ^ 64 - fd.toNat) / 10)
    (hlong : 10 ^ 14 ≤ 2 ^ 64 - fd'.toNat) : fdFront fd' = fdFront fd := by
  have hlead : leading 10 15 ((2 ^ 64 - fd.toNat) / 10) = leading 10 15 (2 ^ 64 - fd.toNat) :=
    leading_div (by decide) (by decide) (hdiv ▸ hlong)
  rw [fdFront_negative h, fdFront_negative (by omega), hdiv, hlead]

/-- A long number has a digit added or removed. -/
theorem exists_same_front (fd : UInt64) (hlow : 10 ^ 15 ≤ fd.toNat)
    (hhigh : fd.toNat ≤ 2 ^ 64 - 10 ^ 14) : ∃ fd', fd' ≠ fd ∧ fdFront fd = fdFront fd' := by
  have hof : ∀ n < 2 ^ 64, (UInt64.ofNat n).toNat = n := fun n => UInt64.toNat_ofNat_of_lt'
  have hne : ∀ {n}, n < 2 ^ 64 → n ≠ fd.toNat → UInt64.ofNat n ≠ fd := by
    intro n hn hdistinct heq
    exact hdistinct ((hof n hn).symm.trans (congrArg UInt64.toNat heq))
  by_cases hsign : fd.toNat < 2 ^ 63
  · by_cases hshort : fd.toNat < 10 ^ 16
    · have hn : fd.toNat * 10 < 2 ^ 64 := by omega
      refine ⟨UInt64.ofNat (fd.toNat * 10), hne hn (by omega), fdFront_div_positive ?_ ?_ hlow⟩
      · rw [hof _ hn]
        omega
      · rw [hof _ hn, Nat.mul_div_cancel _ (by decide)]
    · have hn : fd.toNat / 10 < 2 ^ 64 := by omega
      refine ⟨UInt64.ofNat (fd.toNat / 10), hne hn (by omega),
        (fdFront_div_positive hsign (hof _ hn) ?_).symm⟩
      rw [hof _ hn]
      omega
  · by_cases hshort : 2 ^ 64 - fd.toNat < 10 ^ 15
    · have hn : 2 ^ 64 - (2 ^ 64 - fd.toNat) * 10 < 2 ^ 64 := by omega
      refine ⟨UInt64.ofNat (2 ^ 64 - (2 ^ 64 - fd.toNat) * 10), hne hn (by omega),
        fdFront_div_negative ?_ ?_ (by omega)⟩
      · rw [hof _ hn]
        omega
      · rw [hof _ hn]
        omega
    · have hn : 2 ^ 64 - (2 ^ 64 - fd.toNat) / 10 < 2 ^ 64 := by omega
      refine ⟨UInt64.ofNat (2 ^ 64 - (2 ^ 64 - fd.toNat) / 10), hne hn (by omega),
        (fdFront_div_negative (by omega) ?_ ?_).symm⟩
      · rw [hof _ hn]
        omega
      · rw [hof _ hn]
        omega

/-- A short number is printed in full, and nothing longer begins like it. -/
theorem leading_eq_of_short {room n n' : ℕ} (hroom : 0 < room) (hn : n < 10 ^ (room - 1))
    (h : leading 10 room n = leading 10 room n') : n = n' := by
  have hpow : 10 ^ (room - 1) ≤ 10 ^ room := Nat.pow_le_pow_right (by decide) (by omega)
  rw [leading_of_lt hroom (hn.trans_le hpow)] at h
  by_cases hshort : n' < 10 ^ (room - 1)
  · rwa [leading_of_lt hroom (hshort.trans_le hpow)] at h
  · have hlong : 10 ^ (room - 1) ≤ leading 10 room n' :=
      le_leading (by decide) hroom (Nat.le_of_not_lt hshort)
    omega

/-- A number of at most fifteen characters has a key of its own, a longer one shares it with the
number that has a digit more or less. -/
theorem fdFront_unique_iff {fd : UInt64} : (∀ fd', fd' ≠ fd → fdFront fd ≠ fdFront fd') ↔
    fd.toNat < 10 ^ 15 ∨ 2 ^ 64 - 10 ^ 14 < fd.toNat := by
  constructor
  · intro hunique
    by_contra hlong
    obtain ⟨fd', hne, hsame⟩ := exists_same_front fd (by omega) (by omega)
    exact hunique fd' hne hsame
  · intro hshort fd' hne hsame
    apply hne
    apply UInt64.toNat_inj.mp
    have hlt := fd.toNat_lt
    have hlt' := fd'.toNat_lt
    rcases hshort with hshort | hshort
    · rw [fdFront_positive (by omega), fdFront] at hsame
      split at hsame
      case isTrue => exact (leading_eq_of_short (by decide) hshort (Prod.mk.inj hsame).2).symm
      case isFalse => cases (Prod.mk.inj hsame).1
    · rw [fdFront_negative (by omega), fdFront] at hsame
      split at hsame
      case isTrue => cases (Prod.mk.inj hsame).1
      case isFalse =>
        have habs := leading_eq_of_short (by decide) (by omega) (Prod.mk.inj hsame).2
        omega

/-! ### The tables that are given the keys -/

/-- The string that an actor's key is read as. -/
def actorKey (uid : UInt64) : Text := numeral 16 uid.toNat

theorem actorGenKey_reads (uid : UInt64) (buffer : Chars actorKeySize) :
    ∃ key, actorGenKey uid buffer.toList = some key ∧ cString key = actorKey uid := by
  have hfits : ((numeral 16 uid.toNat).take 16).length < actorKeySize :=
    Nat.lt_succ_of_le (List.length_take_le 16 _)
  obtain ⟨key, hkey, -, hreads⟩ := snprintf_fits buffer hfits
    (zero_notMem_numeral (by decide) (by decide) _)
  rw [take_hex] at hreads
  exact ⟨key, hkey, hreads⟩

theorem actorKey_injective : Function.Injective actorKey :=
  (numeral_injective (by decide) (by decide)).comp fun _ _ => UInt64.toNat_inj.mp

/-- The inventory may be used with these keys. -/
theorem sound_of_actorKeys {self : Ledger Text} (h : ReachableUnder (inventorySystem actorKey)
    (fun s op => Permitted actorKey s op ∧ ¬ Exchanges actorKey s op) self) :
    Sound actorKey self.toStore self.added :=
  sound_of_reachable actorKey_injective h

/-- The string that a descriptor's key is read as. -/
def fdKey (fd : UInt64) : Text := (decimal fd.toInt64.toInt).take 16

theorem routerMonitorGenKey_reads (fd : UInt64) (buffer : Chars routerMonitorFdKeySize) :
    ∃ key, routerMonitorGenKey fd buffer.toList = some key ∧ cString key = fdKey fd := by
  have hfits : ((decimal fd.toInt64.toInt).take 16).length < routerMonitorFdKeySize :=
    Nat.lt_succ_of_le (List.length_take_le 16 _)
  obtain ⟨key, hkey, -, hreads⟩ := snprintf_fits buffer hfits (zero_notMem_decimal _)
  exact ⟨key, hkey, hreads⟩

/-- The descriptors of at most fifteen digits have keys of their own. -/
def shortDescriptors : Platform Text where
  handsOut fd := decide (fd.toNat < 10 ^ 15)
  routerMonitorGenKey := fdKey
  genKey_inj fd fd' hfd _ hkey := by
    by_contra hne
    have hunique := fdFront_unique_iff.mpr (.inl (of_decide_eq_true hfd))
    refine hunique fd' (Ne.symm hne) (frontText_injective ?_)
    rw [← take_decimal, ← take_decimal]
    exact hkey

/-- The monitor may be used with these keys. -/
theorem bookkept_of_shortDescriptors {s : Monitoring Text}
    (h : ReachableUnder (Monitoring.system shortDescriptors) Monitoring.InTurn s) :
    Monitoring.Bookkept shortDescriptors s :=
  ((Monitoring.invariant_inductive shortDescriptors).reachable h).bookkept

/-- Actor uids are always kept apart, static data below 2^32, and file descriptors when what is
printed of them into sixteen characters is distinct. A file descriptor is kept apart from all
others when it has at most fifteen characters. -/
theorem hash_keys_kept_apart_iff (α : Type) :
    (∀ uid uid', uid ≠ uid' → KeptApart α actorKeySize actorGenKey uid uid') ∧
    (∀ id id', id ≠ id' → (KeptApart α staticDataKeySize staticDataGenKey id id' ↔
      id.toNat < 2 ^ 32 ∧ id'.toNat < 2 ^ 32)) ∧
    (∀ fd fd', fd ≠ fd' → (KeptApart α routerMonitorFdKeySize routerMonitorGenKey fd fd' ↔
      fdFront fd ≠ fdFront fd')) ∧
    ∀ fd, (∀ fd', fd' ≠ fd → KeptApart α routerMonitorFdKeySize routerMonitorGenKey fd fd') ↔
      fd.toNat < 10 ^ 15 ∨ 2 ^ 64 - 10 ^ 14 < fd.toNat := by
  refine ⟨fun _ _ => actorGenKey_keptApart, fun _ _ => staticDataGenKey_keptApart_iff,
    fun _ _ _ => routerMonitorGenKey_keptApart_iff, fun fd => ?_⟩
  simp only [routerMonitorGenKey_keptApart_iff]
  exact fdFront_unique_iff

/-- Two clients of the router, and two kinds of static data. -/
theorem hash_keys_merged :
    ¬ KeptApart ℕ routerMonitorFdKeySize routerMonitorGenKey 10000000000000001 10000000000000002 ∧
      ¬ KeptApart ℕ staticDataKeySize staticDataGenKey 0x100000000 0x100000001 := by
  rw [routerMonitorGenKey_keptApart_iff, staticDataGenKey_keptApart_iff (by decide)]
  refine ⟨fun hne => hne ?_, fun hlt => ?_⟩
  · have hdiv : ∀ fd : UInt64, fd.toNat / 10 = 10 ^ 15 → fd.toNat < 2 ^ 63 →
        fdFront fd = (false, leading 10 16 (10 ^ 15)) := by
      intro fd hfd hsmall
      rw [fdFront_positive hsmall, ← hfd, leading_div (by decide) (by decide) (by rw [hfd])]
    rw [hdiv _ rfl (by decide), hdiv _ rfl (by decide)]
  · exact absurd hlt.1 (by decide)

end R1Emu.Game
