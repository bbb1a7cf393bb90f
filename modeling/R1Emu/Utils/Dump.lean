import R1Emu.Lib.CFormat
import R1Emu.Lib.Search
import R1Emu.Utils.StrGetLine

/-!
# Dumps of buffers

A buffer is printed in rows of sixteen bytes, in hexadecimal and as characters, and such rows are
read again when a packet is made of a dump. The reader looks for the end of a row's prefix in the
whole row, so that characters of the buffer can be taken for it.
-/
namespace R1Emu.Utils
open R1Emu.Lib.Buffer R1Emu.Lib.CFormat R1Emu.Lib.Search

/-! ### Printing -/

/-- Where and when a buffer is printed, and the prefix that is asked for, unless that is null. -/
structure PrintCall where
  time : Text
  file : Text
  line : ℕ
  function : Text
  callerPrefix : Option Text

/-- `"[%s][%s:%d in %s] "`. -/
def placePrefix (call : PrintCall) : Text :=
  91 :: call.time ++
    93 :: 91 :: (call.file ++ 58 :: decimal call.line ++ text " in " ++ call.function) ++ [93, 32]

/-- What `buffer_print_ex` puts in front of each line. -/
def bufferPrefix (call : PrintCall) : Text := placePrefix call ++ call.callerPrefix.getD []

def isprint (c : UInt8) : Bool := 32 ≤ c && c ≤ 126

def hexColumn (row : List UInt8) : Text := row.flatMap fun b => 32 :: padded 2 b.toNat

def charColumn (row : List UInt8) : Text := row.map fun c => if isprint c then c else 46

/-- `" | "`. -/
def columnSeparator : Text := [32, 124, 32]

/-- The bytes in hexadecimal, and spaces in the place of those that are missing. -/
def byteColumn (row : List UInt8) : Text :=
  hexColumn row ++ List.replicate (3 * (16 - row.length)) 32

def bufferRow (linePrefix row : List UInt8) : Text :=
  linePrefix ++ byteColumn row ++ columnSeparator ++ charColumn row

def rowsOf (buffer : List UInt8) : List (List UInt8) :=
  if buffer = [] then [] else buffer.take 16 :: rowsOf (buffer.drop 16)
termination_by buffer.length
decreasing_by
  rename_i h
  have := List.length_pos_iff.mpr h
  rw [List.length_drop]
  omega

def printLines (lines : List Text) : Text := lines.flatMap (· ++ [newline])

/-- The lines of these rows. -/
def printRows (linePrefix : Text) (rows : List (List UInt8)) : Text :=
  printLines (rows.map (bufferRow linePrefix))

def bufferHeader (linePrefix : Text) (bufferSize : ℕ) : Text :=
  linePrefix ++ text " ===== buffer size = " ++ decimal bufferSize ++ text " (0x" ++
    numeral 16 bufferSize ++ text ") ================"

def bufferTrailer (linePrefix : Text) : Text :=
  linePrefix ++ text "================================================="

/-- `_bufferPrint`. -/
def bufferPrint (linePrefix buffer : List UInt8) : Text :=
  printLines [bufferHeader linePrefix buffer.length] ++ printRows linePrefix (rowsOf buffer) ++
    printLines [bufferTrailer linePrefix]

/-! ### Reading -/

/-- `"] >  "`. -/
def longMarker : Text := [93, 32, 62, 32, 32]

/-- `"]  "`. -/
def shortMarker : Text := [93, 32, 32]

/-- Where the octets of a line start, unless that is null. -/
def strPos (line : Text) : Option ℕ :=
  match strstr longMarker line with
  | some i => some (i + 5)
  | none => (strstr shortMarker line).map (· + 3)

/-- The digits at the front of a text, and what is behind them. -/
def numberDigits (s : Text) : Text := dropBasePrefix 16 (splitSign (s.dropWhile isspace)).2

theorem length_dropBasePrefix_le (base : ℕ) (s : Text) :
    (dropBasePrefix base s).length ≤ s.length := by
  unfold dropBasePrefix
  split
  · split <;> simp
  · exact le_rfl

theorem length_splitSign_le (s : Text) : (splitSign s).2.length ≤ s.length := by
  unfold splitSign
  split <;> simp

theorem length_numberDigits_le (s : Text) : (numberDigits s).length ≤ s.length :=
  (length_dropBasePrefix_le _ _).trans
    ((length_splitSign_le _).trans (List.dropWhile_suffix _).length_le)

/-- The loop over the octets, which ends at a text that starts with no number. -/
def octets (s : Text) : List UInt8 :=
  if (numberDigits s).takeWhile (digitValue · < 16) = [] then []
  else UInt8.ofNat (strtoul 16 s) :: octets ((numberDigits s).dropWhile (digitValue · < 16))
termination_by s.length
decreasing_by
  rename_i h
  have hpos := List.length_pos_iff.mpr h
  have hsplit := congrArg List.length
    (List.takeWhile_append_dropWhile (p := (digitValue · < 16)) (l := numberDigits s))
  have hle := length_numberDigits_le s
  rw [List.length_append] at hsplit
  omega

/-- Where a line is cut, and its octets. -/
def dumpLine (line : Text) : Option (ℕ × List UInt8) :=
  (strPos line).bind fun start =>
    (strstr columnSeparator (line.drop start)).map fun len =>
      (start + len, octets ((line.drop start).take len))

/-- The memory, and how many bytes of it were written. -/
def dumpLoop (dump : ZString) :
    (fuel dumpPos : ℕ) → (buffer memory : List UInt8) → (memPos : ℕ) → Option (List UInt8 × ℕ)
  | 0, _, _, _, _ => none
  | fuel + 1, dumpPos, buffer, memory, memPos =>
    (strGetLine dump buffer 999 dumpPos).bind fun (next, buffer) =>
      match next with
      | none => some (memory, memPos)
      | some next =>
        (cstring buffer 0).bind fun line => (dumpLine line).bind fun (stop, octets) =>
          (put buffer stop 0).bind fun buffer => (putAll memory memPos octets).bind fun memory =>
            dumpLoop dump fuel next buffer memory (memPos + octets.length)

/-- Up to the end of the loop. -/
def dumpToMem (fuel : ℕ) (dump : ZString) (buffer memory : List UInt8) :
    Option (List UInt8 × ℕ) :=
  dumpLoop dump fuel 0 buffer memory 0

/-! ### The octets of a row -/

theorem mem_hexColumn {row : List UInt8} {c : UInt8} (hc : c ∈ hexColumn row) :
    c = 32 ∨ UpperDigit c := by
  obtain ⟨b, -, hc⟩ := List.mem_flatMap.mp hc
  have hb := b.toNat_lt
  rw [padded_two hb] at hc
  rcases List.mem_cons.mp hc with rfl | hc
  · exact .inl rfl
  · rcases List.mem_pair.mp hc with rfl | rfl
    · exact .inr (upperDigit_toupper (by omega))
    · exact .inr (upperDigit_toupper (by omega))

theorem dropBasePrefix_two (high : UInt8) {low : UInt8} (h : digitValue low < 16) (rest : Text) :
    dropBasePrefix 16 (high :: low :: rest) = high :: low :: rest := by
  unfold dropBasePrefix
  split
  next heq =>
    rw [if_neg]
    · exact heq.symm
    · rintro ⟨-, hx, -⟩
      rw [← (List.cons.inj (List.cons.inj heq).2).1] at hx
      rcases hx with rfl | rfl <;> exact absurd h (by decide)
  next => rfl

/-- A byte behind spaces, and in front of something that is no digit. -/
theorem octets_cons {k : ℕ} {b : UInt8} {rest : Text}
    (hrest : ∀ c ∈ rest.head?, ¬ digitValue c < 16) :
    octets (List.replicate k 32 ++ padded 2 b.toNat ++ rest) = b :: octets rest := by
  have hb := b.toNat_lt
  obtain ⟨high, hhigh⟩ : ∃ c, c = toupper (digit (b.toNat / 16)) := ⟨_, rfl⟩
  obtain ⟨low, hlow⟩ : ∃ c, c = toupper (digit (b.toNat % 16)) := ⟨_, rfl⟩
  have hhighValue : digitValue high = b.toNat / 16 := hhigh ▸ digitValue_toupper_digit (by omega)
  have hlowValue : digitValue low = b.toNat % 16 := hlow ▸ digitValue_toupper_digit (by omega)
  have hhighDigit : digitValue high < 16 := by omega
  have hlowDigit : digitValue low < 16 := by omega
  have htext : List.replicate k 32 ++ padded 2 b.toNat ++ rest =
      List.replicate k 32 ++ high :: (low :: rest) := by
    rw [padded_two hb, ← hhigh, ← hlow, List.append_assoc]
    rfl
  have hspaces : ∀ x ∈ List.replicate k (32 : UInt8), isspace x := fun x hx => by
    rw [List.eq_of_mem_replicate hx]
    rfl
  have hsign := splitSign_digit (s := low :: rest) hhighDigit hspaces
  have hbase := dropBasePrefix_two high hlowDigit rest
  have htake : (high :: low :: rest).takeWhile (digitValue · < 16) = [high, low] := by
    cases rest <;> simp_all
  have hdrop : (high :: low :: rest).dropWhile (digitValue · < 16) = rest := by
    cases rest <;> simp_all
  have hvalue : strtoul 16 (List.replicate k 32 ++ high :: (low :: rest)) = b.toNat := by
    rw [strtoul, readNumber, hsign, hbase, digitsValue, htake]
    simp only [List.foldl_cons, List.foldl_nil, hhighValue, hlowValue]
    rw [if_neg (by omega), if_neg (by decide)]
    omega
  rw [htext, octets, numberDigits, hsign, hbase, htake, hdrop, hvalue, if_neg (by simp),
    UInt8.ofNat_toNat]

theorem octets_spaces (k : ℕ) : octets (List.replicate k 32) = [] := by
  have hskip : (List.replicate k (32 : UInt8)).dropWhile isspace = [] := by
    rw [List.dropWhile_eq_nil_iff]
    intro x hx
    rw [List.eq_of_mem_replicate hx]
    rfl
  rw [octets, numberDigits, hskip]
  rfl

theorem head_hexColumn (row : List UInt8) (k : ℕ) :
    ∀ c ∈ (hexColumn row ++ List.replicate k 32).head?, ¬ digitValue c < 16 := by
  intro c hc
  have hspace : c = 32 := by
    cases row with
    | nil => exact List.eq_of_mem_replicate (List.mem_of_mem_head? hc)
    | cons b row => simpa [hexColumn, eq_comm] using hc
  rw [hspace]
  decide

theorem octets_hexColumn (row : List UInt8) (k : ℕ) :
    octets (hexColumn row ++ List.replicate k 32) = row := by
  induction row with
  | nil => exact octets_spaces k
  | cons b row ih =>
    calc octets (hexColumn (b :: row) ++ List.replicate k 32)
        = octets (List.replicate 1 32 ++ padded 2 b.toNat ++
            (hexColumn row ++ List.replicate k 32)) := by simp [hexColumn]
      _ = b :: row := by rw [octets_cons (head_hexColumn row k), ih]

/-- The first space of a row is a part of the marker in front of it. -/
theorem octets_byteColumn {row : List UInt8} (hrow : row ≠ []) :
    ∃ t, byteColumn row = 32 :: t ∧ octets t = row := by
  obtain ⟨b, rest, rfl⟩ := List.exists_cons_of_ne_nil hrow
  refine ⟨List.replicate 0 32 ++ padded 2 b.toNat ++ (hexColumn rest ++
    List.replicate (3 * (16 - (b :: rest).length)) 32), by simp [byteColumn, hexColumn], ?_⟩
  rw [octets_cons (head_hexColumn rest _), octets_hexColumn]

theorem length_octets_le (s : Text) : (octets s).length ≤ s.length := by
  fun_induction octets s with
  | case1 => simp
  | case2 s h ih =>
    have hpos := List.length_pos_iff.mpr h
    have hsplit := congrArg List.length
      (List.takeWhile_append_dropWhile (p := (digitValue · < 16)) (l := numberDigits s))
    have hle := length_numberDigits_le s
    rw [List.length_append] at hsplit
    rw [List.length_cons]
    omega

/-! ### The lines of a dump -/

/-- A prefix of which no part can be taken for the end of the place, for a part of a marker or for
the end of a line. -/
structure PlainPrefix (call : PrintCall) : Prop where
  plain : ∀ s ∈ [call.time, call.file, call.function, call.callerPrefix.getD []], ∀ c ∈ s,
    c ≠ 0 ∧ c ≠ newline ∧ c ≠ 93
  head : ∀ c ∈ (call.callerPrefix.getD []).head?, c ≠ 32 ∧ c ≠ 62
  length_le : (bufferPrefix call).length ≤ 900

/-- The rows that are read back: behind no prefix of the caller's, and without the marker among
their characters. -/
def ReadBack (call : PrintCall) (row : List UInt8) : Prop :=
  call.callerPrefix.getD [] = [] ∧ strstr longMarker (charColumn row) = none

section Lines
variable {call : PrintCall}

theorem notMem_prefixParts (h : PlainPrefix call) :
    93 ∉ 91 :: call.time ∧
      93 ∉ 91 :: (call.file ++ 58 :: decimal call.line ++ text " in " ++ call.function) ∧
        93 ∉ call.callerPrefix.getD [] := by
  have hpart : ∀ s ∈ [call.time, call.file, call.function, call.callerPrefix.getD []],
      (93 : UInt8) ∉ s := fun s hs hc => (h.plain s hs 93 hc).2.2 rfl
  have hline : (93 : UInt8) ∉ decimal call.line :=
    notMem_decimal (by decide) (by decide) call.line
  have hin : (93 : UInt8) ∉ text " in " := by decide
  simp only [List.forall_mem_cons] at hpart
  simp [hpart, hline, hin]

/-- A marker is found at the end of the place or behind it. -/
theorem strstr_place (h : PlainPrefix call) (marker rest : Text) :
    strstr (93 :: 32 :: marker) (placePrefix call ++ rest) =
      (strstr (93 :: 32 :: marker) (93 :: 32 :: rest)).map
        (· + ((placePrefix call).length - 2)) := by
  obtain ⟨hfront, hback, -⟩ := notMem_prefixParts h
  have hsplit : placePrefix call ++ rest = (91 :: call.time) ++ 93 ::
      ((91 :: (call.file ++ 58 :: decimal call.line ++ text " in " ++ call.function)) ++
        93 :: 32 :: rest) := by
    simp [placePrefix]
  have hlength : (placePrefix call).length - 2 =
      (91 :: (call.file ++ 58 :: decimal call.line ++ text " in " ++ call.function)).length + 1 +
        (91 :: call.time).length := by
    simp [placePrefix]
    omega
  rw [hsplit, strstr_skip hfront, strstr, if_neg (by simp [List.isPrefixOf]), strstr_skip hback,
    Option.map_map, Option.map_map, hlength]
  simp only [Function.comp_def, Nat.add_assoc]

variable {row : List UInt8}

theorem notMem_byteColumn {c : UInt8} (hc : c ≠ 32) (h : ¬ UpperDigit c) :
    c ∉ byteColumn row := by
  intro hmem
  rcases List.mem_append.mp hmem with hmem | hmem
  · exact (mem_hexColumn hmem).elim hc h
  · exact hc (List.eq_of_mem_replicate hmem)

/-- The first character behind the place of a row. -/
theorem head_behindPlace (h : PlainPrefix call) (hrow : row ≠ []) (rest : Text) :
    ∃ c t, call.callerPrefix.getD [] ++ (byteColumn row ++ rest) = c :: t ∧ c ≠ 62 ∧
      (call.callerPrefix.getD [] ≠ [] → c ≠ 32) := by
  cases hgiven : call.callerPrefix.getD [] with
  | nil =>
    obtain ⟨t, ht, -⟩ := octets_byteColumn hrow
    exact ⟨32, t ++ rest, by rw [ht]; rfl, by decide, fun hne => absurd rfl hne⟩
  | cons c t =>
    have hhead := h.head c (by rw [hgiven]; exact rfl)
    exact ⟨c, t ++ (byteColumn row ++ rest), rfl, hhead.2, fun _ => hhead.1⟩

/-- A marker that is not at the end of a row's place is found among its characters only. -/
theorem strstr_row (h : PlainPrefix call) {marker : Text}
    (hplace : ¬ marker.isPrefixOf (call.callerPrefix.getD [] ++
      (byteColumn row ++ (columnSeparator ++ charColumn row)))) :
    strstr (93 :: 32 :: marker) (bufferRow (bufferPrefix call) row) =
      (strstr (93 :: 32 :: marker) (charColumn row)).map
        (· + ((bufferRow (bufferPrefix call) row).length - row.length)) := by
  obtain ⟨-, -, hcaller⟩ := notMem_prefixParts h
  have hcolumn : (93 : UInt8) ∉ byteColumn row := notMem_byteColumn (by decide) (by decide)
  have hskip : (93 : UInt8) ∉
      32 :: (call.callerPrefix.getD [] ++ (byteColumn row ++ columnSeparator)) := by
    simp [columnSeparator, hcaller, hcolumn]
  have hrest : bufferRow (bufferPrefix call) row = placePrefix call ++
      (call.callerPrefix.getD [] ++ (byteColumn row ++ (columnSeparator ++ charColumn row))) := by
    simp [bufferRow, bufferPrefix]
  have hsplit : 32 :: (call.callerPrefix.getD [] ++
      (byteColumn row ++ (columnSeparator ++ charColumn row))) =
        (32 :: (call.callerPrefix.getD [] ++ (byteColumn row ++ columnSeparator))) ++
          charColumn row := by simp
  have hlength : (bufferRow (bufferPrefix call) row).length - row.length =
      (32 :: (call.callerPrefix.getD [] ++ (byteColumn row ++ columnSeparator))).length + 1 +
        ((placePrefix call).length - 2) := by
    rw [hrest]
    simp [charColumn, placePrefix]
    omega
  rw [hlength, hrest, strstr_place h, strstr, if_neg (by simpa [List.isPrefixOf] using hplace),
    hsplit, strstr_skip hskip]
  simp only [Option.map_map, Function.comp_def, Nat.add_assoc]

theorem longMarker_row (h : PlainPrefix call) (hrow : row ≠ []) :
    strstr longMarker (bufferRow (bufferPrefix call) row) =
      (strstr longMarker (charColumn row)).map
        (· + ((bufferRow (bufferPrefix call) row).length - row.length)) := by
  obtain ⟨c, t, hbehind, hc, -⟩ := head_behindPlace h hrow (columnSeparator ++ charColumn row)
  exact strstr_row h (by simp [hbehind, List.isPrefixOf, hc.symm])

/-- Behind a prefix of the caller's there is no short marker. -/
theorem shortMarker_row (h : PlainPrefix call) (hrow : row ≠ []) :
    strstr shortMarker (bufferRow (bufferPrefix call) row) =
      if call.callerPrefix.getD [] = [] then some ((bufferPrefix call).length - 2)
      else (strstr shortMarker (charColumn row)).map
        (· + ((bufferRow (bufferPrefix call) row).length - row.length)) := by
  obtain ⟨c, t, hbehind, -, hspace⟩ := head_behindPlace h hrow (columnSeparator ++ charColumn row)
  split
  case isTrue hnone =>
    obtain ⟨t, ht, -⟩ := octets_byteColumn hrow
    have hrest : bufferRow (bufferPrefix call) row =
        placePrefix call ++ 32 :: (t ++ columnSeparator ++ charColumn row) := by
      simp [bufferRow, bufferPrefix, ht, hnone]
    rw [hrest, shortMarker, strstr_place h, strstr, if_pos (by simp [List.isPrefixOf]),
      Option.map_some, Nat.zero_add, bufferPrefix, hnone, List.append_nil]
  case isFalse hcaller =>
    exact strstr_row h (by simp [hbehind, List.isPrefixOf, (hspace hcaller).symm])

theorem dumpLine_stop {l os : Text} {stop : ℕ} (h : dumpLine l = some (stop, os)) :
    stop + 3 ≤ l.length := by
  obtain ⟨start, -, hcut⟩ := Option.bind_eq_some_iff.mp h
  obtain ⟨len, hlen, hline⟩ := Option.map_eq_some_iff.mp hcut
  cases hline
  have hle := le_of_strstr hlen
  rw [List.length_drop, columnSeparator, List.length_cons, List.length_cons,
    List.length_singleton] at hle
  omega

/-- A row that is read back. -/
theorem dumpLine_plain (h : PlainPrefix call) (hrow : row ≠ []) (hread : ReadBack call row) :
    ∃ stop, dumpLine (bufferRow (bufferPrefix call) row) = some (stop, row) := by
  obtain ⟨hcaller, hchars⟩ := hread
  obtain ⟨t, ht, hoctets⟩ := octets_byteColumn hrow
  have hcolumn : (124 : UInt8) ∉ byteColumn row := notMem_byteColumn (by decide) (by decide)
  have hlong := longMarker_row h hrow
  rw [hchars, Option.map_none] at hlong
  have hstart : strPos (bufferRow (bufferPrefix call) row) =
      some ((bufferPrefix call).length + 1) := by
    rw [strPos, hlong, shortMarker_row h hrow, if_pos hcaller]
    simp [bufferPrefix, placePrefix]
    omega
  have hdrop : (bufferRow (bufferPrefix call) row).drop ((bufferPrefix call).length + 1) =
      t ++ ([32] ++ 124 :: [32]) ++ charColumn row := by
    rw [bufferRow, ht, List.append_assoc, List.append_assoc, List.drop_append,
      List.drop_of_length_le (Nat.le_succ _)]
    simp [columnSeparator]
  have hbar : (124 : UInt8) ∉ t := by
    rw [ht] at hcolumn
    exact (List.ne_and_not_mem_of_not_mem_cons hcolumn).2
  rw [dumpLine, hstart, Option.bind_some, hdrop, columnSeparator]
  rw [show ([32, 124, 32] : Text) = [32] ++ 124 :: [32] from rfl,
    strstr_of_notMem (by decide) hbar, Option.map_some]
  simp [hoctets]

/-- The octets of another row start behind a marker among its characters. -/
theorem le_strPos_row (h : PlainPrefix call) (hrow : row ≠ []) (hread : ¬ ReadBack call row)
    {start : ℕ} (hstart : strPos (bufferRow (bufferPrefix call) row) = some start) :
    (bufferRow (bufferPrefix call) row).length + 3 ≤ start + row.length := by
  rw [strPos, longMarker_row h hrow] at hstart
  cases hchars : strstr longMarker (charColumn row) with
  | some i =>
    rw [hchars, Option.map_some] at hstart
    cases hstart
    omega
  | none =>
    have hcaller : call.callerPrefix.getD [] ≠ [] := fun hcaller => hread ⟨hcaller, hchars⟩
    rw [hchars, Option.map_none] at hstart
    simp only [shortMarker_row h hrow, if_neg hcaller, Option.map_map, Option.map_eq_some_iff,
      Function.comp_apply] at hstart
    obtain ⟨i, -, rfl⟩ := hstart
    omega

/-- Another row gives fewer octets than it has bytes. -/
theorem dumpLine_short (h : PlainPrefix call) (hrow : row ≠ []) (hread : ¬ ReadBack call row)
    {stop : ℕ} {os : List UInt8}
    (hline : dumpLine (bufferRow (bufferPrefix call) row) = some (stop, os)) :
    os.length < row.length := by
  obtain ⟨start, hstart, hcut⟩ := Option.bind_eq_some_iff.mp hline
  obtain ⟨len, hlen, hos⟩ := Option.map_eq_some_iff.mp hcut
  obtain ⟨-, rfl⟩ := Prod.mk.inj hos
  have hbehind := le_strPos_row h hrow hread hstart
  have hroom := le_of_strstr hlen
  have hoctets := length_octets_le (((bufferRow (bufferPrefix call) row).drop start).take len)
  simp only [columnSeparator, List.length_cons, List.length_nil, List.length_drop,
    List.length_take] at hroom hoctets
  omega

end Lines

/-! ### The loop over the lines -/

section Loop
variable {dump : ZString} {front l rest buffer memory : List UInt8} {fuel memPos : ℕ}

theorem dumpLoop_end (hlength : dump.chars.length ≤ intMax) (hfront : dump.chars = front) :
    dumpLoop dump (fuel + 1) front.length buffer memory memPos = some (memory, memPos) := by
  rw [dumpLoop, strGetLine_end hlength (by rw [hfront])]
  rfl

/-- One line of a dump. -/
theorem dumpLoop_line (fuel memPos : ℕ) (memory : List UInt8) (hlength : dump.chars.length ≤ intMax)
    (hchars : dump.chars = front ++ (l ++ newline :: rest)) (hl : newline ∉ l)
    (hshort : l.length < 999) (hbuffer : buffer.length = 1000) :
    ∃ next : ℕ → List UInt8, (∀ stop, (next stop).length = 1000) ∧
      dumpLoop dump (fuel + 1) front.length buffer memory memPos =
        (dumpLine l).bind fun r => (putAll memory memPos r.2).bind fun memory =>
          dumpLoop dump fuel (front ++ l ++ [newline]).length (next r.1) memory
            (memPos + r.2.length) := by
  have hcount := congrArg List.length hchars
  rw [List.length_append, List.length_append, List.length_cons] at hcount
  have hzero : 0 ∉ l := fun hmem => dump.zero_notMem (by simp [hchars, hmem])
  have hloop := strGetLineLoop_line (s := rest) hl hshort (by decide)
    (by omega : front.length + l.length < intMax) (by omega : 999 < buffer.length)
  have hline : cstring (l ++ 0 :: buffer.drop (l.length + 1)) 0 = some l := by
    rw [cstring_of_mem (by simp), List.drop_zero, takeWhile_terminated hzero]
  have hread : (l ++ 0 :: buffer.drop (l.length + 1)).length = 1000 := by
    rw [List.length_append, List.length_cons, List.length_drop]
    omega
  refine ⟨fun stop => (l ++ 0 :: buffer.drop (l.length + 1)).set stop 0,
    fun stop => by rw [List.length_set, hread], ?_⟩
  rw [dumpLoop, strGetLine_eq hlength hchars (by simp), hloop]
  simp only [Option.map_some, Option.bind_some, hline]
  cases hdump : dumpLine l with
  | none => rfl
  | some r =>
    obtain ⟨stop, os⟩ := r
    have hstop := dumpLine_stop hdump
    simp only [Option.bind_some]
    rw [put_of_lt 0 (by omega), Option.bind_some]
    simp [Nat.add_assoc]

section Rows
variable {call : PrintCall} {rows : List (List UInt8)}

/-- No part of a prefix or of a row ends a line or the dump. -/
theorem prefix_plain (h : PlainPrefix call) {c : UInt8} (hc : c = 0 ∨ c = newline) :
    c ∉ bufferPrefix call := by
  have hpart : ∀ s ∈ [call.time, call.file, call.function, call.callerPrefix.getD []],
      c ∉ s := by
    intro s hs hmem
    have hplain := h.plain s hs c hmem
    exact hc.elim hplain.1 hplain.2.1
  have hline : c ∉ decimal call.line := by
    rcases hc with rfl | rfl <;> exact notMem_decimal (by decide) (by decide) call.line
  have hother : c ∉ [91, 93, 58, 32] ∧ c ∉ text " in " := by
    rcases hc with rfl | rfl <;> decide
  simp only [List.mem_cons, List.not_mem_nil, or_false, forall_eq_or_imp, forall_eq, not_or] at *
  simp [bufferPrefix, placePrefix, hpart, hline, hother]

theorem row_plain (h : PlainPrefix call) (row : List UInt8) {c : UInt8}
    (hc : c = 0 ∨ c = newline) : c ∉ bufferRow (bufferPrefix call) row := by
  have hfront := prefix_plain h hc
  have hbytes : c ∉ byteColumn row := by
    rcases hc with rfl | rfl <;> exact notMem_byteColumn (by decide) (by decide)
  have hseparator : c ∉ columnSeparator := by
    rcases hc with rfl | rfl <;> decide
  have hchars : c ∉ charColumn row := by
    intro hmem
    obtain ⟨b, -, rfl⟩ := List.mem_map.mp hmem
    split at hc
    case isTrue hprint =>
      rcases hc with rfl | rfl <;> exact absurd hprint (by decide)
    case isFalse => exact absurd hc (by decide)
  simp [bufferRow, hfront, hbytes, hseparator, hchars]

theorem length_row_lt (h : PlainPrefix call) {row : List UInt8}
    (hrow : row.length ≤ 16) :
    (bufferRow (bufferPrefix call) row).length < 999 := by
  have hhex : ∀ row : List UInt8, (hexColumn row).length = 3 * row.length := by
    intro row
    induction row with
    | nil => rfl
    | cons b row ih =>
      have hb := b.toNat_lt
      rw [hexColumn, List.flatMap_cons, List.length_append, padded_two hb]
      rw [hexColumn] at ih
      simp [ih]
      omega
  have hlength := h.length_le
  simp only [bufferRow, byteColumn, columnSeparator, charColumn, List.length_append, hhex,
    List.length_replicate, List.length_map, List.length_cons, List.length_nil]
  omega

theorem dumpLoop_rows (h : PlainPrefix call)
    (hrows : ∀ row ∈ rows, row ≠ [] ∧ row.length ≤ 16)
    (hread : ∀ row ∈ rows, ReadBack call row)
    (hlength : dump.chars.length ≤ intMax)
    (hchars : dump.chars = front ++ printRows (bufferPrefix call) rows)
    (hbuffer : buffer.length = 1000) (hroom : memPos + rows.flatten.length ≤ memory.length)
    (hfuel : rows.length < fuel) :
    dumpLoop dump fuel front.length buffer memory memPos =
      some (written memory memPos rows.flatten, memPos + rows.flatten.length) := by
  induction rows generalizing front buffer memory memPos fuel with
  | nil =>
    obtain ⟨fuel, rfl⟩ := Nat.exists_eq_succ_of_ne_zero (Nat.ne_of_gt hfuel)
    rw [dumpLoop_end hlength (by simpa [printRows, printLines] using hchars)]
    simp [written]
  | cons row rows ih =>
    obtain ⟨fuel, rfl⟩ := Nat.exists_eq_succ_of_ne_zero (Nat.ne_of_gt (Nat.zero_lt_of_lt hfuel))
    have hrow := List.forall_mem_cons.mp hrows
    have hread := List.forall_mem_cons.mp hread
    rw [List.flatten_cons, List.length_append] at hroom
    have hfirst : dump.chars = front ++ (bufferRow (bufferPrefix call) row ++
        newline :: printRows (bufferPrefix call) rows) := by
      rw [hchars]
      simp [printRows, printLines]
    obtain ⟨next, hnext, hstep⟩ := dumpLoop_line fuel memPos memory hlength hfirst
      (row_plain h row (.inr rfl)) (length_row_lt h hrow.1.2) hbuffer
    obtain ⟨stop, hline⟩ := dumpLine_plain h hrow.1.1 hread.1
    have hput : putAll memory memPos row = some (written memory memPos row) :=
      putAll_eq (by omega)
    have hrest : dumpLoop dump fuel
        (front ++ bufferRow (bufferPrefix call) row ++ [newline]).length
        (next stop) (written memory memPos row) (memPos + row.length) =
          some (written (written memory memPos row) (memPos + row.length) rows.flatten,
            memPos + row.length + rows.flatten.length) :=
      ih hrow.2 hread.2 (by rw [hfirst]; simp) (hnext stop)
        (by rw [length_written (by omega)]; omega) (by simpa using hfuel)
    rw [hstep, hline, Option.bind_some, hput, Option.bind_some, hrest, written_written (by omega)]
    simp [Nat.add_assoc]

/-- No row gives more bytes than it has, and one that is not read back gives fewer. -/
theorem dumpLoop_rows_le (h : PlainPrefix call)
    (hrows : ∀ row ∈ rows, row ≠ [] ∧ row.length ≤ 16)
    (hlength : dump.chars.length ≤ intMax)
    (hchars : dump.chars = front ++ printRows (bufferPrefix call) rows)
    (hbuffer : buffer.length = 1000) (hpos : memPos ≤ memory.length)
    {memory' : List UInt8} {n : ℕ}
    (hend : dumpLoop dump fuel front.length buffer memory memPos = some (memory', n)) :
    n ≤ memory.length ∧ n ≤ memPos + rows.flatten.length ∧
      (n = memPos + rows.flatten.length → ∀ row ∈ rows, ReadBack call row) := by
  induction rows generalizing front buffer memory memPos fuel with
  | nil =>
    cases fuel with
    | zero => cases hend
    | succ fuel =>
      rw [dumpLoop_end hlength (by simpa [printRows, printLines] using hchars)] at hend
      cases hend
      simpa using hpos
  | cons row rows ih =>
    cases fuel with
    | zero => cases hend
    | succ fuel =>
      have hrow := List.forall_mem_cons.mp hrows
      have hfirst : dump.chars = front ++ (bufferRow (bufferPrefix call) row ++
          newline :: printRows (bufferPrefix call) rows) := by
        rw [hchars]
        simp [printRows, printLines]
      obtain ⟨next, hnext, hstep⟩ := dumpLoop_line fuel memPos memory hlength hfirst
        (row_plain h row (.inr rfl)) (length_row_lt h hrow.1.2) hbuffer
      rw [hstep] at hend
      obtain ⟨⟨stop, os⟩, hline, hend⟩ := Option.bind_eq_some_iff.mp hend
      obtain ⟨memory₁, hput, hend⟩ := Option.bind_eq_some_iff.mp hend
      dsimp only at hput hend
      obtain ⟨hsame, hfits⟩ := of_putAll hpos hput
      obtain ⟨hroom, hcount, hread⟩ := ih hrow.2 (by rw [hfirst]; simp) (hnext stop)
        (by rw [hsame]; exact hfits) hend
      have hos : os.length ≤ row.length ∧
          (os.length = row.length → ReadBack call row) := by
        by_cases hfirst : ReadBack call row
        · obtain ⟨stop', hplain⟩ := dumpLine_plain h hrow.1.1 hfirst
          rw [hline] at hplain
          cases hplain
          exact ⟨le_rfl, fun _ => hfirst⟩
        · have hshort := dumpLine_short h hrow.1.1 hfirst hline
          exact ⟨hshort.le, fun heq => absurd heq hshort.ne⟩
      rw [List.flatten_cons, List.length_append]
      refine ⟨by omega, by omega, fun hn => ?_⟩
      rw [List.forall_mem_cons]
      exact ⟨hos.2 (by omega), hread (by omega)⟩

theorem zero_notMem_printRows (h : PlainPrefix call)
    (rows : List (List UInt8)) : 0 ∉ printRows (bufferPrefix call) rows := by
  rw [printRows, printLines, List.flatMap_map]
  intro hmem
  obtain ⟨row, -, hc⟩ := List.mem_flatMap.mp hmem
  rcases List.mem_append.mp hc with hc | hc
  · exact row_plain h row (.inl rfl) hc
  · exact absurd hc (by decide)

theorem length_printRows_le (h : PlainPrefix call)
    (hrows : ∀ row ∈ rows, row ≠ [] ∧ row.length ≤ 16) :
    (printRows (bufferPrefix call) rows).length ≤ 1000 * rows.flatten.length := by
  induction rows with
  | nil => simp [printRows, printLines]
  | cons row rows ih =>
    have hrow := List.forall_mem_cons.mp hrows
    have hshort := length_row_lt h hrow.1.2
    have hpos := List.length_pos_iff.mpr hrow.1.1
    have hrest := ih hrow.2
    simp only [printRows, printLines, List.map_cons, List.flatMap_cons, List.length_append,
      List.length_singleton, List.flatten_cons] at hrest ⊢
    omega

end Rows

theorem rowsOf_spec (buffer : List UInt8) : (rowsOf buffer).flatten = buffer ∧
    ∀ row ∈ rowsOf buffer, row ≠ [] ∧ row.length ≤ 16 := by
  fun_induction rowsOf buffer with
  | case1 => simp
  | case2 buffer hne ih =>
    rw [List.flatten_cons, ih.1, List.take_append_drop, List.forall_mem_cons]
    have hpos := List.length_pos_iff.mpr hne
    refine ⟨rfl, ⟨?_, List.length_take_le _ _⟩, ih.2⟩
    rw [← List.length_pos_iff, List.length_take]
    omega

end Loop

/-! ### Whole dumps -/

section Dump
variable {call : PrintCall}

/-- What follows the prefix of the header, and a space. -/
def headerText (n : ℕ) : Text :=
  text "===== buffer size = " ++ decimal n ++ text " (0x" ++ numeral 16 n ++
    text ") ================"

theorem bufferHeader_eq (linePrefix : Text) (n : ℕ) :
    bufferHeader linePrefix n = linePrefix ++ 32 :: headerText n := by
  have hspace : text " ===== buffer size = " = 32 :: text "===== buffer size = " := by rfl
  simp [bufferHeader, headerText, hspace]

theorem notMem_headerText {c : UInt8} (h : c ∈ ([0, newline, 93, 124] : Text)) (n : ℕ) :
    c ∉ headerText n := by
  have htexts : c ∉ text "===== buffer size = " ∧ c ∉ text " (0x" ∧
      c ∉ text ") ================" ∧ c ≠ 45 ∧ 16 ≤ digitValue c := by
    simp only [List.mem_cons, List.not_mem_nil, or_false] at h
    rcases h with rfl | rfl | rfl | rfl <;> decide
  obtain ⟨hfront, hmiddle, hend, hminus, hdigit⟩ := htexts
  have hdecimal : c ∉ decimal n := notMem_decimal hminus ((by decide : 10 ≤ 16).trans hdigit) n
  have hnumeral : c ∉ numeral 16 n := fun hc =>
    absurd (digitValue_lt_of_mem_numeral (by decide) (by decide) hc) (Nat.not_lt.mpr hdigit)
  simp [headerText, hfront, hmiddle, hend, hdecimal, hnumeral]

/-- The header is not the line of a row: it has no start or no end of octets. -/
theorem dumpLine_header (h : PlainPrefix call) (n : ℕ) :
    dumpLine (bufferHeader (bufferPrefix call) n) = none := by
  have htext : (93 : UInt8) ∉ headerText n := notMem_headerText (by decide) n
  have hline : bufferHeader (bufferPrefix call) n =
      placePrefix call ++ (call.callerPrefix.getD [] ++ 32 :: headerText n) := by
    rw [bufferHeader_eq, bufferPrefix, List.append_assoc]
  obtain ⟨-, -, hcaller⟩ := notMem_prefixParts h
  have hskip : (93 : UInt8) ∉ 32 :: (call.callerPrefix.getD [] ++ 32 :: headerText n) := by
    simp [hcaller, htext]
  -- A marker could only be at the end of the place.
  have hmarker : ∀ marker : Text,
      ¬ marker.isPrefixOf (call.callerPrefix.getD [] ++ 32 :: headerText n) →
        strstr (93 :: 32 :: marker) (bufferHeader (bufferPrefix call) n) = none := by
    intro marker hplace
    rw [hline, strstr_place h, strstr, if_neg (by simpa [List.isPrefixOf] using hplace),
      strstr_eq_none (List.mem_cons_self) hskip]
    rfl
  cases hgiven : call.callerPrefix.getD [] with
  | nil =>
    have hlong := hmarker [62, 32, 32] (by simp [hgiven, List.isPrefixOf])
    rw [hgiven, List.nil_append] at hline
    have hshort : strstr shortMarker (bufferHeader (bufferPrefix call) n) =
        some ((placePrefix call).length - 2) := by
      rw [hline, shortMarker, strstr_place h, strstr, if_pos (by simp [List.isPrefixOf]),
        Option.map_some, Nat.zero_add]
    have hdrop : (placePrefix call ++ 32 :: headerText n).drop
        ((placePrefix call).length - 2 + 3) = headerText n := by
      have hlength : (placePrefix call).length - 2 + 3 = (placePrefix call ++ [32]).length := by
        simp [placePrefix]
        omega
      have hsplit : placePrefix call ++ 32 :: headerText n =
          placePrefix call ++ [32] ++ headerText n := by simp
      rw [hlength, hsplit, List.drop_left]
    rw [dumpLine, strPos, longMarker, hlong, hshort, Option.map_some, Option.bind_some, hline,
      hdrop, columnSeparator, strstr_eq_none (by decide : (124 : UInt8) ∈ [32, 124, 32])
        (notMem_headerText (by decide) n)]
    rfl
  | cons c t =>
    have hhead := h.head c (by rw [hgiven]; exact rfl)
    have hlong := hmarker [62, 32, 32] (by simp [hgiven, List.isPrefixOf, hhead.2.symm])
    have hshort := hmarker [32] (by simp [hgiven, List.isPrefixOf, hhead.1.symm])
    rw [dumpLine, strPos, longMarker, hlong, shortMarker, hshort]
    rfl

theorem header_plain (h : PlainPrefix call) (n : ℕ) {c : UInt8}
    (hc : c = 0 ∨ c = newline) :
    c ∉ bufferHeader (bufferPrefix call) n := by
  have hfront := prefix_plain h hc
  have htext : c ∉ 32 :: headerText n := by
    rw [List.mem_cons, not_or]
    rcases hc with rfl | rfl <;> exact ⟨by decide, notMem_headerText (by decide) n⟩
  rw [bufferHeader_eq]
  simp only [List.mem_append, not_or]
  exact ⟨hfront, htext⟩

theorem zero_notMem_bufferPrint (h : PlainPrefix call) (bytes : List UInt8) :
    0 ∉ bufferPrint (bufferPrefix call) bytes := by
  have hheader := header_plain h bytes.length (.inl rfl)
  have hfront := prefix_plain h (.inl rfl)
  have htrailer : (0 : UInt8) ∉ text "=================================================" := by
    decide
  have hrows := zero_notMem_printRows h (rowsOf bytes)
  simp [bufferPrint, printLines, bufferTrailer, hheader, hfront, htrailer, hrows, newline]

theorem length_header_lt (h : PlainPrefix call) {n : ℕ} (hn : n ≤ 10 ^ 6) :
    (bufferHeader (bufferPrefix call) n).length < 999 := by
  have hfront := h.length_le
  have hdecimal : (decimal n).length ≤ 10 := by
    rw [decimal, if_neg (Int.natCast_nonneg n).not_gt]
    exact length_numeral_le (by decide) (by decide) (by simpa using hn.trans_lt (by decide))
  have hnumeral : (numeral 16 n).length ≤ 10 :=
    length_numeral_le (by decide) (by decide) (hn.trans_lt (by decide))
  have htexts : (text "===== buffer size = ").length = 20 ∧ (text " (0x").length = 4 ∧
      (text ") ================").length = 18 := by decide
  simp only [bufferHeader_eq, headerText, List.length_append, List.length_cons]
  omega

variable {bytes buffer memory : List UInt8} {dump : ZString}

theorem dumpToMem_bufferPrint (h : PlainPrefix call)
    (hbytes : bytes.length ≤ 10 ^ 6) (hbuffer : buffer.length = 1000)
    (hchars : dump.chars = bufferPrint (bufferPrefix call) bytes) (fuel : ℕ) :
    dumpToMem fuel dump buffer memory = none := by
  cases fuel with
  | zero => rfl
  | succ fuel =>
    obtain ⟨hflatten, hrows⟩ := rowsOf_spec bytes
    have hlength := length_printRows_le h hrows
    have hheader := length_header_lt h hbytes
    have hshort := h.length_le
    have htrailer : (text "=================================================").length = 49 := by
      decide
    have hfirst : dump.chars = [] ++
        (bufferHeader (bufferPrefix call) bytes.length ++ newline ::
          (printRows (bufferPrefix call) (rowsOf bytes) ++
            printLines [bufferTrailer (bufferPrefix call)])) := by
      rw [hchars]
      simp [bufferPrint, printLines]
    have hmax : dump.chars.length ≤ intMax := by
      rw [hfirst, intMax]
      rw [hflatten] at hlength
      simp only [printLines, bufferTrailer, List.length_append, List.length_cons,
        List.length_nil, List.flatMap_cons, List.flatMap_nil]
      omega
    obtain ⟨next, -, hstep⟩ := dumpLoop_line fuel 0 memory hmax hfirst
      (header_plain h bytes.length (.inr rfl)) hheader hbuffer
    rw [dumpLine_header h, Option.bind_none] at hstep
    exact hstep

theorem dumpToMem_printRows (h : PlainPrefix call)
    (hbytes : bytes.length ≤ 10 ^ 6) (hbuffer : buffer.length = 1000)
    (hchars : dump.chars = printRows (bufferPrefix call) (rowsOf bytes)) :
    (∃ fuel, dumpToMem fuel dump buffer memory =
        some (bytes ++ memory.drop bytes.length, bytes.length)) ↔
      bytes.length ≤ memory.length ∧ ∀ row ∈ rowsOf bytes, ReadBack call row := by
  obtain ⟨hflatten, hrows⟩ := rowsOf_spec bytes
  have hlength := length_printRows_le h hrows
  have hmax : dump.chars.length ≤ intMax := by
    rw [hchars, intMax]
    rw [hflatten] at hlength
    omega
  have hfront : dump.chars =
      [] ++ printRows (bufferPrefix call) (rowsOf bytes) := hchars
  constructor
  · rintro ⟨fuel, hread⟩
    have hloop : dumpLoop dump fuel ([] : Text).length buffer memory 0 =
        some (bytes ++ memory.drop bytes.length, bytes.length) := hread
    obtain ⟨hroom, -, hread⟩ := dumpLoop_rows_le h hrows hmax hfront hbuffer (Nat.zero_le _) hloop
    rw [hflatten, Nat.zero_add] at hread
    exact ⟨hroom, hread rfl⟩
  · rintro ⟨hroom, hread⟩
    have hloop : dumpLoop dump ((rowsOf bytes).length + 1) ([] : Text).length buffer memory 0 =
        some (written memory 0 (rowsOf bytes).flatten, 0 + (rowsOf bytes).flatten.length) :=
      dumpLoop_rows h hrows hread hmax hfront hbuffer (by rw [hflatten]; omega)
        (Nat.lt_succ_self _)
    rw [hflatten, written_front, Nat.zero_add] at hloop
    exact ⟨_, hloop⟩

/-- The call of a packet builder, with this prefix. -/
def builderCall (callerPrefix : Option Text) : PrintCall :=
  ⟨text "2015-11-07 11:37:20", text "zone_builder.c", 82, text "zoneBuilderNormalUnk4",
    callerPrefix⟩

theorem builderCall_plain {callerPrefix : Option Text}
    (h : callerPrefix ∈ [none, some (text "Buffer : "), some (text "PacketStream : ")]) :
    PlainPrefix (builderCall callerPrefix) := by
  have hplain : [text "2015-11-07 11:37:20", text "zone_builder.c",
      text "zoneBuilderNormalUnk4", [], text "Buffer : ", text "PacketStream : "].all
        (fun s => s.all fun c => c ≠ 0 ∧ c ≠ newline ∧ c ≠ 93) := by decide
  simp only [List.mem_cons, List.not_mem_nil, or_false] at h
  constructor
  case plain =>
    intro s hs c hc
    refine of_decide_eq_true (List.all_eq_true.mp (List.all_eq_true.mp hplain s ?_) c hc)
    rcases h with rfl | rfl | rfl <;> simp [builderCall] at hs ⊢ <;> tauto
  case head => rcases h with rfl | rfl | rfl <;> rintro c ⟨⟩ <;> decide
  case length_le => rcases h with rfl | rfl | rfl <;> decide

end Dump

end R1Emu.Utils
