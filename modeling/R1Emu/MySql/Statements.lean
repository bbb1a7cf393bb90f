import R1Emu.MySql.Commanders
import Mathlib.Algebra.Order.BigOperators.Group.List

/-!
# What the statements say

The formats and their arguments go together: each field is set to the text of its own value.
The server reads the statement back as these assignments, provided that no name has a character
with a meaning of its own.
-/
namespace R1Emu.MySql
open R1Emu.Game R1Emu.Lib.CFormat R1Emu.Lib.SqlText
open R1Emu.Commander (eqSlotCount)
set_option maxRecDepth 4000

variable {Key : Type} {c : Commander Key} {eqSlots : Fin eqSlotCount → UInt32}

def commanderName (c : Commander Key) : Text := cString c.commanderName.toList

/-! ### The texts -/

def Field.conversion : Field → Conversion
  | .commanderId | .accountId => .llu
  | .commanderName => .s
  | .positionX | .positionY | .positionZ => .f
  | .barrackPositionX | .barrackPositionY | .barrackPositionZ => .f
  | .hp | .mp => .d
  | _ => .u

/-- The number with a sign that `%d` prints. -/
def signed (n : UInt32) : ℤ := n.toInt32.toInt

/-- The text to which a field is set. -/
def fieldText (c : Commander Key) (eqSlots : Fin eqSlotCount → UInt32) : Field → Text
  | .accountId => numeral 10 c.accountId.toNat
  | .commanderName => commanderName c
  | .level => numeral 10 c.level.toNat
  | .exp => numeral 10 c.currentXP.toNat
  | .gender => numeral 10 c.gender.toNat
  | .jobId => numeral 10 c.jobId.toNat
  | .classId => numeral 10 c.classId.toNat
  | .hairId => numeral 10 c.hairId.toNat
  | .mapId => numeral 10 c.mapId.toNat
  | .positionX => formatFloat c.pos.x
  | .positionY => formatFloat c.pos.y
  | .positionZ => formatFloat c.pos.z
  | .barrackPositionX => formatFloat c.barrackPos.x
  | .barrackPositionY => formatFloat c.barrackPos.y
  | .barrackPositionZ => formatFloat c.barrackPos.z
  | .hp => decimal (signed c.currentHP)
  | .mp => decimal (signed c.currentSP.toUInt32)
  | .eqSlot slot => numeral 10 (eqSlots slot).toNat
  | _ => []

def lastField : Field := .eqSlot ⟨19, by decide⟩

/-- The last field has a space in the place of its comma. -/
def separator (field : Field) : Text := if field = lastField then text "  " else text ", "

def setText (value : Field → Text) (field : Field) : Text :=
  text field.str ++ text " = '" ++ (value field ++ quote :: separator field)

def insertText (value : Field → Text) : Text :=
  text "INSERT INTO commanders SET " ++ savedFields.flatMap (setText value)

def updateText (value : Field → Text) (commanderId : UInt64) : Text :=
  text "UPDATE commanders SET " ++ (savedFields.flatMap (setText value) ++
    (text " WHERE commander_id = '" ++ (numeral 10 commanderId.toNat ++
      text "' AND is_deleted = 'n'")))

/-! ### Printing -/

/-- What the loop prints for a field. -/
def setQuery (field : Field) : Text :=
  text field.str ++ text " = " ++ text field.typeStr ++ separator field

def setFormat (field : Field) : List Piece :=
  chars (text field.str ++ text " = '") ++
    ([.conv field.conversion] ++ chars (quote :: separator field))

theorem printBehind_of_le {query s : Text} (h : (query ++ s).length ≤ maxQuerySize - 1) :
    printBehind query s = query ++ s :=
  List.take_of_length_le h

theorem setField_skipped {query : Text} {field : Field} (h : field.skipped = true) :
    setField query field = query := if_pos h

theorem setField_eq {query : Text} {field : Field} (h : field.skipped = false)
    (hroom : (query ++ setQuery field).length ≤ maxQuerySize - 1) :
    setField query field = query ++ setQuery field := by
  have hlast : mySqlCommanderFields.getLast? = some lastField := rfl
  generalize hs : text field.str ++ text " = " ++ text field.typeStr = s
  have hprint : printBehind query (s ++ text ", ") = query ++ (s ++ text ", ") := by
    apply printBehind_of_le
    refine le_of_eq_of_le ?_ hroom
    rw [setQuery, hs, separator]
    split
    · simp
      rfl
    · simp
  rw [setField, if_neg (by rw [h]; decide), hs, hprint, hlast, setQuery, hs, separator]
  simp only [Option.some.injEq, eq_comm (a := lastField)]
  split
  · have hindex : (query ++ (s ++ text ", ")).length - 2 = query.length + s.length := by
      simp only [List.length_append]
      rfl
    rw [hindex, ← List.append_assoc, List.set_append_right _ _ (by simp)]
    simp
    rfl
  · rfl

/-- The loop prints all fields that are not skipped, as long as there is room. -/
theorem foldl_setField {fields : List Field} {query : Text}
    (hroom : (query ++ (fields.filter fun field => !field.skipped).flatMap setQuery).length ≤
      maxQuerySize - 1) :
    fields.foldl setField query =
      query ++ (fields.filter fun field => !field.skipped).flatMap setQuery := by
  induction fields generalizing query with
  | nil => simp
  | cons field fields ih =>
    rw [List.foldl_cons]
    cases hskipped : field.skipped with
    | true =>
      rw [List.filter_cons_of_neg (by simp [hskipped])] at hroom ⊢
      rw [setField_skipped hskipped, ih hroom]
    | false =>
      rw [List.filter_cons_of_pos (by simp [hskipped]), List.flatMap_cons,
        ← List.append_assoc] at hroom ⊢
      have hfield : (query ++ setQuery field).length ≤ maxQuerySize - 1 :=
        le_trans (by simp only [List.length_append]; omega) hroom
      rw [setField_eq hskipped hfield, ih hroom]

theorem insertQuery_eq :
    insertQuery = text "INSERT INTO commanders SET " ++ savedFields.flatMap setQuery :=
  foldl_setField (by decide)

theorem updateQuery_eq : updateQuery = text "UPDATE commanders SET " ++
    (savedFields.flatMap setQuery ++ text " WHERE commander_id = '%llu' AND is_deleted = 'n'") := by
  have hloop : mySqlCommanderFields.foldl setField (text "UPDATE commanders SET ") =
      text "UPDATE commanders SET " ++ savedFields.flatMap setQuery :=
    foldl_setField (by decide)
  have hwhere : text " WHERE " ++ text Field.commanderId.str ++ text " = " ++
      text Field.commanderId.typeStr ++ text " AND " ++ text Field.isDeleted.str ++ text " = 'n'" =
        text " WHERE commander_id = '%llu' AND is_deleted = 'n'" := rfl
  rw [updateQuery, hloop, hwhere, printBehind_of_le (by decide), List.append_assoc]

theorem pieces_setQuery :
    pieces (savedFields.flatMap setQuery) = some (savedFields.flatMap setFormat) :=
  pieces_flatMap (by decide)

theorem pieces_insertQuery : pieces insertQuery =
    some (chars (text "INSERT INTO commanders SET ") ++ savedFields.flatMap setFormat) := by
  rw [insertQuery_eq]
  exact pieces_append_of rfl pieces_setQuery

theorem pieces_updateQuery : pieces updateQuery =
    some (chars (text "UPDATE commanders SET ") ++ (savedFields.flatMap setFormat ++
      (chars (text " WHERE commander_id = '") ++ ([.conv .llu] ++
        chars (text "' AND is_deleted = 'n'"))))) := by
  rw [updateQuery_eq]
  exact pieces_append_of rfl
    (pieces_append_of pieces_setQuery rfl)

theorem savedFields_eq : savedFields =
    [.accountId, .commanderName, .level, .exp, .gender, .jobId, .classId, .hairId, .mapId,
      .positionX, .positionY, .positionZ, .barrackPositionX, .barrackPositionY, .barrackPositionZ,
      .hp, .mp] ++ (List.finRange eqSlotCount).map .eqSlot :=
  rfl

theorem convert_unsigned {n : UInt64} (hn : n.toNat < 2 ^ 32) :
    convert .u (.word n) = some (numeral 10 n.toNat) := by
  rw [convert, Nat.mod_eq_of_lt hn]

/-- Each argument is of the kind that the conversion of its field takes. -/
theorem aligned (c : Commander Key) (eqSlots : Fin eqSlotCount → UInt32) :
    List.Forall₂ (fun field arg => convert field.conversion arg = some (fieldText c eqSlots field))
      savedFields (insertArgs c eqSlots) := by
  have h32 : ∀ n : UInt32, convert .u (.word n.toUInt64) = some (numeral 10 n.toNat) :=
    fun n => convert_unsigned n.toNat_lt
  have h16 : ∀ n : UInt16, convert .u (.word n.toUInt64) = some (numeral 10 n.toNat) :=
    fun n => convert_unsigned (n.toNat_lt.trans (by decide))
  have h8 : ∀ n : UInt8, convert .u (.word n.toUInt64) = some (numeral 10 n.toNat) :=
    fun n => convert_unsigned (n.toNat_lt.trans (by decide))
  have hhp : convert .d (.word c.currentHP.toUInt64) = some (decimal (signed c.currentHP)) := by
    rw [convert, UInt32.toUInt32_toUInt64]
    rfl
  have hmp : convert .d (.word c.currentSP.toUInt64) =
      some (decimal (signed c.currentSP.toUInt32)) := by
    rw [convert, UInt16.toUInt32_toUInt64]
    rfl
  rw [savedFields_eq, insertArgs]
  simp only [List.cons_append, List.nil_append, List.forall₂_cons]
  refine ⟨rfl, rfl, h32 _, h32 _, h8 _, h16 _, h16 _, h8 _, h16 _, rfl, rfl, rfl, rfl, rfl, rfl,
    hhp, hmp, ?_⟩
  rw [List.forall₂_map_left_iff, List.forall₂_map_right_iff, List.forall₂_same]
  exact fun slot _ => h32 _

theorem prints_fields (c : Commander Key) (eqSlots : Fin eqSlotCount → UInt32) :
    Prints (savedFields.flatMap setFormat) (insertArgs c eqSlots)
      (savedFields.flatMap (setText (fieldText c eqSlots))) :=
  prints_flatMap ((aligned c eqSlots).imp fun field _ h =>
    (prints_chars _).append ((prints_conv h).append (prints_chars (quote :: separator field))))

theorem printf_insert (c : Commander Key) (eqSlots : Fin eqSlotCount → UInt32) :
    printf (chars (text "INSERT INTO commanders SET ") ++ savedFields.flatMap setFormat)
      (insertArgs c eqSlots) = some (insertText (fieldText c eqSlots)) :=
  ((prints_chars _).append (prints_fields c eqSlots)).printf_eq

theorem printf_update (c : Commander Key) (eqSlots : Fin eqSlotCount → UInt32)
    (commanderId : UInt64) :
    printf (chars (text "UPDATE commanders SET ") ++ (savedFields.flatMap setFormat ++
      (chars (text " WHERE commander_id = '") ++ ([.conv .llu] ++
        chars (text "' AND is_deleted = 'n'"))))) (updateArgs c eqSlots commanderId) =
      some (updateText (fieldText c eqSlots) commanderId) :=
  ((prints_chars _).append ((prints_fields c eqSlots).append ((prints_chars _).append
    ((prints_conv rfl).append (prints_chars _))))).printf_eq

/-! ### The buffer -/

theorem length_decimal_le {z : ℤ} {k : ℕ} (hk : 0 < k) (hz : z.natAbs < 10 ^ k) :
    (decimal z).length ≤ k + 1 := by
  have hnumeral := length_numeral_le (by decide) hk hz
  unfold decimal
  split
  · simpa using hnumeral
  · omega

theorem length_commanderName (c : Commander Key) : (commanderName c).length ≤ 65 := by
  have hprefix : commanderName c <+: c.commanderName.toList := List.takeWhile_prefix _
  simpa using hprefix.length_le

theorem length_fieldText (c : Commander Key) (eqSlots : Fin eqSlotCount → UInt32) (field : Field) :
    (fieldText c eqSlots field).length ≤ 65 := by
  have hnumeral : ∀ n < 2 ^ 64, (numeral 10 n).length ≤ 65 := fun n hn =>
    (length_numeral_le (k := 20) (by decide) (by decide) (hn.trans (by decide))).trans (by decide)
  have h32 : ∀ n : UInt32, (numeral 10 n.toNat).length ≤ 65 := fun n =>
    hnumeral _ (n.toNat_lt.trans (by decide))
  have h16 : ∀ n : UInt16, (numeral 10 n.toNat).length ≤ 65 := fun n =>
    hnumeral _ (n.toNat_lt.trans (by decide))
  have h8 : ∀ n : UInt8, (numeral 10 n.toNat).length ≤ 65 := fun n =>
    hnumeral _ (n.toNat_lt.trans (by decide))
  have hsigned : ∀ n : UInt32, (decimal (signed n)).length ≤ 65 := fun n => by
    have hlow := n.toInt32.le_toInt
    have hhigh := n.toInt32.toInt_lt
    exact (length_decimal_le (k := 10) (by decide) (by rw [signed]; omega)).trans (by decide)
  have hfloat : ∀ bits : UInt32, (formatFloat bits).length ≤ 65 := fun bits =>
    (length_formatFloat_le bits).trans (by decide)
  cases field <;> first
    | exact hnumeral _ c.accountId.toNat_lt
    | exact length_commanderName c
    | exact h32 _
    | exact h16 _
    | exact h8 _
    | exact hsigned _
    | exact hfloat _
    | exact Nat.zero_le _

theorem length_flatMap_le {fields : List Field} {f : Field → Text} {n : ℕ}
    (h : ∀ field ∈ fields, (f field).length ≤ n) : (fields.flatMap f).length ≤ fields.length * n := by
  rw [List.length_flatMap]
  exact (List.sum_le_card_nsmul _ _ (by simpa using h)).trans_eq (by simp)

theorem length_setTexts {value : Field → Text} (h : ∀ field, (value field).length ≤ 65) :
    (savedFields.flatMap (setText value)).length ≤ 37 * 90 := by
  have hnames : ∀ field ∈ savedFields,
      (text field.str ++ text " = '").length + (quote :: separator field).length ≤ 25 := by
    decide
  have hcount : savedFields.length = 37 := rfl
  have hset : ∀ field ∈ savedFields, (setText value field).length ≤ 90 := fun field hfield => by
    have hname := hnames field hfield
    have hvalue := h field
    simp only [setText, List.length_append] at hname ⊢
    omega
  exact (length_flatMap_le hset).trans_eq (by rw [hcount])

theorem length_insertText {value : Field → Text} (h : ∀ field, (value field).length ≤ 65) :
    (insertText value).length ≤ maxQuerySize - 2 := by
  have hfields := length_setTexts h
  have hfront : (text "INSERT INTO commanders SET ").length = 27 := rfl
  rw [insertText, List.length_append, hfront, maxQuerySize]
  omega

theorem length_updateText {value : Field → Text} (h : ∀ field, (value field).length ≤ 65)
    (commanderId : UInt64) : (updateText value commanderId).length ≤ maxQuerySize - 2 := by
  have hfields := length_setTexts h
  have hfront : (text "UPDATE commanders SET ").length = 22 := rfl
  have hwhere : (text " WHERE commander_id = '").length = 23 := rfl
  have hback : (text "' AND is_deleted = 'n'").length = 22 := rfl
  have hid : (numeral 10 commanderId.toNat).length ≤ 20 :=
    length_numeral_le (by decide) (by decide) (commanderId.toNat_lt.trans (by decide))
  simp only [updateText, List.length_append, hfront, hwhere, hback, maxQuerySize]
  omega

/-- The statements fit into the buffer. -/
theorem statement_insert (c : Commander Key) (eqSlots : Fin eqSlotCount → UInt32) :
    statement insertQuery (insertArgs c eqSlots) = some (insertText (fieldText c eqSlots)) := by
  rw [statement, pieces_insertQuery, Option.bind_some, printf_insert, Option.map_some,
    List.take_of_length_le (length_insertText (length_fieldText c eqSlots))]

theorem statement_update (c : Commander Key) (eqSlots : Fin eqSlotCount → UInt32)
    (commanderId : UInt64) : statement updateQuery (updateArgs c eqSlots commanderId) =
      some (updateText (fieldText c eqSlots) commanderId) := by
  rw [statement, pieces_updateQuery, Option.bind_some, printf_update, Option.map_some,
    List.take_of_length_le (length_updateText (length_fieldText c eqSlots) commanderId)]

/-! ### Reading -/

theorem verbatim_of_printed {s : Text} (h : ∀ c ∈ s, digitValue c < 36 ∨ c = 45 ∨ c = 46) :
    verbatim s := by
  apply verbatim_of_forall
  intro c hc
  rcases h c hc with hdigit | rfl | rfl
  · constructor <;>
    · rintro rfl
      exact absurd hdigit (by decide)
  · decide
  · decide

theorem verbatim_numeral (n : ℕ) : verbatim (numeral 10 n) :=
  verbatim_of_printed fun _ hc => .inl
    ((digitValue_lt_of_mem_numeral (by decide) (by decide) hc).trans (by decide))

theorem verbatim_decimal (z : ℤ) : verbatim (decimal z) := by
  apply verbatim_of_printed
  have hdigits : ∀ c ∈ numeral 10 z.natAbs, digitValue c < 36 := fun c hc =>
    (digitValue_lt_of_mem_numeral (by decide) (by decide) hc).trans (by decide)
  unfold decimal
  split
  · exact List.forall_mem_cons.mpr ⟨.inr (.inl rfl), fun c hc => .inl (hdigits c hc)⟩
  · exact fun c hc => .inl (hdigits c hc)

/-- Of all values only the name may have characters with a meaning of their own. -/
theorem verbatim_fieldText (hname : verbatim (commanderName c)) (field : Field) :
    verbatim (fieldText c eqSlots field) := by
  cases field <;> first
    | exact hname
    | exact verbatim_numeral _
    | exact verbatim_decimal _
    | exact verbatim_of_printed fun _ => mem_formatFloat
    | rfl

def setTokens (value : Field → Text) (field : Field) : List Token :=
  .word (text field.str) :: equals :: .string (value field) ::
    if field = lastField then [] else [comma]

theorem run_separator (value : Text) (field : Field) :
    run (.inside value) (quote :: separator field) =
      some (.string value :: (if field = lastField then [] else [comma]), .code []) := by
  have hspaces : text "  " = [32, 32] := rfl
  have hcomma : text ", " = [44, 32] := rfl
  rw [separator, hspaces, hcomma]
  split <;> rfl

theorem run_setText {value : Field → Text} {field : Field} (hfield : field ∈ savedFields)
    (hvalue : verbatim (value field)) :
    run (.code []) (setText value field) = some (setTokens value field, .code []) := by
  have hname : ∀ field ∈ savedFields, run (.code []) (text field.str ++ text " = '") =
      some ([.word (text field.str), equals], .inside []) := by decide
  exact run_append_of (hname field hfield)
    (run_append_of ((run_inside_iff [] _).mpr hvalue) (run_separator _ field))

theorem run_setTexts {value : Field → Text} (hvalue : ∀ field, verbatim (value field)) :
    run (.code []) (savedFields.flatMap (setText value)) =
      some (savedFields.flatMap (setTokens value), .code []) :=
  run_flatMap fun field hfield => run_setText hfield (hvalue field)

theorem tokens_insertText {value : Field → Text} (hvalue : ∀ field, verbatim (value field)) :
    tokens (insertText value) = some (words ["INSERT", "INTO", "commanders", "SET"] ++
      savedFields.flatMap (setTokens value)) := by
  have hfront : run (.code []) (text "INSERT INTO commanders SET ") =
      some (words ["INSERT", "INTO", "commanders", "SET"], .code []) := rfl
  rw [tokens, insertText, run_append_of hfront (run_setTexts hvalue)]
  simp [finish, wordTokens]

theorem tokens_updateText {value : Field → Text} (hvalue : ∀ field, verbatim (value field))
    (commanderId : UInt64) : tokens (updateText value commanderId) =
      some (words ["UPDATE", "commanders", "SET"] ++ (savedFields.flatMap (setTokens value) ++
        (words ["WHERE", "commander_id"] ++ [equals] ++
          .string (numeral 10 commanderId.toNat) ::
            (words ["AND", "is_deleted"] ++ [equals, .string (text "n")])))) := by
  have hfront : run (.code []) (text "UPDATE commanders SET ") =
      some (words ["UPDATE", "commanders", "SET"], .code []) := rfl
  have hwhere : run (.code []) (text " WHERE commander_id = '") =
      some (words ["WHERE", "commander_id"] ++ [equals], .inside []) := rfl
  have hsplit : text "' AND is_deleted = 'n'" = [39, 32] ++ text "AND is_deleted = 'n'" :=
    rfl
  have hquote : ∀ v, run (.inside v) [39, 32] = some ([.string v], .code []) := fun _ => rfl
  have hback : run (.code []) (text "AND is_deleted = 'n'") =
      some (words ["AND", "is_deleted"] ++ [equals], .behind (text "n")) := rfl
  have hid := (run_inside_iff [] _).mpr (verbatim_numeral commanderId.toNat)
  rw [tokens, updateText, hsplit, run_append_of hfront (run_append_of (run_setTexts hvalue)
    (run_append_of hwhere (run_append_of hid (run_append_of (hquote _) hback))))]
  simp [finish]

/-! ### Parsing -/

theorem after_append (front rest : List Token) : after front (front ++ rest) = some rest := by
  induction front with
  | nil => rfl
  | cons t front ih => rw [List.cons_append, after, if_pos rfl, ih]

theorem after_ne {t u : Token} (h : t ≠ u) (front rest : List Token) :
    after (t :: front) (u :: rest) = none := if_neg h

theorem fieldOf_str : ∀ field ∈ savedFields, fieldOf (text field.str) = some field := by
  decide

theorem assignments_cons {value : Field → Text} {field : Field} (hfield : field ∈ savedFields)
    (hlast : field ≠ lastField) (rest : List Token) :
    assignments (setTokens value field ++ rest) =
      (assignments rest).map fun r => ((field, value field) :: r.1, r.2) := by
  rw [setTokens, if_neg hlast]
  simp only [List.cons_append, List.nil_append, equals, comma, assignments,
    fieldOf_str field hfield, Option.bind_some]

theorem assignments_last {value : Field → Text} {rest : List Token}
    (hrest : ∀ tokens, rest ≠ comma :: tokens) :
    assignments (setTokens value lastField ++ rest) =
      some ([(lastField, value lastField)], rest) := by
  have hlast : lastField ∈ savedFields := by decide
  rw [setTokens, if_pos rfl]
  simp only [List.cons_append, List.nil_append, equals]
  rw [assignments, fieldOf_str _ hlast, Option.map_some]
  exact fun tokens htokens => hrest tokens htokens

theorem assignments_flatMap {value : Field → Text} {rest : List Token}
    (hrest : ∀ tokens, rest ≠ comma :: tokens) {fields : List Field}
    (hfields : ∀ field ∈ fields, field ∈ savedFields ∧ field ≠ lastField) :
    assignments (fields.flatMap (setTokens value) ++ (setTokens value lastField ++ rest)) =
      some ((fields ++ [lastField]).map fun field => (field, value field), rest) := by
  induction fields with
  | nil => exact assignments_last hrest
  | cons field fields ih =>
    obtain ⟨⟨hsaved, hlast⟩, hfields⟩ := List.forall_mem_cons.mp hfields
    rw [List.flatMap_cons, List.append_assoc, assignments_cons hsaved hlast, ih hfields]
    rfl

/-- Each field is assigned its own value. -/
theorem assignments_savedFields (value : Field → Text) {rest : List Token}
    (hrest : ∀ tokens, rest ≠ comma :: tokens) :
    assignments (savedFields.flatMap (setTokens value) ++ rest) =
      some (savedFields.map fun field => (field, value field), rest) := by
  have hsplit : savedFields = savedFields.dropLast ++ [lastField] := rfl
  have hfields : ∀ field ∈ savedFields.dropLast, field ∈ savedFields ∧ field ≠ lastField := by
    decide
  have h := @assignments_flatMap value rest hrest _ hfields
  rw [← hsplit] at h
  rw [← h]
  conv_lhs => rw [hsplit]
  simp

theorem number_numeral (n : ℕ) : number (numeral 10 n) = some n := by
  have hdigits : (numeral 10 n).all (digitValue · < 10) := List.all_eq_true.mpr fun c hc =>
    decide_eq_true (digitValue_lt_of_mem_numeral (by decide) (by decide) hc)
  rw [number, if_pos ⟨numeral_ne_nil 10 n, hdigits⟩, digitsValue_numeral (by decide) (by decide)]

/-- The first words tell the statements apart. -/
theorem parse_insert (value : Field → Text) :
    parse (words ["INSERT", "INTO", "commanders", "SET"] ++
      savedFields.flatMap (setTokens value)) =
        some (.insert (savedFields.map fun field => (field, value field))) := by
  generalize hrest : savedFields.flatMap (setTokens value) = rest
  have hcount : parseCount (words ["INSERT", "INTO", "commanders", "SET"] ++ rest) = none := by
    rw [parseCount, Option.bind_eq_none_iff]
    intro r hr
    cases (after_ne (by decide) _ _).symm.trans hr
  have hfields : assignments rest =
      some (savedFields.map fun field => (field, value field), []) := by
    rw [← hrest]
    simpa using @assignments_savedFields value [] (by simp)
  have hinsert : parseInsert (words ["INSERT", "INTO", "commanders", "SET"] ++ rest) =
      some (.insert (savedFields.map fun field => (field, value field))) := by
    rw [parseInsert, after_append, Option.bind_some, hfields, Option.bind_some, if_pos rfl]
  rw [parse, hcount, hinsert]
  rfl

theorem parse_update (value : Field → Text) (commanderId : ℕ) :
    parse (words ["UPDATE", "commanders", "SET"] ++ (savedFields.flatMap (setTokens value) ++
      (words ["WHERE", "commander_id"] ++ [equals] ++ .string (numeral 10 commanderId) ::
        (words ["AND", "is_deleted"] ++ [equals, .string (text "n")])))) =
      some (.update (savedFields.map fun field => (field, value field)) commanderId) := by
  generalize hback : words ["AND", "is_deleted"] ++ [equals, .string (text "n")] = back
  generalize hwhere : words ["WHERE", "commander_id"] ++ [equals] ++
    .string (numeral 10 commanderId) :: back = condition
  generalize hrest : savedFields.flatMap (setTokens value) ++ condition = rest
  have hcount : parseCount (words ["UPDATE", "commanders", "SET"] ++ rest) = none := by
    rw [parseCount, Option.bind_eq_none_iff]
    intro r hr
    cases (after_ne (by decide) _ _).symm.trans hr
  have hinsert : parseInsert (words ["UPDATE", "commanders", "SET"] ++ rest) = none := by
    rw [parseInsert, Option.bind_eq_none_iff]
    intro r hr
    cases (after_ne (by decide) _ _).symm.trans hr
  have hfields : assignments rest =
      some (savedFields.map fun field => (field, value field), condition) := by
    rw [← hrest]
    apply assignments_savedFields
    rintro tokens rfl
    cases hwhere
  have hupdate : parseUpdate (words ["UPDATE", "commanders", "SET"] ++ rest) =
      some (.update (savedFields.map fun field => (field, value field)) commanderId) := by
    rw [parseUpdate, after_append, Option.bind_some, hfields, Option.bind_some, ← hwhere,
      after_append, Option.bind_some]
    simp only [hback, if_true, number_numeral, Option.map_some]
  rw [parse, hcount, hinsert, hupdate]
  rfl

section Execute
variable {server : Server} (hserver : server.Laws) (table : Commanders)
include hserver

/-- The statement that is executed sets each field to its own value. -/
theorem execute_insert {value : Field → Text} (hvalue : ∀ field, verbatim (value field)) :
    server.execute (insertText value) table =
      (Statement.insert (savedFields.map fun field => (field, value field))).run
        server.fetched server.blank table := by
  apply hserver.execute
  rw [tokens_insertText hvalue, Option.bind_some, parse_insert]

theorem execute_update {value : Field → Text} (hvalue : ∀ field, verbatim (value field))
    (commanderId : UInt64) : server.execute (updateText value commanderId) table =
      (Statement.update (savedFields.map fun field => (field, value field))
        commanderId.toNat).run server.fetched server.blank table := by
  apply hserver.execute
  rw [tokens_updateText hvalue, Option.bind_some, parse_update]

end Execute

def countText (commanderId : ℕ) : Text :=
  text "SELECT count(*) FROM commanders WHERE commander_id = " ++ numeral 10 commanderId

theorem statement_count (commanderId : UInt64) : statement countQuery [.word commanderId] =
    some (countText (commanderId.toNat % 2 ^ 32)) := by
  have hpieces : pieces countQuery =
      some (chars (text "SELECT count(*) FROM commanders WHERE commander_id = ") ++
        [.conv .u]) := rfl
  have hprints : printf (chars (text "SELECT count(*) FROM commanders WHERE commander_id = ") ++
      [.conv .u]) [.word commanderId] = some (countText (commanderId.toNat % 2 ^ 32)) :=
    ((prints_chars _).append (prints_conv rfl)).printf_eq
  have hfront : (text "SELECT count(*) FROM commanders WHERE commander_id = ").length = 53 :=
    rfl
  have hid : (numeral 10 (commanderId.toNat % 2 ^ 32)).length ≤ 10 :=
    length_numeral_le (by decide) (by decide) (by omega)
  have hlength : (countText (commanderId.toNat % 2 ^ 32)).length ≤ maxQuerySize - 2 := by
    rw [countText, List.length_append, hfront, maxQuerySize]
    omega
  rw [statement, hpieces, Option.bind_some, hprints, Option.map_some,
    List.take_of_length_le hlength]

theorem execute_count {server : Server} (hserver : server.Laws) (table : Commanders)
    (commanderId : ℕ) :
    server.execute (countText commanderId) table =
      some (table, ⟨[[numeral 10 (table.count commanderId)]], 0⟩) := by
  have hfront : run (.code []) (text "SELECT count(*) FROM commanders WHERE commander_id = ") =
      some (words ["SELECT", "count"] ++ .symbol 40 :: .symbol 42 :: .symbol 41 ::
        (words ["FROM", "commanders", "WHERE", "commander_id"] ++ [equals]), .code []) :=
    rfl
  have htokens : tokens (countText commanderId) =
      some ((words ["SELECT", "count"] ++ .symbol 40 :: .symbol 42 :: .symbol 41 ::
        (words ["FROM", "commanders", "WHERE", "commander_id"] ++ [equals])) ++
          [.word (numeral 10 commanderId)]) := by
    rw [tokens, countText,
      run_append_of hfront (run_numeral (by decide) (by decide) commanderId), Option.bind_some]
    simp [finish, wordTokens, numeral_ne_nil]
  have hparse : parse ((words ["SELECT", "count"] ++ .symbol 40 :: .symbol 42 :: .symbol 41 ::
      (words ["FROM", "commanders", "WHERE", "commander_id"] ++ [equals])) ++
        [.word (numeral 10 commanderId)]) = some (.count commanderId) := by
    rw [parse, parseCount, after_append, Option.bind_some]
    simp only [number_numeral, Option.map_some]
    rfl
  have hrun := hserver.execute (countText commanderId) (.count commanderId) table
  rw [htokens, Option.bind_some] at hrun
  exact hrun hparse

end R1Emu.MySql
