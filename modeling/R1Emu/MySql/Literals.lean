import R1Emu.MySql.Statements

/-!
# Names in statements

A name that a client has sent stands in a statement as one literal of exactly its characters when
none of them has a meaning of its own there, and nothing of the statement is cut off.
-/
namespace R1Emu.MySql
open R1Emu.Game R1Emu.Lib.CFormat R1Emu.Lib.SqlText
open R1Emu.Commander (eqSlotCount)
set_option maxRecDepth 1000

variable {Key : Type} {c : Commander Key} {eqSlots : Fin eqSlotCount → UInt32}

/-- The statement is printed, and has the value as a literal. -/
def Quoted (printed : Option Text) (value : Text) : Prop :=
  ∃ s, printed = some s ∧ HasLiteral s value

theorem quoted_some {s value : Text} : Quoted (some s) value ↔ HasLiteral s value := by
  simp [Quoted]

theorem head_separator (field : Field) (rest : Text) :
    (separator field ++ rest).head? ≠ some quote := by
  have hspaces : text "  " = [32, 32] := rfl
  have hcomma : text ", " = [44, 32] := rfl
  rw [separator, hspaces, hcomma]
  split <;> simp [quote]

/-- The value of each field is a literal of its own. -/
theorem hasLiteral_setTexts {value : Field → Text} (hvalue : ∀ field, verbatim (value field))
    {start rest : Text} {out : List Token} (hstart : run (.code []) start = some (out, .code []))
    {field : Field} (hfield : field ∈ savedFields) :
    HasLiteral (start ++ (savedFields.flatMap (setText value) ++ rest)) (value field) := by
  have hname : ∀ field ∈ savedFields, run (.code []) (text field.str ++ text " = ") =
      some ([.word (text field.str), equals], .code []) := by decide
  have hequals : text " = '" = text " = " ++ [quote] := rfl
  obtain ⟨front, back, hsplit⟩ := List.append_of_mem hfield
  have hfront : run (.code []) (front.flatMap (setText value)) =
      some (front.flatMap (setTokens value), .code []) :=
    run_flatMap fun other hother => run_setText (by rw [hsplit]; simp [hother]) (hvalue other)
  have h := hasLiteral_of_verbatim
    (run_append_of hstart (run_append_of hfront (hname field hfield))) (hvalue field)
    (head_separator field (back.flatMap (setText value) ++ rest))
  rw [hsplit]
  simpa [setText, hequals] using h

theorem commanderName_mem : Field.commanderName ∈ savedFields := by decide

theorem quoted_insert_iff : Quoted (statement insertQuery (insertArgs c eqSlots)) (commanderName c) ↔
    verbatim (commanderName c) := by
  have hstart : run (.code []) (text "INSERT INTO commanders SET ") =
      some (words ["INSERT", "INTO", "commanders", "SET"], .code []) := rfl
  rw [statement_insert, quoted_some]
  refine ⟨HasLiteral.verbatim, fun hname => ?_⟩
  have hvalue : ∀ field, verbatim (fieldText c eqSlots field) := verbatim_fieldText hname
  rw [insertText, ← List.append_nil (List.flatMap _ _)]
  exact hasLiteral_setTexts hvalue hstart commanderName_mem

theorem quoted_update_iff {commanderId : UInt64} :
    Quoted (statement updateQuery (updateArgs c eqSlots commanderId)) (commanderName c) ↔
      verbatim (commanderName c) := by
  have hstart : run (.code []) (text "UPDATE commanders SET ") =
      some (words ["UPDATE", "commanders", "SET"], .code []) := rfl
  rw [statement_update, quoted_some]
  refine ⟨HasLiteral.verbatim, fun hname => ?_⟩
  have hvalue : ∀ field, verbatim (fieldText c eqSlots field) := verbatim_fieldText hname
  exact hasLiteral_setTexts hvalue hstart commanderName_mem

/-! ### Accounts -/

/-- What stands in front of the name of the account. -/
def accountFront : Text :=
  text "SELECT account_id, is_banned, Unix_Timestamp(time_banned), credits, privilege_level, " ++
    text "family_name, barrack_type FROM accounts WHERE account_name = "

/-- What stands behind it. -/
def accountBack (password : Vector UInt8 16) : Text :=
  text " AND passwd = '" ++ (md5BytesToStr password ++ text "' LIMIT 1")

theorem accountStatement_eq (accountName : Text) (password : Vector UInt8 16) :
    accountStatement accountName password = some ((accountFront ++ quote :: (accountName ++
      quote :: accountBack password)).take (maxQuerySize - 2)) := by
  have hpieces : pieces accountQuery = some (chars (accountFront ++ [quote]) ++ ([.conv .s] ++
      (chars (quote :: text " AND passwd = '") ++ ([.conv .s] ++ chars (text "' LIMIT 1"))))) := by
    decide
  have hprints := (prints_chars (accountFront ++ [quote])).append
    ((prints_conv (convert_string accountName)).append
      ((prints_chars (quote :: text " AND passwd = '")).append
        ((prints_conv (convert_string (md5BytesToStr password))).append
          (prints_chars (text "' LIMIT 1")))))
  rw [accountStatement, statement, hpieces, Option.bind_some]
  refine (congrArg _ hprints.printf_eq).trans ?_
  simp [accountBack]

/-- The statement has the name as a literal when the name is verbatim and short enough. -/
theorem quoted_account_iff {accountName : Text} {password : Vector UInt8 16} :
    Quoted (accountStatement accountName password) accountName ↔
      verbatim accountName ∧ accountName.length ≤ 3946 := by
  have hrun : (run (.code []) accountFront).map Prod.snd = some (.code []) := by decide
  obtain ⟨⟨out, _⟩, hrun, rfl⟩ := Option.map_eq_some_iff.mp hrun
  have hquote : quote ∉ accountFront := by decide
  have hlength : accountFront.length = 146 := by decide
  have hback : (accountBack password).head? ≠ some quote := by
    rw [accountBack, show text " AND passwd = '" = 32 :: text "AND passwd = '" from rfl]
    simp [quote]
  rw [accountStatement_eq, quoted_some, hasLiteral_take_iff hrun hquote hback
    (by rw [hlength]; decide), hlength, maxQuerySize]
  exact and_congr_right fun _ => by omega

def familyNameFront (accountId : UInt64) : Text :=
  text "CALL bSetFamilyName(" ++ (numeral 16 accountId.toNat ++ text ", ")

theorem familyNameStatement_eq (accountId : UInt64) (familyName : Text) :
    familyNameStatement accountId familyName = some ((familyNameFront accountId ++
      quote :: (familyName ++ quote :: text ");")).take (maxQuerySize - 2)) := by
  have hpieces : pieces familyNameQuery = some (chars (text "CALL bSetFamilyName(") ++
      ([.conv .llx] ++ (chars (text ", " ++ [quote]) ++ ([.conv .s] ++
        chars (quote :: text ");"))))) := by decide
  have hprints := (prints_chars (text "CALL bSetFamilyName(")).append
    ((prints_conv (convert_long accountId)).append ((prints_chars (text ", " ++ [quote])).append
      ((prints_conv (convert_string familyName)).append (prints_chars (quote :: text ");")))))
  rw [familyNameStatement, statement, hpieces, Option.bind_some]
  refine (congrArg _ hprints.printf_eq).trans ?_
  simp [familyNameFront]

theorem quoted_familyName_iff {accountId : UInt64} {familyName : Text} :
    Quoted (familyNameStatement accountId familyName) familyName ↔
      verbatim familyName ∧
        (numeral 16 accountId.toNat).length + familyName.length ≤ 4070 := by
  have hcall : run (.code []) (text "CALL bSetFamilyName(") =
      some (words ["CALL", "bSetFamilyName"] ++ [.symbol 40], .code []) := rfl
  have hcomma : ∀ word, run (.code word) (text ", ") =
      some (wordTokens word ++ [comma], .code []) := by
    intro word
    rw [show text ", " = [44, 32] from rfl]
    simp [run, step, codeStep, isWord, symbols, quote, wordTokens, comma]
  have hid : run (.code []) (numeral 16 accountId.toNat) =
      some ([], .code (numeral 16 accountId.toNat)) := run_numeral (by decide) (by decide) _
  have hrun : run (.code []) (familyNameFront accountId) = _ :=
    run_append_of hcall (run_append_of hid (hcomma _))
  have hlength : (familyNameFront accountId).length = 22 + (numeral 16 accountId.toNat).length := by
    have hcall : (text "CALL bSetFamilyName(").length = 20 := rfl
    have hcomma : (text ", ").length = 2 := rfl
    simp only [familyNameFront, List.length_append, hcall, hcomma]
    omega
  have hquote : quote ∉ familyNameFront accountId := by
    have hcall : quote ∉ text "CALL bSetFamilyName(" := by decide
    have hcomma : quote ∉ text ", " := by decide
    have hdigits : quote ∉ numeral 16 accountId.toNat := fun h =>
      absurd (digitValue_lt_of_mem_numeral (by decide) (by decide) h) (by decide)
    simp [familyNameFront, hcall, hcomma, hdigits]
  have hnumeral : (numeral 16 accountId.toNat).length ≤ 16 :=
    length_numeral_le (by decide) (by decide) accountId.toNat_lt
  rw [familyNameStatement_eq, quoted_some, hasLiteral_take_iff hrun hquote (by decide)
    (by rw [hlength, maxQuerySize]; omega), hlength, maxQuerySize]
  exact and_congr_right fun _ => by omega

/-- The names stand in their statements as literals exactly when they are verbatim, and those of
accounts and families are not cut off. -/
theorem names_quoted_iff (accountName familyName : Text) (password : Vector UInt8 16)
    (accountId commanderId : UInt64) (c : Commander Key) (eqSlots : Fin eqSlotCount → UInt32) :
    (Quoted (accountStatement accountName password) accountName ↔
      verbatim accountName ∧ accountName.length ≤ 3946) ∧
    (Quoted (familyNameStatement accountId familyName) familyName ↔
      verbatim familyName ∧ (numeral 16 accountId.toNat).length + familyName.length ≤ 4070) ∧
    (Quoted (statement insertQuery (insertArgs c eqSlots)) (commanderName c) ↔
      verbatim (commanderName c)) ∧
    (Quoted (statement updateQuery (updateArgs c eqSlots commanderId)) (commanderName c) ↔
      verbatim (commanderName c)) :=
  ⟨quoted_account_iff, quoted_familyName_iff, quoted_insert_iff, quoted_update_iff⟩

end R1Emu.MySql
