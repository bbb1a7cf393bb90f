import R1Emu.Lib.CFormat

/-!
# The text of SQL statements

A statement is read character by character: words, symbols, and string literals in single
quotes, in which a backslash changes the meaning of the next character and two quotes stand for
one. A text that is put between quotes is read as itself when nothing in it has a meaning of
its own. Double quotes, backticks, comments and introducers of literals are not read here.
-/
namespace R1Emu.Lib.SqlText
open R1Emu.Lib.CFormat

def quote : UInt8 := 39

def backslash : UInt8 := 92

/-- What a backslash and this character stand for. -/
def escaped (c : UInt8) : Text :=
  if c = 48 then [0]
  else if c = 98 then [8]
  else if c = 110 then [10]
  else if c = 114 then [13]
  else if c = 116 then [9]
  else if c = 90 then [26]
  else if c = 37 ∨ c = 95 then [backslash, c]
  else [c]

inductive Token
  | word (s : Text)
  | string (value : Text)
  | symbol (c : UInt8)
  deriving DecidableEq

/-- Letters, digits and the underscore. -/
def isWord (c : UInt8) : Bool :=
  (48 ≤ c && c ≤ 57) || (65 ≤ c && c ≤ 90) || (97 ≤ c && c ≤ 122) || c == 95

/-- Parentheses, `*`, `,`, `;` and `=`. -/
def symbols : List UInt8 := [40, 41, 42, 44, 59, 61]

/-- Where the reader is: outside literals, behind these characters of a word, or in a literal with
this value so far, behind a backslash in it, or behind a quote that ends it unless another one
follows. -/
inductive Place
  | code (word : Text)
  | inside (value : Text)
  | escape (value : Text)
  | behind (value : Text)
  deriving DecidableEq

def wordTokens (word : Text) : List Token := if word = [] then [] else [.word word]

/-- A character outside literals. -/
def codeStep (word : Text) (c : UInt8) : Option (List Token × Place) :=
  if isWord c then some ([], .code (word ++ [c]))
  else if c = quote then if word = [] then some ([], .inside []) else none
  else if c = 32 then some (wordTokens word, .code [])
  else if c ∈ symbols then some (wordTokens word ++ [.symbol c], .code [])
  else none

def step : Place → UInt8 → Option (List Token × Place)
  | .code word, c => codeStep word c
  | .inside value, c =>
    if c = backslash then some ([], .escape value)
    else if c = quote then some ([], .behind value)
    else some ([], .inside (value ++ [c]))
  | .escape value, c => some ([], .inside (value ++ escaped c))
  | .behind value, c =>
    if c = quote then some ([], .inside (value ++ [quote]))
    else (codeStep [] c).map fun r => (.string value :: r.1, r.2)

/-- The tokens that are complete, and where the reader is then. -/
def run : Place → Text → Option (List Token × Place)
  | p, [] => some ([], p)
  | p, c :: s => (step p c).bind fun r => (run r.2 s).map fun r' => (r.1 ++ r'.1, r'.2)

/-- The end of the statement ends a word and a literal, but not one that is open. -/
def finish : Place → Option (List Token)
  | .code word => some (wordTokens word)
  | .behind value => some [.string value]
  | _ => none

def tokens (s : Text) : Option (List Token) :=
  (run (.code []) s).bind fun r => (finish r.2).map (r.1 ++ ·)

theorem run_append (p : Place) (s t : Text) : run p (s ++ t) =
    (run p s).bind fun r => (run r.2 t).map fun r' => (r.1 ++ r'.1, r'.2) := by
  induction s generalizing p with
  | nil => simp [run]
  | cons c s ih =>
    rw [List.cons_append, run, run]
    cases step p c with
    | none => rfl
    | some r =>
      rw [Option.bind_some, Option.bind_some, ih]
      cases run r.2 s with
      | none => rfl
      | some r' => simp [Option.map_map, Function.comp_def]

/-- A text that is read from one place to another, with what follows it. -/
theorem run_append_of {p q q' : Place} {s t : Text} {out out' : List Token}
    (h : run p s = some (out, q)) (h' : run q t = some (out', q')) :
    run p (s ++ t) = some (out ++ out', q') := by
  rw [run_append, h, Option.bind_some, h', Option.map_some]

theorem run_flatMap {α : Type} {rows : List α} {text : α → Text} {out : α → List Token}
    (h : ∀ row ∈ rows, run (.code []) (text row) = some (out row, .code [])) :
    run (.code []) (rows.flatMap text) = some (rows.flatMap out, .code []) := by
  induction rows with
  | nil => rfl
  | cons row rows ih =>
    obtain ⟨hrow, hrows⟩ := List.forall_mem_cons.mp h
    exact run_append_of hrow (ih hrows)

theorem isWord_of_digitValue {c : UInt8} (h : digitValue c < 36) : isWord c := by
  rw [digitValue] at h
  rw [isWord]
  split_ifs at h with h₁ h₂ h₃
  · simp [h₁.1, h₁.2]
  · simp [h₂.1, h₂.2]
  · simp [h₃.1, h₃.2]
  · exact absurd h (Nat.lt_irrefl _)

theorem run_word {s : Text} (h : ∀ c ∈ s, isWord c) (word : Text) :
    run (.code word) s = some ([], .code (word ++ s)) := by
  induction s generalizing word with
  | nil => simp [run]
  | cons c s ih =>
    obtain ⟨hc, hs⟩ := List.forall_mem_cons.mp h
    rw [run, step, codeStep, if_pos hc, Option.bind_some, ih hs]
    simp

theorem run_numeral {base : ℕ} (hbase : 1 < base) (hbase' : base ≤ 16) (n : ℕ) :
    run (.code []) (numeral base n) = some ([], .code (numeral base n)) :=
  run_word (fun _ hc => isWord_of_digitValue
    ((digitValue_lt_of_mem_numeral hbase hbase' hc).trans_le (hbase'.trans (by decide)))) []

/-! ### Texts in literals -/

/-- No character has a meaning of its own in a literal. A backslash has none in front of `%`
and `_`. -/
def verbatim : Text → Bool
  | [] => true
  | [c] => c ≠ backslash ∧ c ≠ quote
  | c :: d :: s =>
    if c = backslash then (d = 37 ∨ d = 95) ∧ verbatim s else c ≠ quote ∧ verbatim (d :: s)

theorem verbatim_of_forall {s : Text} (h : ∀ c ∈ s, c ≠ backslash ∧ c ≠ quote) : verbatim s := by
  fun_induction verbatim s with
  | case1 => rfl
  | case2 c => exact decide_eq_true (h c List.mem_cons_self)
  | case3 d s ih => exact absurd rfl (h backslash List.mem_cons_self).1
  | case4 c d s hc ih =>
    exact decide_eq_true ⟨(h c List.mem_cons_self).2, ih fun x hx => h x (.tail _ hx)⟩

/-- How much of a literal has been read. -/
def Place.size : Place → ℕ
  | .code _ => 0
  | .inside value => value.length
  | .escape value => value.length + 1
  | .behind value => value.length + 1

theorem length_escaped_le (c : UInt8) : (escaped c).length ≤ 2 := by
  unfold escaped
  split_ifs <;> simp

theorem size_codeStep {word : Text} {c : UInt8} {r : List Token × Place}
    (h : codeStep word c = some r) : r.2.size = 0 := by
  unfold codeStep at h
  split_ifs at h <;> cases h <;> rfl

/-- A character adds at most one to what has been read. -/
theorem size_step {p : Place} {c : UInt8} {r : List Token × Place} (h : step p c = some r) :
    r.2.size ≤ p.size + 1 := by
  cases p with
  | code word =>
    rw [size_codeStep h]
    exact Nat.zero_le _
  | inside value =>
    rw [step] at h
    split_ifs at h <;> cases h <;> simp [Place.size]
  | escape value =>
    cases h
    have := length_escaped_le c
    simp only [Place.size, List.length_append]
    omega
  | behind value =>
    rw [step] at h
    split_ifs at h
    · cases h
      simp [Place.size]
    · obtain ⟨r', hr', rfl⟩ := Option.map_eq_some_iff.mp h
      rw [size_codeStep hr']
      exact Nat.zero_le _

theorem size_run {p : Place} {s : Text} {r : List Token × Place} (h : run p s = some r) :
    r.2.size ≤ p.size + s.length := by
  induction s generalizing p r with
  | nil =>
    cases h
    exact le_rfl
  | cons c s ih =>
    obtain ⟨r₁, hstep, h⟩ := Option.bind_eq_some_iff.mp h
    obtain ⟨r₂, hrun, rfl⟩ := Option.map_eq_some_iff.mp h
    have hfirst := size_step hstep
    have hrest := ih hrun
    simp only [List.length_cons]
    omega

theorem run_inside_cons (u : Text) (c : UInt8) (s : Text) : run (.inside u) (c :: s) =
    if c = backslash then run (.escape u) s
    else if c = quote then run (.behind u) s
    else run (.inside (u ++ [c])) s := by
  rw [run, step]
  split_ifs <;> simp

theorem run_escape_cons (u : Text) (c : UInt8) (s : Text) :
    run (.escape u) (c :: s) = run (.inside (u ++ escaped c)) s := by
  rw [run, step]
  simp

/-- Two quotes are one character of the value, and one quote is the end. -/
theorem run_behind_ne (u s : Text) :
    run (.behind u) s ≠ some ([], .inside (u ++ quote :: s)) := by
  intro h
  cases s with
  | nil => cases h
  | cons c s =>
    rw [run, step] at h
    split_ifs at h with hc
    · obtain ⟨r, hrun, hr⟩ := Option.map_eq_some_iff.mp h
      obtain ⟨hout, hplace⟩ := Prod.mk.inj hr
      have hlength := size_run hrun
      rw [hplace] at hlength
      simp only [Place.size, List.length_append, List.length_cons, List.length_nil] at hlength
      omega
    · obtain ⟨r, hstep, h⟩ := Option.bind_eq_some_iff.mp h
      obtain ⟨r', -, rfl⟩ := Option.map_eq_some_iff.mp hstep
      obtain ⟨r'', -, hr⟩ := Option.map_eq_some_iff.mp h
      cases (Prod.mk.inj hr).1

theorem escaped_of_pattern {c : UInt8} (h : c = 37 ∨ c = 95) : escaped c = [backslash, c] := by
  rcases h with rfl | rfl <;> rfl

theorem length_escaped {c : UInt8} (h : ¬ (c = 37 ∨ c = 95)) : (escaped c).length = 1 := by
  unfold escaped
  rw [if_neg h]
  split_ifs <;> rfl

/-- A text is read into a literal as itself exactly when it is verbatim. -/
theorem run_inside_iff (u s : Text) :
    run (.inside u) s = some ([], .inside (u ++ s)) ↔ verbatim s := by
  fun_induction verbatim s generalizing u with
  | case1 => simp [run]
  | case2 c =>
    rw [run_inside_cons]
    split_ifs with hslash hquote <;> simp [run, *]
  | case3 d s ih =>
    rw [run_inside_cons, if_pos rfl, run_escape_cons]
    by_cases hd : d = 37 ∨ d = 95
    · rw [escaped_of_pattern hd]
      simpa [hd] using ih (u ++ [backslash, d])
    · simp only [hd, false_and, decide_false, Bool.false_eq_true, iff_false]
      intro h
      have hlength := size_run h
      simp only [Place.size, List.length_append, List.length_cons, length_escaped hd] at hlength
      omega
  | case4 c d s hc ih =>
    rw [run_inside_cons, if_neg hc]
    split_ifs with hquote
    · rw [hquote]
      simpa using run_behind_ne u (d :: s)
    · simpa [hquote] using ih (u ++ [c])

/-- A value stands in the statement as a literal: between quotes, outside other literals, where it
is read as itself up to the second quote, which ends the literal. -/
def HasLiteral (statement value : Text) : Prop :=
  ∃ before after out, statement = before ++ quote :: (value ++ quote :: after) ∧
    run (.code []) before = some (out, .code []) ∧
    run (.inside []) value = some ([], .inside value) ∧ after.head? ≠ some quote

variable {statement value front rest : Text}

theorem HasLiteral.verbatim (h : HasLiteral statement value) : verbatim value := by
  obtain ⟨-, -, -, -, -, hvalue, -⟩ := h
  exact (run_inside_iff [] value).mp hvalue

/-- Nothing before the first quote belongs to a literal. -/
theorem HasLiteral.length_le (h : HasLiteral statement value) (hfront : quote ∉ front)
    (hstatement : front <+: statement) : front.length + (value.length + 2) ≤ statement.length := by
  obtain ⟨before, after, -, rfl, -⟩ := h
  have hle : front.length ≤ before.length := by
    by_contra hlt
    apply hfront
    have hprefix : before ++ [quote] <+: front :=
      List.prefix_of_prefix_length_le (by simp) hstatement (by simp; omega)
    exact hprefix.subset (by simp)
  simp only [List.length_append, List.length_cons]
  omega

/-- A verbatim value between quotes is a literal. -/
theorem hasLiteral_of_verbatim {before after : Text} {out : List Token}
    (hbefore : run (.code []) before = some (out, .code [])) (hvalue : SqlText.verbatim value)
    (hafter : after.head? ≠ some quote) :
    HasLiteral (before ++ quote :: (value ++ quote :: after)) value :=
  ⟨before, after, out, rfl, hbefore, (run_inside_iff [] value).mpr hvalue, hafter⟩

/-- A statement that is cut off has a value as its first literal exactly when the value is verbatim
and is not cut off. -/
theorem hasLiteral_take_iff {back : Text} {n : ℕ} {out : List Token}
    (hfront : run (.code []) front = some (out, .code [])) (hquote : quote ∉ front)
    (hback : back.head? ≠ some quote) (hn : front.length ≤ n) :
    HasLiteral ((front ++ quote :: (value ++ quote :: back)).take n) value ↔
      SqlText.verbatim value ∧ front.length + (value.length + 2) ≤ n := by
  constructor
  · intro h
    have hprefix : front <+: (front ++ quote :: (value ++ quote :: back)).take n :=
      List.prefix_take_iff.mpr ⟨List.prefix_append _ _, hn⟩
    exact ⟨h.verbatim, (h.length_le hquote hprefix).trans (List.length_take_le _ _)⟩
  · rintro ⟨hvalue, hlength⟩
    have hsplit : (front ++ quote :: (value ++ quote :: back)).take n =
        front ++ quote :: (value ++ quote :: back.take (n - (front.length + (value.length + 2)))) := by
      have hwhole : front ++ quote :: (value ++ quote :: back) =
          (front ++ quote :: (value ++ [quote])) ++ back := by simp
      rw [hwhole, List.take_append, List.take_of_length_le (by simp; omega)]
      simp
    rw [hsplit]
    apply hasLiteral_of_verbatim hfront hvalue
    cases back with
    | nil => simp
    | cons c back =>
      cases n - (front.length + (value.length + 2)) with
      | zero => simp
      | succ k => exact hback

end R1Emu.Lib.SqlText
