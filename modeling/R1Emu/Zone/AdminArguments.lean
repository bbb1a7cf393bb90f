import R1Emu.Zone.AdminCmd
import R1Emu.Handler.ChatBounds

/-!
# What an admin command makes of its text

The handler should be given what follows the first word and find the words of it. It is given
another text where there are spaces in front of the command, and a pointer behind the array where
nothing follows the word.
-/
namespace R1Emu.AdminCmd
open R1Emu.Lib.Buffer R1Emu.Lib.CFormat R1Emu.Lib.Words R1Emu.Utils

/-! ### The exact reading of a command -/

/-- The text that follows the first word. -/
def following (s : Text) : Text := (behindWord s).drop 1

/-- How many arguments a command takes. -/
def arities : AdminCommand → List ℕ
  | .spawnPc => [0]
  | .jump => [3]
  | .addItem => [2]
  | .addSkill => [2]
  | .test => [0]
  | .where_ => [0]
  | .changeCamera => [0, 3, 5]
  | .setStamina => [1]
  | .setSP => [1]
  | .setLevel => [1]
  | .setJobPoints => [2]
  | .setSpeed => [1]

/-- The arguments of a loop are the words of the text, and where the number of words is wrong the
command is refused before an argument is read. -/
structure OutcomeExact (numbers : List ℕ) (s : Text) (outcome : Outcome) : Prop where
  argc : ∀ loop, outcome.loop = some loop → loop.argc = (words space s).length
  arguments : ∀ loop, outcome.loop = some loop → loop.arguments = (words space s).map .string
  refused : (words space s).length ∉ numbers → outcome.effect.refuses = true
  unread : (words space s).length ∉ numbers → ∀ loop, outcome.loop = some loop → loop.read = []

/-- The handler of the first word is given the text that follows it. -/
def Processed.Exact (s : Text) : Processed → Prop
  | .unreadable => words space s = []
  | .unknown commandName => (words space s).head? = some commandName ∧
      adminCommands.lookup commandName = none
  | .handled c args outcome => adminCommands.lookup (firstWord s) = some c ∧
      args = some (following s) ∧ OutcomeExact (arities c) (following s) outcome

/-- Nothing is read behind the terminator, and the command is read exactly. -/
def ProcessesExactly (atof : Text → UInt32) (m : Allocations) (command : ZString) : Prop :=
  ∃ run, adminCmdProcess atof m command = some run ∧ run.Exact command.chars

/-! ### The first word -/

section FirstWord

variable {s : Text}

/-- The text up to the end of its first word. -/
def front (s : Text) : Text := s.takeWhile (· == space) ++ firstWord s

theorem front_append_behindWord : front s ++ behindWord s = s := by
  rw [front, List.append_assoc, firstWord, behindWord, firstPiece_append_afterPiece,
    List.takeWhile_append_dropWhile]

theorem length_front : (front s).length = leading s + (firstWord s).length := by
  rw [front, List.length_append, leading]

theorem behindWord_eq (h : behindWord s ≠ []) : behindWord s = space :: following s := by
  rcases afterPiece_eq_nil_or (c := space) (s := s.dropWhile (· == space)) with hnil | ⟨t, ht⟩
  · exact absurd hnil h
  · rw [following, behindWord, ht]
    rfl

theorem words_dropWhile (s : Text) : words space (s.dropWhile (· == space)) = words space s := by
  induction s with
  | nil => rfl
  | cons x s ih =>
    by_cases hx : x = space
    · subst hx
      rw [words_sep, List.dropWhile_cons_of_pos (by simp), ih]
    · rw [List.dropWhile_cons_of_neg (by simpa using hx)]

/-- Behind the spaces there is nothing or the first word. -/
theorem dropWhile_eq_nil_or (s : Text) : s.dropWhile (· == space) = [] ∨
    ∃ x t, s.dropWhile (· == space) = x :: t ∧ x ≠ space := by
  induction s with
  | nil => exact Or.inl rfl
  | cons x s ih =>
    by_cases hx : x = space
    · rwa [List.dropWhile_cons_of_pos (by simpa using hx)]
    · rw [List.dropWhile_cons_of_neg (by simpa using hx)]
      exact Or.inr ⟨x, s, rfl, hx⟩

theorem words_eq_nil (h : firstWord s = []) : words space s = [] := by
  rcases dropWhile_eq_nil_or s with hnil | ⟨x, t, hdrop, hx⟩
  · rw [← words_dropWhile, hnil, words_nil]
  · rw [firstWord, hdrop, firstPiece_cons hx] at h
    cases h

/-- The words of a text are its first word and the words of what follows. -/
theorem words_eq (h : firstWord s ≠ []) :
    words space s = firstWord s :: words space (following s) := by
  have hbehind : words space (behindWord s) = words space (following s) := by
    by_cases hnil : behindWord s = []
    · rw [following, hnil]
      rfl
    · rw [behindWord_eq hnil, words_sep]
  rcases dropWhile_eq_nil_or s with hnil | ⟨x, t, hdrop, hx⟩
  · rw [firstWord, hnil] at h
    exact absurd rfl h
  · rw [← hbehind, firstWord, behindWord, ← words_dropWhile, hdrop, words_cons hx]

end FirstWord

/-! ### The array and the text that the handler is given -/

section Array

variable {command : ZString} {off : ℕ}

/-- The array as `strtok` leaves it. -/
def tokenized (s : Text) : List UInt8 :=
  if behindWord s = [] then s ++ [0]
  else (s ++ [0]).set (leading s + (firstWord s).length) 0

theorem strtok_eq {s : Text} (h : firstWord s ≠ []) :
    strtok s = some (firstWord s, tokenized s) := if_neg h

theorem tokenized_eq (s : Text) : tokenized s =
    front s ++ 0 :: if behindWord s = [] then [] else following s ++ [0] := by
  have hsplit := front_append_behindWord (s := s)
  rw [tokenized]
  split
  case isTrue hnil =>
    rw [hnil, List.append_nil] at hsplit
    rw [hsplit]
  case isFalse hne =>
    have harray : s ++ [0] = front s ++ (space :: following s ++ [0]) := by
      rw [← behindWord_eq hne, ← List.append_assoc, hsplit]
    rw [harray, ← length_front, List.set_append_right _ _ le_rfl, Nat.sub_self]
    rfl

theorem length_tokenized (s : Text) : (tokenized s).length = s.length + 1 := by
  rw [tokenized]
  split <;> simp

/-- A string is read from every place in the array. -/
theorem isSome_zstring_iff (s : Text) : (zstring (tokenized s) off).isSome ↔ off ≤ s.length := by
  have hlast : ∃ l, tokenized s = l ++ [0] := by
    rw [tokenized_eq]
    split
    · exact ⟨_, rfl⟩
    · exact ⟨front s ++ 0 :: following s, by simp⟩
  obtain ⟨l, hl⟩ := hlast
  have hlength := length_tokenized s
  rw [hl, List.length_append, List.length_singleton] at hlength
  rw [isSome_zstring, hl]
  by_cases hoff : off ≤ s.length
  · rw [List.drop_append_of_le_length (by omega)]
    simp [hoff]
  · have hnil : (l ++ [0]).drop off = [] := List.drop_eq_nil_of_le (by simp; omega)
    simp [hnil, hoff]

/-- The text that starts behind as many characters as the first word has, and one more. -/
def argsText (s : Text) : Option Text :=
  if leading s = 0 then if behindWord s = [] then none else some (following s)
  else some ((front s).drop ((firstWord s).length + 1))

theorem zero_notMem_front (command : ZString) : 0 ∉ front command.chars := by
  intro hmem
  apply command.zero_notMem
  rw [← front_append_behindWord (s := command.chars)]
  exact List.mem_append_left _ hmem

theorem zero_notMem_following (command : ZString) : 0 ∉ following command.chars := by
  intro hmem
  apply command.zero_notMem
  rw [← front_append_behindWord (s := command.chars)]
  exact List.mem_append_right _ (List.mem_of_mem_drop hmem)

theorem zstring_args (command : ZString) : (zstring (tokenized command.chars)
    ((firstWord command.chars).length + 1)).map ZString.chars = argsText command.chars := by
  have hlength := length_front (s := command.chars)
  rw [argsText]
  split
  case isTrue hleading =>
    have htotal := congrArg List.length (front_append_behindWord (s := command.chars))
    rw [List.length_append] at htotal
    split
    case isTrue hnil =>
      have hnone : ¬ (zstring (tokenized command.chars)
          ((firstWord command.chars).length + 1)).isSome := by
        rw [isSome_zstring_iff]
        rw [hnil, List.length_nil] at htotal
        omega
      rw [Option.not_isSome_iff_eq_none.mp hnone, Option.map_none]
    case isFalse hne =>
      have hdrop : (firstWord command.chars).length + 1 = (front command.chars).length + 1 := by
        omega
      have hbehind : (tokenized command.chars).drop ((front command.chars).length + 1) =
          following command.chars ++ [0] := by
        rw [tokenized_eq, if_neg hne, ← List.drop_drop, List.drop_left]
        rfl
      rw [map_chars_zstring, hdrop, cstring, hbehind, if_pos (by simp),
        takeWhile_terminated (zero_notMem_following command)]
  case isFalse hleading =>
    have hoff : (firstWord command.chars).length + 1 ≤ (front command.chars).length := by omega
    have hzero : 0 ∉ (front command.chars).drop ((firstWord command.chars).length + 1) :=
      fun hmem => zero_notMem_front command (List.mem_of_mem_drop hmem)
    rw [map_chars_zstring, tokenized_eq, cstring, List.drop_append_of_le_length hoff,
      if_pos (by simp), takeWhile_terminated hzero]

/-- Where the handler is given the text that follows the first word. -/
theorem argsText_eq_following_iff (s : Text) : argsText s = some (following s) ↔
    if leading s = 0 then behindWord s ≠ []
    else (front s).drop ((firstWord s).length + 1) = following s := by
  rw [argsText]
  split
  · split <;> simp [*]
  · rw [Option.some_inj]

end Array

/-- A handler ends, and it has read its text exactly. -/
def HandlerExact (numbers : List ℕ) (s : Text) (run : Option Outcome) : Prop :=
  ∃ outcome, run = some outcome ∧ OutcomeExact numbers s outcome

section NoLoop

variable {numbers : List ℕ} {s : Text} {effect : Effect}

/-- Without a loop the number of words decides. -/
theorem outcomeExact_none_iff :
    OutcomeExact numbers s ⟨effect, none⟩ ↔
      ((words space s).length ∉ numbers → effect.refuses = true) := by
  constructor
  · exact OutcomeExact.refused
  · intro hrefused
    have hno : ∀ loop, (Outcome.mk effect none).loop ≠ some loop :=
      fun _ => (Option.some_ne_none _).symm
    exact ⟨fun loop h => absurd h (hno loop), fun loop h => absurd h (hno loop), hrefused,
      fun _ loop h => absurd h (hno loop)⟩

/-- A handler that refuses nothing. -/
theorem handlerExact_map_iff {α : Type} {run : Option α} {effect : α → Effect}
    (heffect : ∀ r, (effect r).refuses = false) :
    HandlerExact numbers s (run.map fun r => ⟨effect r, none⟩) ↔
      run.isSome ∧ (words space s).length ∈ numbers := by
  constructor
  · rintro ⟨outcome, houtcome, hexact⟩
    obtain ⟨r, rfl, rfl⟩ := Option.map_eq_some_iff.mp houtcome
    refine ⟨rfl, ?_⟩
    by_contra hnumber
    have hrefused := hexact.refused hnumber
    simp only [heffect] at hrefused
    cases hrefused
  · rintro ⟨hrun, hnumber⟩
    obtain ⟨r, rfl⟩ := Option.isSome_iff_exists.mp hrun
    exact ⟨_, rfl, outcomeExact_none_iff.mpr fun h => absurd hnumber h⟩

/-- A handler that does not look at its text. -/
theorem handlerExact_some_iff (heffect : effect.refuses = false) :
    HandlerExact numbers s (some ⟨effect, none⟩) ↔ (words space s).length ∈ numbers := by
  have hmap := @handlerExact_map_iff numbers s _ (some PUnit.unit) _ fun _ => heffect
  rw [Option.map_some, Option.isSome_some] at hmap
  exact hmap.trans (and_iff_right rfl)

end NoLoop

/-- No command has an empty name. -/
theorem lookup_nil : adminCommands.lookup [] = none := by decide

theorem processesExactly_iff {atof : Text → UInt32} {m : Allocations} {command : ZString} :
    ProcessesExactly atof m command ↔
      ∀ c, adminCommands.lookup (firstWord command.chars) = some c →
        argsText command.chars = some (following command.chars) ∧
          HandlerExact (arities c) (following command.chars)
            (handler atof m (tokenized command.chars)
              ((firstWord command.chars).length + 1) c) := by
  by_cases hword : firstWord command.chars = []
  · have hrun : adminCmdProcess atof m command = some .unreadable := by
      rw [adminCmdProcess, strtok, if_pos hword]
    rw [hword, lookup_nil]
    exact ⟨fun _ _ h => absurd h (by simp), fun _ => ⟨.unreadable, hrun, words_eq_nil hword⟩⟩
  cases hlookup : adminCommands.lookup (firstWord command.chars) with
  | none =>
    have hrun : adminCmdProcess atof m command = some (.unknown (firstWord command.chars)) := by
      rw [adminCmdProcess, strtok_eq hword]
      simp only [hlookup]
    have hfirst : (words space command.chars).head? = some (firstWord command.chars) := by
      rw [words_eq hword, List.head?_cons]
    exact ⟨fun _ _ h => absurd h (by simp),
      fun _ => ⟨.unknown (firstWord command.chars), hrun, hfirst, hlookup⟩⟩
  | some c =>
    have hrun : adminCmdProcess atof m command = (handler atof m (tokenized command.chars)
        ((firstWord command.chars).length + 1) c).map (.handled c (argsText command.chars)) := by
      rw [adminCmdProcess, strtok_eq hword]
      simp only [hlookup, zstring_args]
    rw [ProcessesExactly, hrun]
    constructor
    · rintro ⟨run, hrun, hexact⟩ c' hc
      obtain rfl := Option.some_inj.mp hc
      obtain ⟨outcome, houtcome, rfl⟩ := Option.map_eq_some_iff.mp hrun
      exact ⟨hexact.2.1, outcome, houtcome, hexact.2.2⟩
    · intro h
      obtain ⟨hargs, outcome, houtcome, hloop⟩ := h c rfl
      exact ⟨.handled c (argsText command.chars) outcome, by rw [houtcome, Option.map_some],
        hlookup, hargs, hloop⟩

/-! ### Words that are counted -/

section Loop

variable {m : Allocations} {buffer : List UInt8} {args : ℕ} {t : ZString} {numbers : List ℕ}

theorem countArguments_strings (ws : List Text) (argc : ℕ) :
    countArguments (ws.map .string ++ [.null]) argc = some (argc + ws.length) := by
  induction ws generalizing argc with
  | nil => rfl
  | cons w ws ih =>
    rw [List.map_cons, List.cons_append, countArguments, ih, List.length_cons, Nat.add_assoc,
      Nat.add_comm 1]
    exact Pointer.noConfusion

/-- What a handler does with the words of its text. -/
def wordsRun (handle : ℕ → List Pointer → Option Outcome) (ws : List Text) : Option Outcome :=
  handle ws.length (ws.map .string ++ [.null])

/-- The handler reports the arguments that it was given. -/
def Reports (handle : ℕ → List Pointer → Option Outcome) : Prop :=
  ∀ argc arg outcome, handle argc arg = some outcome →
    ∃ loop, outcome.loop = some loop ∧ loop.argc = argc ∧ loop.arguments = arg.take argc

theorem withArguments_exact_iff {handle : ℕ → List Pointer → Option Outcome} {empty : Effect}
    (hargs : zstring buffer args = some t) (hrefuses : 0 ∉ numbers → empty.refuses = true)
    (hhandle : Reports handle) :
    HandlerExact numbers t.chars (withArguments m buffer args empty handle) ↔
      t.chars = [] ∨ SplitsWords m t space ∧ words space t.chars ≠ [] ∧
        HandlerExact numbers t.chars (wordsRun handle (words space t.chars)) := by
  have hrun : withArguments m buffer args empty handle = if t.chars = [] then some ⟨empty, none⟩
      else (strSplit m t space).bind fun arg => arg.bind fun arg =>
        (countArguments (arg.drop 1) 1).bind fun argc => handle argc arg := by
    rw [withArguments, hargs, Option.bind_some]
  rw [hrun]
  by_cases hempty : t.chars = []
  · rw [if_pos hempty]
    refine iff_of_true ⟨_, rfl, outcomeExact_none_iff.mpr ?_⟩ (Or.inl hempty)
    rwa [hempty]
  rw [if_neg hempty, or_iff_right hempty]
  -- with the exact words the count is their number
  have hcount : ∀ arg, arg = (words space t.chars).map .string ++ [.null] →
      words space t.chars ≠ [] →
      (countArguments (arg.drop 1) 1).bind (fun argc => handle argc arg) =
        wordsRun handle (words space t.chars) := by
    rintro arg rfl hwords
    obtain ⟨w, ws, hws⟩ := List.exists_cons_of_ne_nil hwords
    rw [hws, List.map_cons, List.cons_append, List.drop_one, List.tail_cons,
      countArguments_strings, Option.bind_some, Nat.add_comm]
    rfl
  constructor
  · rintro ⟨outcome, houtcome, hexact⟩
    obtain ⟨split, hsplit, houtcome⟩ := Option.bind_eq_some_iff.mp houtcome
    obtain ⟨arg, rfl, houtcome⟩ := Option.bind_eq_some_iff.mp houtcome
    rw [Option.bind_some] at houtcome
    have hsplittable := splittable_of_strSplit hsplit
    rw [strSplit_eq hsplittable, Option.some_inj, Option.some_inj] at hsplit
    obtain ⟨argc, hargc, hhandled⟩ := Option.bind_eq_some_iff.mp houtcome
    obtain ⟨loop, hloop, rfl, harguments⟩ := hhandle _ _ _ hhandled
    have hentries : entries m 0 (words space t.chars) = (words space t.chars).map .string := by
      have hlength : (entries m 0 (words space t.chars)).length = loop.argc := by
        rw [hexact.argc loop hloop, entries, List.length_mapIdx]
      rw [← hexact.arguments loop hloop, harguments, ← hsplit, List.take_left' hlength]
    have hwords : words space t.chars ≠ [] := by
      intro hnil
      rw [← hsplit, hnil] at hargc
      cases hargc
    refine ⟨splitsWords_iff.mpr ⟨hsplittable, hentries⟩, hwords, outcome, ?_, hexact⟩
    rw [← hcount arg (by rw [← hsplit, hentries]) hwords, hargc, Option.bind_some, hhandled]
  · rintro ⟨hsplits, hwords, hexact⟩
    rw [hsplits.strSplit_eq, Option.bind_some, Option.bind_some, hcount _ rfl hwords]
    exact hexact

theorem argument_string {ws : List Text} {i : ℕ} (h : i < ws.length) :
    argument (ws.map .string ++ [.null]) i = some ws[i] := by
  rw [argument, List.getElem?_append_left (by rwa [List.length_map]), List.getElem?_map,
    List.getElem?_eq_getElem h]
  rfl

/-- The first arguments are strings, where there are as many words. -/
theorem mapM_argument {ws : List Text} {n : ℕ} (h : n ≤ ws.length) :
    ∃ texts, (List.range n).mapM (argument (ws.map .string ++ [.null])) = some texts := by
  have hall : ∀ is : List ℕ, (∀ i ∈ is, i < ws.length) →
      ∃ texts, is.mapM (argument (ws.map .string ++ [.null])) = some texts := by
    intro is his
    induction is with
    | nil => exact ⟨[], rfl⟩
    | cons i is ih =>
      rw [List.forall_mem_cons] at his
      obtain ⟨texts, htexts⟩ := ih his.2
      have hi := his.1
      exact ⟨ws[i] :: texts, by rw [List.mapM_cons, argument_string hi, htexts]; rfl⟩
  exact hall _ fun i hi => (List.mem_range.mp hi).trans_le h

theorem take_strings (ws : List Text) :
    (ws.map Pointer.string ++ [Pointer.null]).take ws.length = ws.map .string :=
  List.take_left' (List.length_map _)

/-! ### The handlers that count their arguments -/

/-- A loop that finds the words, and reads none of them where their number is refused. -/
theorem outcomeExact_loop {s : Text} {effect : Effect} {read : List ℕ}
    (hrefused : (words space s).length ∉ numbers → effect.refuses = true)
    (hunread : (words space s).length ∉ numbers → read = []) :
    OutcomeExact numbers s ⟨effect, some ⟨(words space s).length,
      ((words space s).map Pointer.string ++ [Pointer.null]).take (words space s).length,
      read⟩⟩ where
  argc loop hloop := by
    cases hloop
    rfl
  arguments loop hloop := by
    cases hloop
    exact take_strings _
  refused := hrefused
  unread hnumber loop hloop := by
    cases hloop
    exact hunread hnumber

theorem exactArguments_exact_iff {n : ℕ} {empty wrong : String} {effect : List Text → Effect}
    (hargs : zstring buffer args = some t) :
    HandlerExact [n] t.chars (exactArguments m buffer args n empty wrong effect) ↔
      t.chars = [] ∨ SplitsWords m t space ∧ words space t.chars ≠ [] := by
  rw [exactArguments, withArguments_exact_iff hargs fun _ => rfl]
  · refine or_congr_right (and_congr_right fun _ => and_iff_left ?_)
    rw [wordsRun]
    by_cases hn : (words space t.chars).length = n
    · obtain ⟨texts, htexts⟩ := mapM_argument hn.ge
      rw [if_neg (by simpa using hn), htexts]
      have hnumber : (words space t.chars).length ∈ [n] := List.mem_singleton.mpr hn
      exact ⟨_, rfl, outcomeExact_loop (absurd hnumber) (absurd hnumber)⟩
    · rw [if_pos hn]
      exact ⟨_, rfl, outcomeExact_loop (fun _ => rfl) fun _ => rfl⟩
  · intro argc arg outcome h
    simp only at h
    split at h
    · obtain rfl := Option.some_inj.mp h
      exact ⟨_, rfl, rfl, rfl⟩
    · obtain ⟨texts, -, rfl⟩ := Option.map_eq_some_iff.mp h
      exact ⟨_, rfl, rfl, rfl⟩

/-- The camera's coordinates are read, and then their number may be refused. -/
theorem adminCmdChangeCamera_exact_iff {atof : Text → UInt32}
    (hargs : zstring buffer args = some t) :
    HandlerExact [0, 3, 5] t.chars (adminCmdChangeCamera atof m buffer args) ↔
      t.chars = [] ∨ SplitsWords m t space ∧ words space t.chars ≠ [] ∧
        ((words space t.chars).length < 4 ∨ (words space t.chars).length = 5) := by
  rw [adminCmdChangeCamera, withArguments_exact_iff hargs fun h => absurd (by decide) h]
  · refine or_congr_right (and_congr_right fun _ => and_congr_right fun hwords => ?_)
    have hpositive := List.length_pos_iff.mpr hwords
    rw [wordsRun]
    obtain ⟨pos, hpos⟩ : ∃ pos, (List.range (if 3 ≤ (words space t.chars).length then 3
        else 0)).mapM (argument ((words space t.chars).map .string ++ [.null])) = some pos :=
      mapM_argument (by split <;> omega)
    rw [hpos, Option.bind_some]
    simp only
    split
    case isTrue h3 =>
      have hnumber : (words space t.chars).length ∈ [0, 3, 5] := by simp [h3]
      refine iff_of_true ⟨_, rfl, outcomeExact_loop (absurd hnumber) (absurd hnumber)⟩ ?_
      omega
    case isFalse h3 =>
      split
      case isTrue h5 =>
        have hnumber : (words space t.chars).length ∈ [0, 3, 5] := by simp [h5]
        rw [argument_string (by omega), argument_string (by omega)]
        refine iff_of_true ⟨_, rfl, outcomeExact_loop (absurd hnumber) (absurd hnumber)⟩ ?_
        omega
      case isFalse h5 =>
        have hnumber : (words space t.chars).length ∉ [0, 3, 5] := by
          simp only [List.mem_cons, List.not_mem_nil, or_false]
          omega
        constructor
        · rintro ⟨outcome, houtcome, hexact⟩
          obtain rfl := Option.some_inj.mp houtcome
          have hread := hexact.unread hnumber _ rfl
          simp only at hread
          split at hread
          · cases hread
          · omega
        · intro hfew
          refine ⟨_, rfl, outcomeExact_loop (fun _ => rfl) fun _ => ?_⟩
          rw [if_neg (by omega)]
          rfl
  · intro argc arg outcome h
    obtain ⟨pos, -, h⟩ := Option.bind_eq_some_iff.mp h
    simp only at h
    split at h
    · obtain rfl := Option.some_inj.mp h
      exact ⟨_, rfl, rfl, rfl⟩
    · split at h
      · obtain ⟨fspd, -, h⟩ := Option.bind_eq_some_iff.mp h
        obtain ⟨ispd, -, rfl⟩ := Option.map_eq_some_iff.mp h
        exact ⟨_, rfl, rfl, rfl⟩
      · obtain rfl := Option.some_inj.mp h
        exact ⟨_, rfl, rfl, rfl⟩

end Loop

/-! ### The handlers that read numbers -/

section Numbers

variable {s : Text}

theorem mem_splitSign {c : UInt8} (h : c ∈ (splitSign s).2) : c ∈ s := by
  unfold splitSign at h
  split at h
  · exact List.mem_cons_of_mem _ h
  · exact List.mem_cons_of_mem _ h
  · exact h

theorem numberLength_eq_zero (h : ∀ c ∈ s, 10 ≤ digitValue c) : numberLength s = 0 := by
  have hdigits : (splitSign (s.dropWhile isspace)).2.takeWhile (digitValue · < 10) = [] := by
    rw [List.takeWhile_eq_nil_iff]
    intro hpos hfirst
    have hmem := (List.dropWhile_suffix _).subset (mem_splitSign (List.get_mem _ ⟨0, hpos⟩))
    exact absurd (of_decide_eq_true hfirst) (Nat.not_lt.mpr (h _ hmem))
  rw [numberLength]
  exact if_pos hdigits

theorem isSome_twoNumbers_iff {args : ℕ} {t : ZString}
    (hargs : zstring (tokenized s) args = some t) : (twoNumbers (tokenized s) args).isSome ↔
      args + numberLength t.chars + 1 ≤ s.length := by
  rw [twoNumbers, strtolAt, hargs, Option.map_some, Option.bind_some, Option.isSome_map, strtolAt,
    Option.isSome_map, isSome_zstring_iff]

/-- The first number ends in front of the last terminator. -/
theorem isSome_twoNumbers_args_iff {t : ZString} (hword : ∀ c ∈ firstWord s, 10 ≤ digitValue c)
    (hargs : zstring (tokenized s) ((firstWord s).length + 1) = some t)
    (hfollow : argsText s = some (following s)) (ht : t.chars = following s) :
    (twoNumbers (tokenized s) ((firstWord s).length + 1)).isSome ↔
      behindWord s ≠ [] ∧ (leading s = 0 → numberLength (following s) < (following s).length) := by
  have hlength := length_front (s := s)
  have htotal := congrArg List.length (front_append_behindWord (s := s))
  rw [List.length_append] at htotal
  rw [isSome_twoNumbers_iff hargs, ht]
  rw [argsText_eq_following_iff] at hfollow
  by_cases hleading : leading s = 0
  · rw [if_pos hleading] at hfollow
    have hbehind := congrArg List.length (behindWord_eq hfollow)
    rw [List.length_cons] at hbehind
    simp only [hfollow, hleading, ne_eq, not_false_eq_true, true_and, forall_const]
    omega
  · rw [if_neg hleading] at hfollow
    simp only [hleading, false_implies, and_true]
    -- a piece of the command's name has no digits
    have hnumber : numberLength (following s) = 0 := by
      apply numberLength_eq_zero
      intro c hc
      rw [← hfollow] at hc
      rcases List.mem_append.mp (List.mem_of_mem_drop hc) with hspace | hname
      · have hc := List.mem_takeWhile_imp hspace
        rw [eq_of_beq hc]
        decide
      · exact hword c hname
    rw [hnumber]
    by_cases hnil : behindWord s = []
    · have hempty := congrArg List.length hfollow
      rw [following, hnil, List.length_drop] at hempty
      rw [hnil, List.length_nil] at htotal
      simp only [hnil, ne_eq, not_true_eq_false, iff_false]
      simp only [List.drop_nil, List.length_nil] at hempty
      omega
    · have hpos := List.length_pos_iff.mpr hnil
      simp only [hnil, ne_eq, not_false_eq_true, iff_true]
      omega

end Numbers

/-! ### All commands -/

/-- The text that follows the first word is a string. -/
def followingString (command : ZString) : ZString :=
  ⟨following command.chars, zero_notMem_following command⟩

/-- What a handler needs to read its text exactly. Those that count words need a separator among
them, memory for them, and at least one word, and for the camera a number of words that is not
refused after they have been read. The others refuse no number of words, so they need the right
one; and there must be a character behind the first of two numbers. -/
def Readable (m : Allocations) (command : ZString) : AdminCommand → Prop
  | .spawnPc => words space (following command.chars) = []
  | .test => words space (following command.chars) = []
  | .where_ => words space (following command.chars) = []
  | .setSpeed => (words space (following command.chars)).length = 1
  | .addItem => (words space (following command.chars)).length = 2 ∧ (leading command.chars = 0 →
      numberLength (following command.chars) < (following command.chars).length)
  | .addSkill => (words space (following command.chars)).length = 2 ∧ (leading command.chars = 0 →
      numberLength (following command.chars) < (following command.chars).length)
  | .changeCamera => following command.chars = [] ∨ SplitsWords m (followingString command) space ∧
      words space (following command.chars) ≠ [] ∧
      ((words space (following command.chars)).length < 4 ∨
        (words space (following command.chars)).length = 5)
  | _ => following command.chars = [] ∨ SplitsWords m (followingString command) space ∧
      words space (following command.chars) ≠ []

/-- Words that follow stand behind a separator. -/
theorem behindWord_ne_nil {s : Text} (h : words space (following s) ≠ []) : behindWord s ≠ [] := by
  intro hnil
  rw [following, hnil] at h
  exact h rfl

theorem mem_of_lookup {w : Text} {c : AdminCommand} (h : adminCommands.lookup w = some c) :
    (w, c) ∈ adminCommands := by
  obtain ⟨l, l', hl, -⟩ := List.lookup_eq_some_iff.mp h
  rw [hl]
  exact List.mem_append_right _ List.mem_cons_self

/-- There are no digits in the names of commands. -/
theorem digits_of_lookup {w : Text} {c : AdminCommand} (h : adminCommands.lookup w = some c) :
    ∀ x ∈ w, 10 ≤ digitValue x := by
  have hall : ∀ p ∈ adminCommands, ∀ x ∈ p.1, 10 ≤ digitValue x := by decide +kernel
  exact hall _ (mem_of_lookup h)

theorem handler_exact_iff {atof : Text → UInt32} {m : Allocations} {command : ZString}
    {c : AdminCommand} (hname : adminCommands.lookup (firstWord command.chars) = some c)
    (hfollow : argsText command.chars = some (following command.chars)) :
    HandlerExact (arities c) (following command.chars) (handler atof m (tokenized command.chars)
      ((firstWord command.chars).length + 1) c) ↔ Readable m command c := by
  have hstring := zstring_args command
  rw [hfollow] at hstring
  obtain ⟨t, hargs, ht⟩ := Option.map_eq_some_iff.mp hstring
  have hnumbers := isSome_twoNumbers_args_iff (digits_of_lookup hname) hargs hfollow ht
  obtain rfl : t = followingString command := by
    cases t
    simp only at ht
    subst ht
    rfl
  have hnone : ∀ effect : Effect, effect.refuses = false →
      (HandlerExact [0] (following command.chars) (some ⟨effect, none⟩) ↔
        words space (following command.chars) = []) := by
    intro effect heffect
    rw [handlerExact_some_iff heffect, List.mem_singleton, List.length_eq_zero_iff]
  have htwo : ((twoNumbers (tokenized command.chars)
        ((firstWord command.chars).length + 1)).isSome ∧
        (words space (following command.chars)).length ∈ [2]) ↔
      (words space (following command.chars)).length = 2 ∧ (leading command.chars = 0 →
        numberLength (following command.chars) < (following command.chars).length) := by
    rw [hnumbers, List.mem_singleton, and_comm, and_congr_right_iff]
    intro hlength
    apply and_iff_right
    apply behindWord_ne_nil
    intro hnil
    rw [hnil] at hlength
    cases hlength
  cases c with
  | spawnPc => exact hnone _ rfl
  | test => exact hnone _ rfl
  | where_ => exact hnone _ rfl
  | setSpeed =>
    rw [handler, adminCmdSetSpeed, strtolAt, hargs]
    exact (handlerExact_some_iff rfl).trans List.mem_singleton
  | addItem => exact (handlerExact_map_iff fun _ => rfl).trans htwo
  | addSkill => exact (handlerExact_map_iff fun _ => rfl).trans htwo
  | jump => exact exactArguments_exact_iff hargs
  | setStamina => exact exactArguments_exact_iff hargs
  | setSP => exact exactArguments_exact_iff hargs
  | setLevel => exact exactArguments_exact_iff hargs
  | setJobPoints => exact exactArguments_exact_iff hargs
  | changeCamera => exact adminCmdChangeCamera_exact_iff hargs

theorem readable_of_processesExactly {atof : Text → UInt32} {m : Allocations} {command : ZString}
    {c : AdminCommand} (h : ProcessesExactly atof m command)
    (hname : adminCommands.lookup (firstWord command.chars) = some c) :
    argsText command.chars = some (following command.chars) ∧ Readable m command c := by
  obtain ⟨hfollow, hexact⟩ := processesExactly_iff.mp h c hname
  exact ⟨hfollow, (handler_exact_iff hname hfollow).mp hexact⟩

/-- A command is read exactly when its name is no command's, or the name is in front and followed
by a space (or what is behind the spaces in front happens to be the text that follows), and its
handler can read that text. -/
theorem adminCmdProcess_exact_iff (atof : Text → UInt32) (m : Allocations) (command : ZString) :
    ProcessesExactly atof m command ↔
      ∀ c, adminCommands.lookup (firstWord command.chars) = some c →
        (if leading command.chars = 0 then behindWord command.chars ≠ []
          else (front command.chars).drop ((firstWord command.chars).length + 1) =
            following command.chars) ∧ Readable m command c := by
  rw [processesExactly_iff]
  apply forall_congr'
  intro c
  apply imp_congr_right
  intro hname
  rw [← argsText_eq_following_iff]
  exact and_congr_right fun hfollow => handler_exact_iff hname hfollow

/-- No request for memory fails. -/
def noFailures : Allocations := ⟨fun _ => true, fun _ => 0⟩

/-- A jump with leading spaces, a command without arguments, an item without an amount or with
three numbers, a single argument, and a camera with four. -/
theorem commands_misread :
    ¬ ProcessesExactly (fun _ => 0) noFailures ⟨text "  jump 1 2 3", by decide⟩ ∧
    ¬ ProcessesExactly (fun _ => 0) noFailures ⟨text "jump", by decide⟩ ∧
    ¬ ProcessesExactly (fun _ => 0) noFailures ⟨text "additem 1", by decide⟩ ∧
    ¬ ProcessesExactly (fun _ => 0) noFailures ⟨text "additem 1 2 3", by decide⟩ ∧
    ¬ ProcessesExactly (fun _ => 0) noFailures ⟨text "setLevel 9", by decide⟩ ∧
    ¬ ProcessesExactly (fun _ => 0) noFailures ⟨text "changeCamera 1 2 3 4", by decide⟩ := by
  refine ⟨fun h => ?_, fun h => ?_, fun h => ?_, fun h => ?_, fun h => ?_, fun h => ?_⟩
  · have hargs := (readable_of_processesExactly (c := .jump) h (by decide)).1
    exact absurd hargs (by decide +kernel)
  · have hargs := (readable_of_processesExactly (c := .jump) h (by decide)).1
    exact absurd hargs (by decide +kernel)
  · have hreadable := (readable_of_processesExactly (c := .addItem) h (by decide)).2
    exact absurd hreadable.1 (by decide +kernel)
  · have hreadable := (readable_of_processesExactly (c := .addItem) h (by decide)).2
    exact absurd hreadable.1 (by decide +kernel)
  · have hreadable := (readable_of_processesExactly (c := .setLevel) h (by decide)).2
    rcases hreadable with hnil | ⟨hsplits, -⟩
    · exact absurd hnil (by decide +kernel)
    · exact absurd hsplits.1 (by decide +kernel)
  · have hreadable := (readable_of_processesExactly (c := .changeCamera) h (by decide)).2
    rcases hreadable with hnil | ⟨-, -, hnumber⟩
    · exact absurd hnil (by decide +kernel)
    · exact absurd hnumber (by decide +kernel)

/-! ### The chat's commands -/

/-- The texts that the chat takes for commands are those with a handler. -/
theorem isAdminCommand_iff (s : Text) :
    Handler.isAdminCommand s ↔ ∃ c, adminCommands.lookup (firstWord s) = some c := by
  have hname : Handler.commandName s = firstWord s := by
    rw [Handler.commandName, firstWord, firstPiece]
    congr 1
    funext c
    by_cases hc : c = 0x20 <;> simp [hc, space]
  have htable : Handler.adminCommands.map (fun name => name.toList.map fun c =>
      UInt8.ofNat c.toNat) = adminCommands.map Prod.fst := by
    decide +kernel
  have hlookup : ∀ (w : Text) (table : List (Text × AdminCommand)),
      (∃ c, table.lookup w = some c) ↔ w ∈ table.map Prod.fst := by
    intro w table
    induction table with
    | nil => simp
    | cons p table ih =>
      rw [List.lookup_cons, List.map_cons, List.mem_cons, ← ih]
      by_cases hp : w = p.1
      · simp [hp]
      · rw [beq_false_of_ne hp]
        simp [hp]
  rw [hlookup, ← htable, List.mem_map, Handler.isAdminCommand, List.any_eq_true, hname]
  simp only [decide_eq_true_eq]

end R1Emu.AdminCmd
