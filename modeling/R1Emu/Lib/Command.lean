import R1Emu.Lib.CFormat

/-!
# Commands that are texts

A command is the texts of its arguments with a space between them. Taking it apart again, at
the spaces, gives the arguments as long as they are plain: a percent sign stands for itself
when it is doubled or the last character, and otherwise for an argument that nobody passes;
an argument with a space is several, and an empty one is none.
-/
namespace R1Emu.Lib.Command
open R1Emu.Lib.CFormat

def join (ts : List Text) : Text := [32].intercalate ts

/-- The argument collected so far, if it has any characters. -/
def word (s : Text) : List Text := if s = [] then [] else [s]

/-- The arguments in a text, behind what has been collected of the first one. -/
def splitFrom : Text → Text → Option (List Text)
  | [], collected => some (word collected)
  | [c], collected => some (if c = 32 then word collected else [collected ++ [c]])
  | c :: d :: s, collected =>
    if c = 37 then if d = 37 then splitFrom s (collected ++ [37]) else none
    else if c = 32 then (splitFrom (d :: s) []).map (word collected ++ ·)
    else splitFrom (d :: s) (collected ++ [c])

def arguments (s : Text) : Option (List Text) := splitFrom s []

/-- What becomes of a text that is followed by a space. -/
def unescape : Text → Option Text
  | [] => some []
  | [c] => if c = 37 then none else some [c]
  | c :: d :: s =>
    if c = 37 then if d = 37 then (unescape s).map (37 :: ·) else none
    else (unescape (d :: s)).map (c :: ·)

/-- A text that is sent as one argument, which is the text itself. -/
def Unbroken (s : Text) : Prop := Plain s ∧ s ≠ []

instance (s : Text) : Decidable (Unbroken s) := inferInstanceAs (Decidable (_ ∧ _))

/-! ### Arguments have no spaces -/

theorem mem_word {s t : Text} (h : t ∈ word s) : t = s := by
  rw [word] at h
  split at h
  · cases h
  · exact List.mem_singleton.mp h

theorem splitFrom_spaceless {s collected : Text} {args : List Text} (hcollected : 32 ∉ collected)
    (h : splitFrom s collected = some args) : ∀ arg ∈ args, 32 ∉ arg := by
  fun_induction splitFrom s collected generalizing args with
  | case1 collected =>
    cases h
    intro arg harg
    rwa [mem_word harg]
  | case2 c collected =>
    cases h
    intro arg harg
    split at harg
    next => rwa [mem_word harg]
    next hc =>
      rw [List.mem_singleton.mp harg]
      simp [hcollected, Ne.symm hc]
  | case3 collected s ih => exact ih (by simp [hcollected]) h
  | case4 => cases h
  | case5 d s collected hne ih =>
    obtain ⟨rest, hrest, rfl⟩ := Option.map_eq_some_iff.mp h
    intro arg harg
    rcases List.mem_append.mp harg with harg | harg
    · rwa [mem_word harg]
    · exact ih List.not_mem_nil hrest arg harg
  | case6 c d s collected hpercent hspace ih => exact ih (by simp [hcollected, Ne.symm hspace]) h

theorem arguments_spaceless {s : Text} {args : List Text} (h : arguments s = some args) :
    ∀ arg ∈ args, 32 ∉ arg := splitFrom_spaceless List.not_mem_nil h

/-! ### Doubled percent signs -/

theorem unescape_plain {s : Text} (h : 37 ∉ s) : unescape s = some s := by
  fun_induction unescape s with
  | case1 => rfl
  | case2 => exact absurd List.mem_cons_self h
  | case3 => rfl
  | case4 => exact absurd List.mem_cons_self h
  | case5 => exact absurd List.mem_cons_self h
  | case6 c d s hc ih => rw [ih fun hmem => h (List.mem_cons_of_mem _ hmem), Option.map_some]

/-- A text with a percent sign gets shorter. -/
theorem unescape_shorter {s t : Text} (h : unescape s = some t) :
    t.length ≤ s.length ∧ (37 ∈ s → t.length < s.length) := by
  fun_induction unescape s generalizing t with
  | case1 =>
    cases h
    exact ⟨le_rfl, fun hmem => absurd hmem List.not_mem_nil⟩
  | case2 => cases h
  | case3 c hc =>
    cases h
    exact ⟨le_rfl, fun hmem => absurd (List.mem_singleton.mp hmem).symm hc⟩
  | case4 s ih =>
    obtain ⟨u, hu, rfl⟩ := Option.map_eq_some_iff.mp h
    have hle := (ih hu).1
    simp only [List.length_cons]
    exact ⟨by omega, fun _ => by omega⟩
  | case5 => cases h
  | case6 c d s hc ih =>
    obtain ⟨u, hu, rfl⟩ := Option.map_eq_some_iff.mp h
    obtain ⟨hle, hlt⟩ := ih hu
    refine ⟨Nat.succ_le_succ hle, fun hmem => Nat.succ_lt_succ (hlt ?_)⟩
    exact (List.mem_cons.mp hmem).resolve_left (Ne.symm hc)

/-! ### Taking a command apart -/

/-- An argument ends at the space behind it. -/
theorem splitFrom_token {s : Text} (h : 32 ∉ s) (rest collected : Text) :
    splitFrom (s ++ 32 :: rest) collected = (unescape s).bind fun t =>
      (splitFrom rest []).map (word (collected ++ t) ++ ·) := by
  fun_induction unescape s generalizing collected with
  | case1 =>
    rw [Option.bind_some, List.append_nil]
    cases rest with
    | nil => simp [splitFrom, word]
    | cons c rest => rw [List.nil_append, splitFrom, if_neg (by decide), if_pos rfl]
  | case2 => rfl
  | case3 c hc =>
    have hspace : c ≠ 32 := fun he => h (by simp [he])
    rw [List.singleton_append, splitFrom, if_neg hc, if_neg hspace, Option.bind_some]
    cases rest with
    | nil => simp [splitFrom, word]
    | cons d rest => rw [splitFrom, if_neg (by decide), if_pos rfl]
  | case4 s ih =>
    have hs : 32 ∉ s := fun hmem => h (by simp [hmem])
    rw [List.cons_append, List.cons_append, splitFrom, if_pos rfl, if_pos rfl, ih hs,
      Option.bind_map]
    simp only [Function.comp_def, List.append_assoc, List.singleton_append]
  | case5 d s hd =>
    rw [List.cons_append, List.cons_append, splitFrom, if_pos rfl, if_neg hd]
    rfl
  | case6 c d s hc ih =>
    have hs : 32 ∉ d :: s := fun hmem => h (List.mem_cons_of_mem _ hmem)
    have hspace : c ≠ 32 := fun he => h (by simp [he])
    rw [List.cons_append, List.cons_append, splitFrom, if_neg hc, if_neg hspace,
      ← List.cons_append, ih hs, Option.bind_map]
    simp only [Function.comp_def, List.append_assoc, List.singleton_append]

/-- The last argument ends with the command. -/
theorem splitFrom_last {s : Text} (h : Plain s) (collected : Text) :
    splitFrom s collected = some (word (collected ++ s)) := by
  induction s generalizing collected with
  | nil => rw [splitFrom, List.append_nil]
  | cons c s ih =>
    obtain ⟨⟨hspace, hpercent⟩, hs⟩ := List.forall_mem_cons.mp h
    cases s with
    | nil => simp [splitFrom, hspace, word]
    | cons d s =>
      rw [splitFrom, if_neg hpercent, if_neg hspace, ih hs, List.append_assoc]
      rfl

theorem join_cons (t : Text) (ts : List Text) : join (t :: ts) = t ++ ts.flatMap (32 :: ·) := by
  induction ts generalizing t with
  | nil => simp [join]
  | cons u ts ih =>
    rw [join, List.intercalate_cons_cons, ← join, ih]
    simp

theorem join_concat (t : Text) (ts : List Text) (last : Text) :
    join (t :: (ts ++ [last])) = t ++ 32 :: join (ts ++ [last]) := by
  cases ts <;> simp [join_cons]

theorem mapM_cons_eq {t : Text} {ts : List Text} :
    (t :: ts).mapM unescape = (unescape t).bind fun u => (ts.mapM unescape).map (u :: ·) := by
  rw [List.mapM_cons]
  cases unescape t with
  | none => rfl
  | some u => cases ts.mapM unescape <;> rfl

theorem forall₂_of_mapM {ts us : List Text} (h : ts.mapM unescape = some us) :
    List.Forall₂ (fun t u => unescape t = some u) ts us := by
  induction ts generalizing us with
  | nil =>
    cases h
    exact .nil
  | cons t ts ih =>
    rw [mapM_cons_eq] at h
    obtain ⟨u, hu, h⟩ := Option.bind_eq_some_iff.mp h
    obtain ⟨us, hus, rfl⟩ := Option.map_eq_some_iff.mp h
    exact .cons hu (ih hus)

theorem mapM_unescape_plain {ts : List Text} (h : ∀ t ∈ ts, 37 ∉ t) :
    ts.mapM unescape = some ts := by
  induction ts with
  | nil => rfl
  | cons t ts ih =>
    rw [List.forall_mem_cons] at h
    rw [mapM_cons_eq, unescape_plain h.1, Option.bind_some, ih h.2, Option.map_some]

/-- The arguments of a command are those it was made of, without the empty ones. -/
theorem arguments_join {ts : List Text} {last : Text} (hts : ∀ t ∈ ts, 32 ∉ t)
    (hlast : Plain last) : arguments (join (ts ++ [last])) =
      ((ts ++ [last]).mapM unescape).map fun us => us.filter (· ≠ []) := by
  have hword : ∀ (u : Text) (us : List Text),
      word u ++ us.filter (· ≠ []) = (u :: us).filter (· ≠ []) := by
    intro u us
    by_cases hu : u = [] <;> simp [word, hu]
  rw [arguments]
  induction ts with
  | nil =>
    have hpercent : 37 ∉ last := fun hmem => (hlast 37 hmem).2 rfl
    rw [List.nil_append, join_cons, List.flatMap_nil, List.append_nil, splitFrom_last hlast,
      mapM_cons_eq, unescape_plain hpercent]
    simpa using hword last []
  | cons t ts ih =>
    rw [List.forall_mem_cons] at hts
    rw [List.cons_append, join_concat, splitFrom_token hts.1, ih hts.2, mapM_cons_eq]
    cases unescape t with
    | none => rfl
    | some u =>
      cases (ts ++ [last]).mapM unescape with
      | none => rfl
      | some us => exact congrArg some (hword u us)

/-- Unbroken arguments are sent as they are. -/
theorem arguments_join_unbroken {ts : List Text} (hts : ∀ t ∈ ts, Unbroken t) :
    arguments (join ts) = some ts := by
  rcases List.eq_nil_or_concat' ts with rfl | ⟨ts, last, rfl⟩
  · rfl
  have hplain : ∀ t ∈ ts ++ [last], 32 ∉ t ∧ 37 ∉ t := fun t ht =>
    ⟨fun hmem => ((hts t ht).1 32 hmem).1 rfl, fun hmem => ((hts t ht).1 37 hmem).2 rfl⟩
  have hfilter : (ts ++ [last]).filter (· ≠ []) = ts ++ [last] :=
    List.filter_eq_self.mpr fun t ht => decide_eq_true (hts t ht).2
  rw [arguments_join (fun t ht => (hplain t (List.mem_append_left _ ht)).1)
    (hts last (by simp)).1, mapM_unescape_plain fun t ht => (hplain t ht).2, Option.map_some, hfilter]

/-- Arguments that are sent as they are are unbroken. -/
theorem unbroken_of_arguments_join {ts : List Text} {last : Text} (hlast : Plain last)
    (h : arguments (join (ts ++ [last])) = some (ts ++ [last])) :
    ∀ t ∈ ts ++ [last], Unbroken t := by
  have hspaceless := arguments_spaceless h
  rw [arguments_join (fun t ht => hspaceless t (List.mem_append_left _ ht)) hlast] at h
  obtain ⟨us, hus, hfilter⟩ := Option.map_eq_some_iff.mp h
  have hunescape := forall₂_of_mapM hus
  -- as many arguments as before, so none of them was empty
  have hlength : (us.filter (· ≠ [])).length = us.length := by
    rw [hfilter, hunescape.length_eq]
  have hnonempty := List.length_filter_eq_length_iff.mp hlength
  rw [List.filter_eq_self.mpr hnonempty] at hfilter
  rw [hfilter] at hunescape hnonempty
  intro t ht
  have hsame := List.forall₂_same.mp hunescape t ht
  refine ⟨fun c hc => ⟨?_, ?_⟩, of_decide_eq_true (hnonempty t ht)⟩
  · rintro rfl
    exact hspaceless t ht hc
  · rintro rfl
    exact Nat.lt_irrefl _ ((unescape_shorter hsame).2 hc)

end R1Emu.Lib.Command
