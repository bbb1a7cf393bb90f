import Mathlib.Logic.Function.Basic
import Mathlib.Data.List.Basic

/-!
# Maps that answer requests

A map from keys to values is updated, queried and shrunk with several keys at once, one after
the other, so that a repeated key counts with its last value. A run of requests has an
answer for each of them.
-/
namespace R1Emu.Lib.KeyValue

abbrev Map (K V : Type*) := K → Option V

inductive Request (K V : Type*)
  | update (objects : List (K × V))
  | get (keys : List K)
  | remove (keys : List K)

variable {K V : Type*} [DecidableEq K]

namespace Map

def empty : Map K V := fun _ => none

def insertAll (m : Map K V) (objects : List (K × V)) : Map K V :=
  objects.foldl (fun m object => Function.update m object.1 (some object.2)) m

def eraseAll (m : Map K V) (keys : List K) : Map K V :=
  keys.foldl (fun m key => Function.update m key none) m

omit [DecidableEq K] in
/-- The values of all the keys, or nothing when one of them has none. -/
def getAll (m : Map K V) (keys : List K) : Option (List (K × V)) :=
  keys.mapM fun key => (m key).map (key, ·)

def step (m : Map K V) : Request K V → Map K V
  | .update objects => m.insertAll objects
  | .get _ => m
  | .remove keys => m.eraseAll keys

@[simp] theorem insertAll_nil (m : Map K V) : m.insertAll [] = m := rfl

@[simp] theorem insertAll_cons (m : Map K V) (object : K × V) (objects : List (K × V)) :
    m.insertAll (object :: objects) =
      insertAll (Function.update m object.1 (some object.2)) objects := rfl

theorem insertAll_append (m : Map K V) (objects others : List (K × V)) :
    m.insertAll (objects ++ others) = (m.insertAll objects).insertAll others :=
  List.foldl_append

theorem insertAll_of_notMem (m : Map K V) {objects : List (K × V)} {key : K}
    (h : key ∉ objects.map Prod.fst) : m.insertAll objects key = m key := by
  induction objects generalizing m with
  | nil => rfl
  | cons object objects ih =>
    rw [List.map_cons, List.mem_cons, not_or] at h
    rw [insertAll_cons, ih _ h.2, Function.update_of_ne h.1]

/-- Where no key is repeated, each has the value it was inserted with. -/
theorem insertAll_of_mem (m : Map K V) {objects : List (K × V)}
    (hkeys : (objects.map Prod.fst).Nodup) {object : K × V} (h : object ∈ objects) :
    m.insertAll objects object.1 = some object.2 := by
  induction objects generalizing m with
  | nil => cases h
  | cons first objects ih =>
    rw [List.map_cons, List.nodup_cons] at hkeys
    rw [insertAll_cons]
    rcases List.mem_cons.mp h with rfl | h
    · rw [insertAll_of_notMem _ hkeys.1, Function.update_self]
    · exact ih _ hkeys.2 h

@[simp] theorem eraseAll_nil (m : Map K V) : m.eraseAll [] = m := rfl

@[simp] theorem eraseAll_cons (m : Map K V) (key : K) (keys : List K) :
    m.eraseAll (key :: keys) = eraseAll (Function.update m key none) keys := rfl

omit [DecidableEq K] in
@[simp] theorem getAll_nil (m : Map K V) : m.getAll [] = some [] := rfl

omit [DecidableEq K] in
theorem getAll_cons (m : Map K V) (key : K) (keys : List K) :
    m.getAll (key :: keys) =
      (m key).bind fun value => (m.getAll keys).map ((key, value) :: ·) := by
  simp only [getAll, List.mapM_cons]
  cases m key with
  | none => rfl
  | some value => cases keys.mapM fun key => (m key).map (key, ·) <;> rfl

omit [DecidableEq K] in
theorem map_fst_of_getAll (m : Map K V) {keys : List K} {objects : List (K × V)}
    (h : m.getAll keys = some objects) : objects.map Prod.fst = keys := by
  induction keys generalizing objects with
  | nil =>
    cases h
    rfl
  | cons key keys ih =>
    rw [getAll_cons] at h
    obtain ⟨value, _, h⟩ := Option.bind_eq_some_iff.mp h
    obtain ⟨rest, hrest, rfl⟩ := Option.map_eq_some_iff.mp h
    rw [List.map_cons, ih hrest]

end Map

/-! ### Saves under keys that are given out -/

/-- One save, and the key that it answers with. A key that has a value keeps it, and otherwise the
value gets a key that is free, unless it is refused. -/
inductive Save (m : Map K V) (key : K) (value : V) : Option K → Map K V → Prop
  | known (h : m key ≠ none) : Save m key value (some key) (Function.update m key (some value))
  | fresh {free : K} (h : m key = none) (hfree : m free = none) :
    Save m key value (some free) (Function.update m free (some value))
  | refused (h : m key = none) : Save m key value none m

/-- One save after the other. -/
inductive Saves : Map K V → List (K × V) → List (Option K) → Map K V → Prop
  | nil (m : Map K V) : Saves m [] [] m
  | cons {m m' m'' : Map K V} {key : K} {value : V} {answer : Option K}
      {requests : List (K × V)} {answers : List (Option K)} (h : Save m key value answer m')
      (hs : Saves m' requests answers m'') :
      Saves m ((key, value) :: requests) (answer :: answers) m''

omit [DecidableEq K] in
/-- The values that were not refused, under the keys of their answers. -/
def answered : List (K × V) → List (Option K) → List (K × V)
  | request :: requests, some key :: answers => (key, request.2) :: answered requests answers
  | _ :: requests, none :: answers => answered requests answers
  | _, _ => []

/-- Each key has the value that was saved last under it. -/
theorem Saves.eq_insertAll {m m' : Map K V} {requests : List (K × V)} {answers : List (Option K)}
    (h : Saves m requests answers m') : m' = m.insertAll (answered requests answers) := by
  induction h with
  | nil => rfl
  | cons h _ ih =>
    rw [ih]
    cases h <;> rfl

end R1Emu.Lib.KeyValue
