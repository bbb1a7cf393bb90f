import R1Emu.Lib.KeyValue
import R1Emu.Storage.Db

/-!
# The database as a map

Requests are answered from a map of keys to bytes, one after the other. The database answers
as that map does as long as no key is updated with an object of another size: the memory of a
stored object is allocated once, and so is the size beside it.
-/
namespace R1Emu.Storage
open R1Emu.Lib.Bytes R1Emu.Lib.KeyValue R1Emu.Property

instance : DecidableEq CString := fun s t =>
  decidable_of_iff (s.chars = t.chars) CString.ext_iff.symm

abbrev DbRequest := Request CString (List UInt8)

/-- A key with its terminator. -/
def keyFrame (key : CString) : Frame := key.chars ++ [0]

def updateFrames (objects : List (CString × List UInt8)) : List Frame :=
  objects.flatMap fun object => [keyFrame object.1, object.2]

def dbHandle (self : Db) : DbRequest → Option (Bool × List Frame × Db)
  | .update objects => dbUpdateArray self (updateFrames objects)
  | .get keys => dbGetArray self (keys.map keyFrame)
  | .remove keys => dbRemoveArray self (keys.map keyFrame)

def objectFrames (objects : List (CString × List UInt8)) : List Frame :=
  objects.flatMap fun object => [object.1.chars, object.2]

/-- The answer to a get: the objects after a status, or a failure. -/
def getAnswer : Option (List (CString × List UInt8)) → Bool × List Frame
  | none => (false, [])
  | some objects => (true, statusFrame .success :: objectFrames objects)

/-- What is answered from a map. -/
def mapAnswer (m : Map CString (List UInt8)) : DbRequest → Bool × List Frame
  | .update _ => (true, [statusFrame .success])
  | .get keys => getAnswer (m.getAll keys)
  | .remove _ => (true, [statusFrame .success])

/-- Each object replaces the bytes of its key and their length together, in the memory of
the object that is stored there. -/
def Replaces : Db → List (CString × List UInt8) → Prop
  | _, [] => True
  | self, object :: objects => ∃ self' stored,
      dbUpdateOne self object.1.chars object.2 = some self' ∧
        self'.hashtable object.1.chars = some stored ∧ stored.data = object.2 ∧
        stored.dataSize = object.2.length ∧ Replaces self' objects

def Updates (self : Db) : DbRequest → Prop
  | .update objects => Replaces self objects
  | .get _ => True
  | .remove _ => True

/-- Every request of a run is answered as the map does, and every update replaces whole
objects. -/
def Agrees : Db → Map CString (List UInt8) → List DbRequest → Prop
  | _, _, [] => True
  | self, m, request :: requests => ∃ self',
      dbHandle self request = some ((mapAnswer m request).1, (mapAnswer m request).2, self') ∧
        Updates self request ∧ Agrees self' (m.step request) requests

/-- A key that has a value is updated with as many bytes. -/
def SizesKept : Map CString (List UInt8) → List (CString × List UInt8) → Prop
  | _, [] => True
  | m, object :: objects => (∀ bytes, m object.1 = some bytes → bytes.length = object.2.length) ∧
      SizesKept (Function.update m object.1 (some object.2)) objects

/-- No request of a run updates a key with an object of another size. -/
def SameSizes : Map CString (List UInt8) → List DbRequest → Prop
  | _, [] => True
  | m, .update objects :: requests =>
      SizesKept m objects ∧ SameSizes (m.step (.update objects)) requests
  | m, .get keys :: requests => SameSizes (m.step (.get keys)) requests
  | m, .remove keys :: requests => SameSizes (m.step (.remove keys)) requests

/-- The bytes of a key are stored with their length, in memory of that length. -/
def Represents (self : Db) (m : Map CString (List UInt8)) : Prop :=
  ∀ key, self.hashtable key.chars = (m key).map fun bytes => dbObjectNew bytes.length bytes

variable {self : Db} {m : Map CString (List UInt8)}

theorem frameString_keyFrame (key : CString) : frameString (keyFrame key) = some key.chars := by
  have htake : (key.chars ++ [0]).takeWhile (· != 0) = key.chars := by
    rw [List.takeWhile_append_of_pos fun b hb => by
      simpa using fun h : b = 0 => key.noTerminator (h ▸ hb)]
    simp
  rw [frameString, keyFrame, htake, if_pos (by simp)]

@[simp] theorem dbObjectNew_length (bytes : List UInt8) :
    dbObjectNew bytes.length bytes = ⟨bytes.length, bytes, false⟩ := by
  rw [dbObjectNew, List.take_length]

theorem represents_init : Represents dbInit Map.empty := fun _ => rfl

theorem Represents.lookup (h : Represents self m) (key : CString) :
    self.hashtable key.chars = (m key).map fun bytes => ⟨bytes.length, bytes, false⟩ := by
  simpa using h key

theorem Represents.insert (h : Represents self m) (key : CString) (bytes : List UInt8) :
    Represents (self.insert key.chars ⟨bytes.length, bytes, false⟩)
      (Function.update m key (some bytes)) := by
  intro other
  by_cases hkey : other = key
  · subst hkey
    simp [Db.insert]
  · have hchars : other.chars ≠ key.chars := fun hc => hkey (CString.ext hc)
    rw [Function.update_of_ne hkey, ← h other]
    exact Function.update_of_ne hchars _ _

theorem Represents.delete (h : Represents self m) (key : CString) :
    Represents (self.delete key.chars) (Function.update m key none) := by
  intro other
  by_cases hkey : other = key
  · subst hkey
    simp [Db.delete]
  · have hchars : other.chars ≠ key.chars := fun hc => hkey (CString.ext hc)
    rw [Function.update_of_ne hkey, ← h other]
    exact Function.update_of_ne hchars _ _

/-- An object of the size that is stored replaces it. -/
theorem dbUpdateOne_of_size (h : Represents self m) {key : CString} {data : List UInt8}
    (hsize : ∀ bytes, m key = some bytes → bytes.length = data.length) :
    dbUpdateOne self key.chars data = some (self.insert key.chars ⟨data.length, data, false⟩) := by
  have hlookup := h.lookup key
  cases hm : m key with
  | none =>
    rw [hm] at hlookup
    simp only [dbUpdateOne, hlookup, Option.map_none, dbObjectNew_length]
  | some bytes =>
    have hlen := hsize bytes hm
    rw [hm] at hlookup
    simp only [dbUpdateOne, hlookup, Option.map_some, DbObject.overwrite, hlen, le_refl, if_true,
      Option.bind_eq_bind, Option.bind_some, Option.pure_def]
    rw [List.drop_of_length_le hlen.le, List.append_nil]

/-- The size beside the data stays as it was allocated. -/
theorem size_of_dbUpdateOne (h : Represents self m) {key : CString} {data bytes : List UInt8}
    {self' : Db} {stored : DbObject} (hm : m key = some bytes)
    (hupdate : dbUpdateOne self key.chars data = some self')
    (hstored : self'.hashtable key.chars = some stored) : stored.dataSize = bytes.length := by
  have hlookup := h.lookup key
  rw [hm] at hlookup
  simp only [dbUpdateOne, hlookup, Option.map_some, DbObject.overwrite] at hupdate
  split_ifs at hupdate with hfits
  · cases hupdate
    have hnew := (Function.update_self ..).symm.trans hstored
    cases hnew
    rfl
  · cases hupdate

theorem replaces_iff (h : Represents self m) (objects : List (CString × List UInt8)) :
    Replaces self objects ↔ SizesKept m objects := by
  induction objects generalizing self m with
  | nil => exact Iff.rfl
  | cons object objects ih =>
    constructor
    · rintro ⟨self', stored, hupdate, hstored, -, hsize, hrest⟩
      have hkept : ∀ bytes, m object.1 = some bytes → bytes.length = object.2.length :=
        fun bytes hm => (size_of_dbUpdateOne h hm hupdate hstored).symm.trans hsize
      rw [dbUpdateOne_of_size h hkept] at hupdate
      cases hupdate
      exact ⟨hkept, (ih (h.insert _ _)).mp hrest⟩
    · rintro ⟨hkept, hrest⟩
      exact ⟨_, _, dbUpdateOne_of_size h hkept, Function.update_self .., rfl, rfl,
        (ih (h.insert _ _)).mpr hrest⟩

theorem dbUpdateFrames_represents (h : Represents self m) (objects : List (CString × List UInt8))
    (hkept : SizesKept m objects) :
    ∃ self', dbUpdateFrames (updateFrames objects) self = some (true, self') ∧
      Represents self' (m.insertAll objects) := by
  induction objects generalizing self m with
  | nil => exact ⟨self, rfl, h⟩
  | cons object objects ih =>
    obtain ⟨self', hrest, h'⟩ := ih (h.insert object.1 object.2) hkept.2
    refine ⟨self', ?_, h'⟩
    rw [updateFrames, List.flatMap_cons, List.cons_append, List.cons_append, List.nil_append,
      dbUpdateFrames, frameString_keyFrame, Option.bind_eq_bind, Option.bind_some,
      dbUpdateOne_of_size h hkept.1]
    exact hrest

theorem dbRemoveFrames_represents (h : Represents self m) (keys : List CString) :
    ∃ self', dbRemoveFrames (keys.map keyFrame) self = some self' ∧
      Represents self' (m.eraseAll keys) := by
  induction keys generalizing self m with
  | nil => exact ⟨self, rfl, h⟩
  | cons key keys ih =>
    obtain ⟨self', hrest, h'⟩ := ih (h.delete key)
    refine ⟨self', ?_, h'⟩
    rw [List.map_cons, dbRemoveFrames, frameString_keyFrame]
    exact hrest

theorem dbGetFrames_represents (h : Represents self m) (keys : List CString) (out : List Frame) :
    dbGetFrames self (keys.map keyFrame) out =
      some ((m.getAll keys).elim (false, []) fun objects => (true, out ++ objectFrames objects)) := by
  induction keys generalizing out with
  | nil => simp [dbGetFrames, Map.getAll, objectFrames]
  | cons key keys ih =>
    rw [List.map_cons, dbGetFrames, frameString_keyFrame, Option.bind_eq_bind, Option.bind_some,
      h.lookup key, Map.getAll_cons]
    cases hm : m key with
    | none => rfl
    | some bytes =>
      simp only [Option.map_some, DbObject.read, le_refl, if_true, List.take_length, ih,
        Option.bind_some]
      cases m.getAll keys with
      | none => rfl
      | some objects => simp [objectFrames]

/-- A request that keeps the sizes is answered as the map does, and leaves a database for the
map after it. -/
theorem dbHandle_represents (h : Represents self m) (request : DbRequest)
    (hupdates : Updates self request) :
    ∃ self', dbHandle self request =
        some ((mapAnswer m request).1, (mapAnswer m request).2, self') ∧
      Represents self' (m.step request) := by
  cases request with
  | update objects =>
    obtain ⟨self', hframes, h'⟩ :=
      dbUpdateFrames_represents h objects ((replaces_iff h objects).mp hupdates)
    refine ⟨self', ?_, h'⟩
    rw [dbHandle, dbUpdateArray, hframes]
    rfl
  | get keys =>
    refine ⟨self, ?_, h⟩
    rw [dbHandle, dbGetArray, dbGetFrames_represents h, mapAnswer]
    cases m.getAll keys <;> rfl
  | remove keys =>
    obtain ⟨self', hframes, h'⟩ := dbRemoveFrames_represents h keys
    refine ⟨self', ?_, h'⟩
    rw [dbHandle, dbRemoveArray, hframes]
    rfl

theorem sameSizes_cons (h : Represents self m) (request : DbRequest) (requests : List DbRequest) :
    SameSizes m (request :: requests) ↔
      Updates self request ∧ SameSizes (m.step request) requests := by
  cases request with
  | update objects => exact and_congr_left' (replaces_iff h objects).symm
  | get keys => exact (iff_of_eq (true_and _)).symm
  | remove keys => exact (iff_of_eq (true_and _)).symm

theorem agrees_iff (h : Represents self m) (requests : List DbRequest) :
    Agrees self m requests ↔ SameSizes m requests := by
  induction requests generalizing self m with
  | nil => exact Iff.rfl
  | cons request requests ih =>
    rw [sameSizes_cons h]
    constructor
    · rintro ⟨self', hhandle, hupdates, hrest⟩
      obtain ⟨self'', hhandle', h'⟩ := dbHandle_represents h request hupdates
      rw [hhandle] at hhandle'
      cases hhandle'
      exact ⟨hupdates, (ih h').mp hrest⟩
    · rintro ⟨hupdates, hrest⟩
      obtain ⟨self', hhandle, h'⟩ := dbHandle_represents h request hupdates
      exact ⟨self', hhandle, hupdates, (ih h').mpr hrest⟩

/-- The database answers as a map does in exactly the runs in which no update has another
size than the object that is stored. -/
theorem db_agrees_with_map (requests : List DbRequest) :
    Agrees dbInit Map.empty requests ↔ SameSizes Map.empty requests :=
  agrees_iff represents_init requests

/-- The key `k`. -/
def keyK : CString := ⟨[107], by decide⟩

/-- An object of two bytes is updated with one byte, and asked for. -/
def shrinkingRun : List DbRequest :=
  [.update [(keyK, [1, 2])], .update [(keyK, [3])], .get [keyK]]

/-- The answer has the old length, with an old byte behind the new one. -/
theorem db_answers_stale_bytes :
    (do
      let (_, _, self) ← dbHandle dbInit (.update [(keyK, [1, 2])])
      let (_, _, self) ← dbHandle self (.update [(keyK, [3])])
      let (status, out, _) ← dbHandle self (.get [keyK])
      return (status, out)) = some (true, [statusFrame .success, [107], [3, 2]]) ∧
      ¬ Agrees dbInit Map.empty shrinkingRun := by
  refine ⟨by decide, fun h => ?_⟩
  have hsizes := (agrees_iff represents_init shrinkingRun).mp h
  have hkept := hsizes.2.1.1 [1, 2] rfl
  simp at hkept

end R1Emu.Storage
