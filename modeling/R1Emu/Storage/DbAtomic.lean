import R1Emu.Storage.Db
import Mathlib.Data.List.Forall2

/-!
# Requests to the database as a whole

An update writes its objects one after the other, and fails at the end of the message when the
last key has no object: what it has written until then stays. The other requests change
nothing when they fail.
-/
namespace R1Emu.Storage
open R1Emu.Lib.Bytes

/-! ### The parts of a request -/

/-- The string in a frame that has a terminator. -/
def keyText (frame : Frame) : List UInt8 := frame.takeWhile (· != 0)

/-- The keys of an update, each with the object that follows it. -/
def updateObjects : List Frame → List (List UInt8 × List UInt8)
  | keyFrame :: objectFrame :: msg => (keyText keyFrame, objectFrame) :: updateObjects msg
  | _ => []

/-- All the keys of an update. -/
def updateKeys : List Frame → List Frame
  | [] => []
  | [keyFrame] => [keyFrame]
  | keyFrame :: _ :: msg => keyFrame :: updateKeys msg

/-- The byte that the objects of a key write last at a position. -/
def lastByte (key : List UInt8) (i : ℕ) : List (List UInt8 × List UInt8) → Option UInt8
  | [] => none
  | object :: objects =>
    (lastByte key i objects).or (if object.1 = key then object.2[i]? else none)

/-- The size of the memory of a key: of the stored object, or of the first one written. -/
def memoryOf (self : Db) (objects : List (List UInt8 × List UInt8)) (key : List UInt8) : Option ℕ :=
  ((self.hashtable key).map (·.data.length)).or
    ((objects.find? (·.1 = key)).map (·.2.length))

/-! ### What a request promises -/

/-- The answer is a status that is not a success. -/
def Failed (out : List Frame) : Prop :=
  ∃ status, status ≠ DbStatus.success ∧ out = [statusFrame status]

/-- The last object of each key is at the front of what is stored, and no other key is touched. -/
structure Updated (self : Db) (msg : List Frame) (self' : Db) : Prop where
  stored : ∀ before key object behind, updateObjects msg = before ++ (key, object) :: behind →
    (∀ other ∈ behind, other.1 ≠ key) →
      ∃ dbObject, self'.hashtable key = some dbObject ∧ object <+: dbObject.data
  others : ∀ key, (∀ object ∈ updateObjects msg, object.1 ≠ key) →
    self'.hashtable key = self.hashtable key

/-- Every key is answered with the data of its object, in order. -/
def Got (self : Db) (msg out : List Frame) : Prop :=
  ∃ answers : List (List UInt8 × List UInt8),
    List.Forall₂ (fun keyFrame answer => keyText keyFrame = answer.1 ∧
      ∃ dbObject, self.hashtable answer.1 = some dbObject ∧ dbObject.read = some answer.2)
      msg answers ∧
    out = statusFrame .success :: answers.flatMap fun answer => [answer.1, answer.2]

/-- No key is in the table any more, and no other key is touched. -/
structure Removals (self : Db) (msg : List Frame) (self' : Db) : Prop where
  removed : ∀ keyFrame ∈ msg, self'.hashtable (keyText keyFrame) = none
  others : ∀ key, (∀ keyFrame ∈ msg, keyText keyFrame ≠ key) →
    self'.hashtable key = self.hashtable key

/-- Every key of the request has been processed. -/
def Processed (self : Db) (msg out : List Frame) (self' : Db) : DbPacketType → Prop
  | .updateObject | .updateArray => Updated self msg self'
  | .getObject | .getArray => Got self msg out ∧ self' = self
  | .removeObject | .removeArray => Removals self msg self'

/-- The request is answered; it fails and the table is as it was, or every key has been
processed. -/
def Atomic (self : Db) (type : DbPacketType) (msg : List Frame) : Prop :=
  ∃ out self', dbHandlePacket self type.code msg = some (out, self') ∧
    (Failed out → self' = self) ∧ (¬ Failed out → Processed self msg out self' type)

/-! ### When it keeps the promise -/

/-- No object is larger than the memory of its key. -/
def Fits (self : Db) (objects : List (List UInt8 × List UInt8)) : Prop :=
  ∀ object ∈ objects, ∀ size, memoryOf self objects object.1 = some size → object.2.length ≤ size

/-- The keys are stored, with the bytes that the objects write in the end. -/
def WritesBack (self : Db) (objects : List (List UInt8 × List UInt8)) : Prop :=
  ∀ object ∈ objects, ∃ dbObject, self.hashtable object.1 = some dbObject ∧
    ∀ i b, lastByte object.1 i objects = some b → dbObject.data[i]? = some b

/-- The keys have terminators and the objects have the memory of their size, up to the first
key that is not found. -/
def Readable (self : Db) : List Frame → Prop
  | [] => True
  | keyFrame :: msg => 0 ∈ keyFrame ∧
    ∀ dbObject, self.hashtable (keyText keyFrame) = some dbObject →
      dbObject.dataSize ≤ dbObject.data.length ∧ Readable self msg

/-- The keys have terminators. An update has an object for each key and memory for each object,
or else it writes what is there already. -/
def Sound (self : Db) (msg : List Frame) : DbPacketType → Prop
  | .updateObject | .updateArray => (∀ keyFrame ∈ updateKeys msg, 0 ∈ keyFrame) ∧
      if msg.length % 2 = 0 then Fits self (updateObjects msg)
      else WritesBack self (updateObjects msg)
  | .getObject | .getArray => Readable self msg
  | .removeObject | .removeArray => ∀ keyFrame ∈ msg, 0 ∈ keyFrame

/-! ### Updates -/

variable {self self' : Db}

theorem frameString_of_mem {frame : Frame} (h : 0 ∈ frame) :
    frameString frame = some (keyText frame) := if_pos h

theorem frameString_of_not_mem {frame : Frame} (h : 0 ∉ frame) : frameString frame = none :=
  if_neg h

/-- The objects of an update, written in order. -/
def dbUpdateObjects : List (List UInt8 × List UInt8) → Db → Option Db
  | [], self => some self
  | object :: objects, self => do dbUpdateObjects objects (← dbUpdateOne self object.1 object.2)

theorem dbUpdateFrames_of_terminated {msg : List Frame}
    (h : ∀ keyFrame ∈ updateKeys msg, 0 ∈ keyFrame) (self : Db) :
    dbUpdateFrames msg self =
      (dbUpdateObjects (updateObjects msg) self).map (decide (msg.length % 2 = 0), ·) := by
  induction msg, self using dbUpdateFrames.induct with
  | case1 self => rfl
  | case2 keyFrame self =>
    rw [dbUpdateFrames, frameString_of_mem (h keyFrame (List.mem_singleton_self _))]
    rfl
  | case3 keyFrame objectFrame msg self ih =>
    have hparity : (keyFrame :: objectFrame :: msg).length % 2 = msg.length % 2 :=
      Nat.add_mod_right msg.length 2
    rw [dbUpdateFrames, frameString_of_mem (h keyFrame List.mem_cons_self), updateObjects,
      dbUpdateObjects, Option.bind_eq_bind, Option.bind_some, hparity]
    cases hone : dbUpdateOne self (keyText keyFrame) objectFrame with
    | none => rfl
    | some self' => exact ih self' fun other hother => h other (List.mem_cons_of_mem _ hother)

theorem terminated_of_dbUpdateFrames {msg : List Frame} {r : Bool × Db}
    (hrun : dbUpdateFrames msg self = some r) : ∀ keyFrame ∈ updateKeys msg, 0 ∈ keyFrame := by
  induction msg, self using dbUpdateFrames.induct with
  | case1 self => exact fun _ h => absurd h List.not_mem_nil
  | case2 keyFrame self =>
    intro other hother
    rw [List.mem_singleton.mp hother]
    by_contra hnot
    rw [dbUpdateFrames, frameString_of_not_mem hnot] at hrun
    cases hrun
  | case3 keyFrame objectFrame msg self ih =>
    rw [dbUpdateFrames, Option.bind_eq_bind, Option.bind_eq_some_iff] at hrun
    obtain ⟨key, hkey, hrun⟩ := hrun
    obtain ⟨self', -, hrun⟩ := Option.bind_eq_some_iff.mp hrun
    intro other hother
    rcases List.mem_cons.mp hother with rfl | hother
    · by_contra hnot
      rw [frameString_of_not_mem hnot] at hkey
      cases hkey
    · exact ih self' hrun other hother

/-- What one object does to the memory of its key. -/
theorem dbUpdateOne_cases (self : Db) (key data : List UInt8) :
    (self.hashtable key = none ∧
      dbUpdateOne self key data = some (self.insert key ⟨data.length, data, false⟩)) ∨
    ∃ dbObject, self.hashtable key = some dbObject ∧
      ((data.length ≤ dbObject.data.length ∧ dbUpdateOne self key data = some (self.insert key
        { dbObject with data := data ++ dbObject.data.drop data.length })) ∨
      (dbObject.data.length < data.length ∧ dbUpdateOne self key data = none)) := by
  cases hkey : self.hashtable key with
  | none =>
    refine .inl ⟨rfl, ?_⟩
    simp only [dbUpdateOne, hkey, dbObjectNew, List.take_length]
  | some dbObject =>
    refine .inr ⟨dbObject, rfl, ?_⟩
    by_cases hfits : data.length ≤ dbObject.data.length
    · refine .inl ⟨hfits, ?_⟩
      simp [dbUpdateOne, hkey, DbObject.overwrite, hfits]
    · refine .inr ⟨Nat.lt_of_not_le hfits, ?_⟩
      simp [dbUpdateOne, hkey, DbObject.overwrite, hfits]

theorem insert_hashtable (self : Db) (key : List UInt8) (object : DbObject) :
    (self.insert key object).hashtable = Function.update self.hashtable key (some object) := rfl

/-- The bytes in front of an overwritten object. -/
theorem getElem?_overwrite (data old : List UInt8) (i : ℕ) :
    (data ++ old.drop data.length)[i]? = (data[i]?).or old[i]? := by
  by_cases hi : i < data.length
  · rw [List.getElem?_append_left hi, List.getElem?_eq_getElem hi]
    rfl
  · have hle := Nat.le_of_not_lt hi
    rw [List.getElem?_append_right hle, List.getElem?_eq_none hle, List.getElem?_drop,
      Nat.add_sub_cancel' hle, Option.none_or]

/-- An object that is stored keeps its size, and gets the bytes that are written last. -/
theorem dbUpdateObjects_stored {objects : List (List UInt8 × List UInt8)}
    (hrun : dbUpdateObjects objects self = some self') {key : List UInt8} {dbObject : DbObject}
    (hkey : self.hashtable key = some dbObject) :
    ∃ data, self'.hashtable key = some { dbObject with data := data } ∧
      data.length = dbObject.data.length ∧
      ∀ i, data[i]? = (lastByte key i objects).or dbObject.data[i]? := by
  induction objects generalizing self dbObject with
  | nil =>
    cases hrun
    exact ⟨dbObject.data, hkey, rfl, fun i => rfl⟩
  | cons object objects ih =>
    rw [dbUpdateObjects, Option.bind_eq_bind, Option.bind_eq_some_iff] at hrun
    obtain ⟨self1, hone, hrun⟩ := hrun
    by_cases hsame : object.1 = key
    · subst hsame
      rcases dbUpdateOne_cases self object.1 object.2 with
        ⟨hnone, -⟩ | ⟨_, hkey', ⟨hfits, hone'⟩ | ⟨-, hone'⟩⟩
      · rw [hnone] at hkey
        cases hkey
      · rw [hkey] at hkey'
        cases hkey'
        rw [hone'] at hone
        cases hone
        obtain ⟨data, hdata, hlength, hbytes⟩ := ih hrun (Function.update_self ..)
        refine ⟨data, hdata, ?_, fun i => ?_⟩
        · rw [hlength]
          simp [hfits]
        · rw [hbytes i, getElem?_overwrite, lastByte, if_pos rfl, Option.or_assoc]
      · rw [hone'] at hone
        cases hone
    · have hkept : self1.hashtable key = self.hashtable key := by
        rcases dbUpdateOne_cases self object.1 object.2 with
          ⟨-, hone'⟩ | ⟨_, -, ⟨-, hone'⟩ | ⟨-, hone'⟩⟩ <;> rw [hone'] at hone <;> cases hone <;>
          exact Function.update_of_ne (Ne.symm hsame) _ _
      obtain ⟨data, hdata, hlength, hbytes⟩ := ih hrun (hkept.trans hkey)
      refine ⟨data, hdata, hlength, fun i => ?_⟩
      rw [hbytes i, lastByte, if_neg hsame, Option.or_none]

theorem dbUpdateOne_others {key data : List UInt8} (hone : dbUpdateOne self key data = some self')
    {other : List UInt8} (hother : key ≠ other) :
    self'.hashtable other = self.hashtable other := by
  rcases dbUpdateOne_cases self key data with
    ⟨-, hone'⟩ | ⟨_, -, ⟨-, hone'⟩ | ⟨-, hone'⟩⟩
  · rw [hone'] at hone
    cases hone
    exact Function.update_of_ne hother.symm _ _
  · rw [hone'] at hone
    cases hone
    exact Function.update_of_ne hother.symm _ _
  · rw [hone'] at hone
    cases hone

/-- The object is at the front of what is stored for its key then. -/
theorem dbUpdateOne_front {key data : List UInt8} (hone : dbUpdateOne self key data = some self') :
    ∃ dbObject, self'.hashtable key = some dbObject ∧ data <+: dbObject.data := by
  rcases dbUpdateOne_cases self key data with
    ⟨-, hone'⟩ | ⟨_, -, ⟨-, hone'⟩ | ⟨-, hone'⟩⟩
  · rw [hone'] at hone
    cases hone
    exact ⟨_, Function.update_self .., List.prefix_rfl⟩
  · rw [hone'] at hone
    cases hone
    exact ⟨_, Function.update_self .., List.prefix_append _ _⟩
  · rw [hone'] at hone
    cases hone

theorem dbUpdateObjects_append (objects objects' : List (List UInt8 × List UInt8)) (self : Db) :
    dbUpdateObjects (objects ++ objects') self =
      (dbUpdateObjects objects self).bind (dbUpdateObjects objects') := by
  induction objects generalizing self with
  | nil => rfl
  | cons object objects ih =>
    rw [List.cons_append, dbUpdateObjects, dbUpdateObjects, Option.bind_eq_bind, Option.bind_assoc]
    exact congrArg _ (funext ih)

theorem dbUpdateObjects_others {objects : List (List UInt8 × List UInt8)}
    (hrun : dbUpdateObjects objects self = some self') {key : List UInt8}
    (hkey : ∀ object ∈ objects, object.1 ≠ key) : self'.hashtable key = self.hashtable key := by
  induction objects generalizing self with
  | nil =>
    cases hrun
    rfl
  | cons object objects ih =>
    rw [dbUpdateObjects, Option.bind_eq_bind, Option.bind_eq_some_iff] at hrun
    obtain ⟨self1, hone, hrun⟩ := hrun
    rw [ih hrun fun other hother => hkey other (List.mem_cons_of_mem _ hother)]
    exact dbUpdateOne_others hone (hkey object List.mem_cons_self)

theorem dbUpdateObjects_updated {objects : List (List UInt8 × List UInt8)}
    (hrun : dbUpdateObjects objects self = some self')
    {before behind : List (List UInt8 × List UInt8)} {key object : List UInt8}
    (hobjects : objects = before ++ (key, object) :: behind) (hlast : ∀ other ∈ behind, other.1 ≠ key) :
    ∃ dbObject, self'.hashtable key = some dbObject ∧ object <+: dbObject.data := by
  rw [hobjects, dbUpdateObjects_append, Option.bind_eq_some_iff] at hrun
  obtain ⟨self1, -, hrun⟩ := hrun
  rw [dbUpdateObjects, Option.bind_eq_bind, Option.bind_eq_some_iff] at hrun
  obtain ⟨self2, hone, hrun⟩ := hrun
  rw [dbUpdateObjects_others hrun hlast]
  exact dbUpdateOne_front hone

/-- The memory of a key is allocated once. -/
theorem memoryOf_dbUpdateOne {object : List UInt8 × List UInt8}
    (hone : dbUpdateOne self object.1 object.2 = some self')
    (objects : List (List UInt8 × List UInt8)) (key : List UInt8) :
    memoryOf self' objects key = memoryOf self (object :: objects) key := by
  by_cases hsame : object.1 = key
  · subst hsame
    rcases dbUpdateOne_cases self object.1 object.2 with
      ⟨hkey, hone'⟩ | ⟨_, hkey, ⟨hfits, hone'⟩ | ⟨-, hone'⟩⟩
    · rw [hone'] at hone
      cases hone
      simp [memoryOf, hkey, insert_hashtable]
    · rw [hone'] at hone
      cases hone
      simp [memoryOf, hkey, insert_hashtable, hfits]
    · rw [hone'] at hone
      cases hone
  · simp [memoryOf, dbUpdateOne_others hone hsame, hsame]

/-- The objects are written exactly when there is memory for all of them. -/
theorem dbUpdateObjects_isSome_iff (objects : List (List UInt8 × List UInt8)) (self : Db) :
    (∃ self', dbUpdateObjects objects self = some self') ↔ Fits self objects := by
  induction objects generalizing self with
  | nil => exact ⟨fun _ _ h => absurd h List.not_mem_nil, fun _ => ⟨self, rfl⟩⟩
  | cons object objects ih =>
    have hfirst : memoryOf self (object :: objects) object.1 =
        ((self.hashtable object.1).map (·.data.length)).or (some object.2.length) := by
      simp [memoryOf]
    constructor
    · rintro ⟨self', hrun⟩
      rw [dbUpdateObjects, Option.bind_eq_bind, Option.bind_eq_some_iff] at hrun
      obtain ⟨self1, hone, hrun⟩ := hrun
      have hrest := (ih self1).mp ⟨self', hrun⟩
      intro other hother size hsize
      rcases List.mem_cons.mp hother with rfl | hother
      · rcases dbUpdateOne_cases self other.1 other.2 with
          ⟨hkey, -⟩ | ⟨dbObject, hkey, ⟨hfits, -⟩ | ⟨-, hone'⟩⟩
        · rw [hfirst, hkey] at hsize
          exact (Option.some.inj hsize).le
        · rw [hfirst, hkey] at hsize
          exact hfits.trans_eq (Option.some.inj hsize)
        · rw [hone'] at hone
          cases hone
      · exact hrest other hother size ((memoryOf_dbUpdateOne hone objects other.1).trans hsize)
    · intro hfits
      have hwritten : ∃ self1, dbUpdateOne self object.1 object.2 = some self1 := by
        rcases dbUpdateOne_cases self object.1 object.2 with
          ⟨-, hone⟩ | ⟨dbObject, hkey, ⟨-, hone⟩ | ⟨hlarge, -⟩⟩
        · exact ⟨_, hone⟩
        · exact ⟨_, hone⟩
        · have hmemory : memoryOf self (object :: objects) object.1 =
              some dbObject.data.length := by
            rw [hfirst, hkey]
            rfl
          have hsize := hfits object List.mem_cons_self dbObject.data.length hmemory
          exact absurd hsize (Nat.not_le_of_lt hlarge)
      obtain ⟨self1, hone⟩ := hwritten
      have hrest : Fits self1 objects := by
        intro other hother size hsize
        exact hfits other (List.mem_cons_of_mem _ hother) size
          ((memoryOf_dbUpdateOne hone objects other.1).symm.trans hsize)
      obtain ⟨self', hrun⟩ := (ih self1).mpr hrest
      exact ⟨self', by rw [dbUpdateObjects, hone]; exact hrun⟩

/-- Some object of the key writes its byte last. -/
theorem lastByte_isSome {key data : List UInt8} {objects : List (List UInt8 × List UInt8)}
    (hmem : (key, data) ∈ objects) {i : ℕ} (hi : i < data.length) :
    (lastByte key i objects).isSome = true := by
  induction objects with
  | nil => exact absurd hmem List.not_mem_nil
  | cons object objects ih =>
    rw [lastByte, Option.isSome_or, Bool.or_eq_true]
    rcases List.mem_cons.mp hmem with rfl | hmem
    · exact .inr (by simp [hi])
    · exact .inl (ih hmem)

/-- The table is as it was exactly when the objects write what is there. -/
theorem dbUpdateObjects_eq_self_iff (objects : List (List UInt8 × List UInt8)) (self : Db) :
    dbUpdateObjects objects self = some self ↔ WritesBack self objects := by
  constructor
  · intro hrun object hmem
    obtain ⟨before, behind, hobjects⟩ := List.append_of_mem hmem
    have hsome : ∃ dbObject, self.hashtable object.1 = some dbObject := by
      rw [hobjects, dbUpdateObjects_append, Option.bind_eq_some_iff] at hrun
      obtain ⟨self1, -, hrun⟩ := hrun
      rw [dbUpdateObjects, Option.bind_eq_bind, Option.bind_eq_some_iff] at hrun
      obtain ⟨self2, hone, hrun⟩ := hrun
      obtain ⟨dbObject, hkey, -⟩ := dbUpdateOne_front hone
      obtain ⟨data, hkey, -⟩ := dbUpdateObjects_stored hrun hkey
      exact ⟨_, hkey⟩
    obtain ⟨dbObject, hkey⟩ := hsome
    obtain ⟨data, hkey', -, hbytes⟩ := dbUpdateObjects_stored hrun hkey
    have hdata : data = dbObject.data := by
      rw [hkey] at hkey'
      exact (congrArg DbObject.data (Option.some.inj hkey')).symm
    refine ⟨dbObject, hkey, fun i b hb => ?_⟩
    have hbyte := hbytes i
    rw [hb, hdata] at hbyte
    exact hbyte
  · intro hback
    have hfits : Fits self objects := by
      intro object hmem size hsize
      obtain ⟨dbObject, hkey, hbytes⟩ := hback object hmem
      rw [memoryOf, hkey] at hsize
      obtain rfl := Option.some.inj hsize
      by_contra hlarge
      have hlast : (lastByte object.1 dbObject.data.length objects).isSome = true :=
        lastByte_isSome hmem (Nat.lt_of_not_le hlarge)
      obtain ⟨b, hb⟩ := Option.isSome_iff_exists.mp hlast
      have hstored := hbytes _ b hb
      rw [List.getElem?_eq_none (le_refl _)] at hstored
      cases hstored
    obtain ⟨self', hrun⟩ := (dbUpdateObjects_isSome_iff objects self).mpr hfits
    rw [hrun]
    apply congrArg some
    suffices htable : self'.hashtable = self.hashtable by
      cases self
      cases self'
      exact congrArg Db.mk htable
    funext key
    by_cases hmem : ∀ object ∈ objects, object.1 ≠ key
    · exact dbUpdateObjects_others hrun hmem
    · obtain ⟨object, hobject, rfl⟩ : ∃ object ∈ objects, object.1 = key := by
        simpa using hmem
      obtain ⟨dbObject, hkey, hback⟩ := hback object hobject
      obtain ⟨data, hkey', -, hbytes⟩ := dbUpdateObjects_stored hrun hkey
      have hdata : data = dbObject.data := by
        apply List.ext_getElem?
        intro i
        rw [hbytes i]
        cases hlast : lastByte object.1 i objects with
        | none => exact Option.none_or
        | some b => exact (hback i b hlast).symm
      rw [hkey', hkey, hdata]

/-! ### Each kind of request -/

theorem failed_singleton (status : DbStatus) :
    Failed [statusFrame status] ↔ status ≠ DbStatus.success := by
  constructor
  · rintro ⟨other, hother, hout⟩ rfl
    cases other with
    | success => exact hother rfl
    | cannotUpdate => exact absurd hout (by decide)
    | cannotGet => exact absurd hout (by decide)
    | cannotRemove => exact absurd hout (by decide)
  · exact fun h => ⟨status, h, rfl⟩

/-- What begins with a success has not failed. -/
theorem not_failed_success (out : List Frame) : ¬ Failed (statusFrame .success :: out) := by
  rintro ⟨status, hstatus, hout⟩
  obtain ⟨hhead, -⟩ := List.cons.inj hout
  exact (failed_singleton .success).not.mpr (not_not.mpr rfl)
    ⟨status, hstatus, congrArg (fun frame => [frame]) hhead⟩

theorem updateArray_atomic_iff (self : Db) (msg : List Frame) :
    (∃ out self', (dbUpdateArray self msg).map (withStatus .cannotUpdate) = some (out, self') ∧
      (Failed out → self' = self) ∧ (¬ Failed out → Updated self msg self')) ↔
    (∀ keyFrame ∈ updateKeys msg, 0 ∈ keyFrame) ∧
      if msg.length % 2 = 0 then Fits self (updateObjects msg)
      else WritesBack self (updateObjects msg) := by
  have hrun (hkeys : ∀ keyFrame ∈ updateKeys msg, 0 ∈ keyFrame) (self' : Db)
      (hobjects : dbUpdateObjects (updateObjects msg) self = some self') :
      (dbUpdateArray self msg).map (withStatus .cannotUpdate) =
        some ([statusFrame (if msg.length % 2 = 0 then .success else .cannotUpdate)], self') := by
    rw [dbUpdateArray, dbUpdateFrames_of_terminated hkeys, hobjects]
    by_cases heven : msg.length % 2 = 0 <;> simp [heven, withStatus]
  constructor
  · rintro ⟨out, self', hanswer, hfailed, hdone⟩
    obtain ⟨r, harray, -⟩ := Option.map_eq_some_iff.mp hanswer
    obtain ⟨frames, hframes, -⟩ := Option.bind_eq_some_iff.mp harray
    have hkeys := terminated_of_dbUpdateFrames hframes
    rw [dbUpdateFrames_of_terminated hkeys] at hframes
    obtain ⟨self'', hobjects, -⟩ := Option.map_eq_some_iff.mp hframes
    rw [hrun hkeys self'' hobjects] at hanswer
    obtain ⟨rfl, rfl⟩ := Prod.mk.inj (Option.some.inj hanswer)
    refine ⟨hkeys, ?_⟩
    split
    · exact (dbUpdateObjects_isSome_iff _ _).mp ⟨_, hobjects⟩
    next hodd =>
      rw [if_neg hodd, failed_singleton] at hfailed
      rw [hfailed (by decide)] at hobjects
      exact (dbUpdateObjects_eq_self_iff _ _).mp hobjects
  · rintro ⟨hkeys, hobjects⟩
    split at hobjects
    next heven =>
      obtain ⟨self', hobjects⟩ := (dbUpdateObjects_isSome_iff _ _).mpr hobjects
      refine ⟨_, self', hrun hkeys self' hobjects, fun hfailed => ?_, fun _ => ⟨?_, ?_⟩⟩
      · rw [if_pos heven] at hfailed
        exact absurd hfailed (not_failed_success [])
      · exact fun before key object behind => dbUpdateObjects_updated hobjects
      · exact fun key hkey => dbUpdateObjects_others hobjects hkey
    next hodd =>
      have hobjects := (dbUpdateObjects_eq_self_iff _ _).mpr hobjects
      refine ⟨_, self, hrun hkeys self hobjects, fun _ => rfl, fun hdone => ?_⟩
      rw [if_neg hodd, failed_singleton] at hdone
      exact absurd (by decide) hdone

/-- The answer to a get: nothing where a key is not found, or the data of all the keys. -/
theorem dbGetFrames_of_readable {msg : List Frame} (h : Readable self msg) (out : List Frame) :
    dbGetFrames self msg out = some (false, []) ∨
    ∃ answers : List (List UInt8 × List UInt8),
      List.Forall₂ (fun keyFrame answer => keyText keyFrame = answer.1 ∧
        ∃ dbObject, self.hashtable answer.1 = some dbObject ∧ dbObject.read = some answer.2)
        msg answers ∧
      dbGetFrames self msg out =
        some (true, out ++ answers.flatMap fun answer => [answer.1, answer.2]) := by
  induction msg generalizing out with
  | nil => exact .inr ⟨[], .nil, by simp [dbGetFrames]⟩
  | cons keyFrame msg ih =>
    obtain ⟨hkey, hobject⟩ := h
    rw [dbGetFrames, frameString_of_mem hkey, Option.bind_eq_bind, Option.bind_some]
    cases hfound : self.hashtable (keyText keyFrame) with
    | none => exact .inl rfl
    | some dbObject =>
      obtain ⟨hsize, hrest⟩ := hobject dbObject hfound
      have hread : dbObject.read = some (dbObject.data.take dbObject.dataSize) := if_pos hsize
      dsimp only
      rw [hread, Option.bind_some]
      rcases ih hrest (out ++ [keyText keyFrame, dbObject.data.take dbObject.dataSize]) with
        hfail | ⟨answers, hanswers, hrun⟩
      · exact .inl hfail
      · refine .inr ⟨(keyText keyFrame, dbObject.data.take dbObject.dataSize) :: answers,
          .cons ⟨rfl, dbObject, hfound, hread⟩ hanswers, ?_⟩
        rw [hrun, List.append_assoc]
        rfl

theorem readable_of_dbGetFrames {msg out : List Frame} {r : Bool × List Frame}
    (hrun : dbGetFrames self msg out = some r) : Readable self msg := by
  induction msg generalizing out with
  | nil => trivial
  | cons keyFrame msg ih =>
    rw [dbGetFrames, Option.bind_eq_bind, Option.bind_eq_some_iff] at hrun
    obtain ⟨key, hkey, hrun⟩ := hrun
    have hmem : 0 ∈ keyFrame := by
      by_contra hnot
      rw [frameString_of_not_mem hnot] at hkey
      cases hkey
    rw [frameString_of_mem hmem] at hkey
    cases hkey
    refine ⟨hmem, fun dbObject hfound => ?_⟩
    rw [hfound] at hrun
    dsimp only at hrun
    rw [Option.bind_eq_some_iff] at hrun
    obtain ⟨data, hread, hrun⟩ := hrun
    refine ⟨?_, ih hrun⟩
    by_contra hlarge
    rw [DbObject.read, if_neg hlarge] at hread
    cases hread

theorem getArray_atomic_iff (self : Db) (msg : List Frame) :
    (∃ out self', (dbGetArray self msg).map (withStatus .cannotGet) = some (out, self') ∧
      (Failed out → self' = self) ∧ (¬ Failed out → Got self msg out ∧ self' = self)) ↔
    Readable self msg := by
  constructor
  · rintro ⟨out, self', hanswer, -, -⟩
    obtain ⟨r, harray, -⟩ := Option.map_eq_some_iff.mp hanswer
    obtain ⟨frames, hframes, -⟩ := Option.bind_eq_some_iff.mp harray
    exact readable_of_dbGetFrames hframes
  · intro h
    rcases dbGetFrames_of_readable h [statusFrame .success] with hrun | ⟨answers, hanswers, hrun⟩
    · refine ⟨[statusFrame .cannotGet], self, ?_, fun _ => rfl, fun hdone => ?_⟩
      · rw [dbGetArray, hrun]
        rfl
      · exact absurd ((failed_singleton _).mpr (by decide)) hdone
    · refine ⟨_, self, ?_, fun _ => rfl, fun _ => ⟨⟨answers, hanswers, rfl⟩, rfl⟩⟩
      rw [dbGetArray, hrun]
      rfl

theorem dbRemoveFrames_of_terminated {msg : List Frame} (h : ∀ keyFrame ∈ msg, 0 ∈ keyFrame)
    (self : Db) : ∃ self', dbRemoveFrames msg self = some self' ∧ Removals self msg self' := by
  induction msg generalizing self with
  | nil => exact ⟨self, rfl, fun _ h => absurd h List.not_mem_nil, fun _ _ => rfl⟩
  | cons keyFrame msg ih =>
    obtain ⟨self', hrun, hremoved, hothers⟩ :=
      ih (fun other hother => h other (List.mem_cons_of_mem _ hother))
        (self.delete (keyText keyFrame))
    have hdelete : (self.delete (keyText keyFrame)).hashtable =
      Function.update self.hashtable (keyText keyFrame) none := rfl
    refine ⟨self', ?_, ?_, ?_⟩
    · rw [dbRemoveFrames, frameString_of_mem (h keyFrame List.mem_cons_self)]
      exact hrun
    · intro other hother
      rcases List.mem_cons.mp hother with rfl | hother
      · by_cases hagain : ∀ later ∈ msg, keyText later ≠ keyText other
        · rw [hothers _ hagain, hdelete, Function.update_self]
        · obtain ⟨later, hlater, hkey⟩ : ∃ later ∈ msg, keyText later = keyText other := by
            simpa using hagain
          rw [← hkey]
          exact hremoved later hlater
      · exact hremoved other hother
    · intro key hkey
      rw [hothers key fun later hlater => hkey later (List.mem_cons_of_mem _ hlater), hdelete,
        Function.update_of_ne (hkey keyFrame List.mem_cons_self).symm]

theorem terminated_of_dbRemoveFrames {msg : List Frame}
    (hrun : dbRemoveFrames msg self = some self') : ∀ keyFrame ∈ msg, 0 ∈ keyFrame := by
  induction msg generalizing self with
  | nil => exact fun _ h => absurd h List.not_mem_nil
  | cons keyFrame msg ih =>
    rw [dbRemoveFrames, Option.bind_eq_bind, Option.bind_eq_some_iff] at hrun
    obtain ⟨key, hkey, hrun⟩ := hrun
    intro other hother
    rcases List.mem_cons.mp hother with rfl | hother
    · by_contra hnot
      rw [frameString_of_not_mem hnot] at hkey
      cases hkey
    · exact ih hrun other hother

theorem removeArray_atomic_iff (self : Db) (msg : List Frame) :
    (∃ out self', (dbRemoveArray self msg).map (withStatus .cannotRemove) = some (out, self') ∧
      (Failed out → self' = self) ∧ (¬ Failed out → Removals self msg self')) ↔
    ∀ keyFrame ∈ msg, 0 ∈ keyFrame := by
  constructor
  · rintro ⟨out, self', hanswer, -, -⟩
    obtain ⟨r, harray, -⟩ := Option.map_eq_some_iff.mp hanswer
    obtain ⟨self'', hframes, -⟩ := Option.bind_eq_some_iff.mp harray
    exact terminated_of_dbRemoveFrames hframes
  · intro h
    obtain ⟨self', hrun, hremoved⟩ := dbRemoveFrames_of_terminated h self
    refine ⟨[statusFrame .success], self', ?_, fun hfailed => ?_, fun _ => hremoved⟩
    · rw [dbRemoveArray, hrun]
      rfl
    · exact absurd hfailed (not_failed_success [])

/-- A request fails as a whole or is processed as a whole exactly when the frames are sound: no
key is left without its object behind objects that change the table. -/
theorem request_atomic_iff (self : Db) (type : DbPacketType) (msg : List Frame) :
    Atomic self type msg ↔ Sound self msg type := by
  cases type with
  | updateObject => exact updateArray_atomic_iff self msg
  | updateArray => exact updateArray_atomic_iff self msg
  | getObject => exact getArray_atomic_iff self msg
  | getArray => exact getArray_atomic_iff self msg
  | removeObject => exact removeArray_atomic_iff self msg
  | removeArray => exact removeArray_atomic_iff self msg

/-- An object for `a`, and a key `b` without an object. -/
def halfUpdate : List Frame := [[97, 0], [1], [98, 0]]

/-- The update is answered with an error, and `a` is in the table. -/
theorem half_update_stays :
    (dbHandlePacket dbInit DbPacketType.updateArray.code halfUpdate).map
        (fun r => (r.1, (r.2.hashtable [97]).map (·.data))) =
      some ([statusFrame .cannotUpdate], some [1]) ∧
    ¬ Atomic dbInit .updateArray halfUpdate := by
  refine ⟨by decide, ?_⟩
  rintro ⟨out, self', hrun, hfailed, -⟩
  have hboth : (dbHandlePacket dbInit DbPacketType.updateArray.code halfUpdate).map
      (fun r => (r.1, (r.2.hashtable [97]).map (·.data))) =
        some ([statusFrame .cannotUpdate], some [1]) := by decide
  rw [hrun] at hboth
  obtain ⟨hout, hstored⟩ := Prod.mk.inj (Option.some.inj hboth)
  have hself : self' = dbInit := hfailed ⟨.cannotUpdate, by decide, hout⟩
  rw [hself] at hstored
  cases hstored

end R1Emu.Storage
