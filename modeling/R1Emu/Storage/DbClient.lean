import R1Emu.Lib.Transition
import R1Emu.Storage.DbMap

/-!
# The client of the database

A client builds the messages that the main loop reads, and parses the answer to a request for
objects into a hash table. The header of a message has one byte, the value of a comparison,
and a key is sent without its terminator: no message can be read within its frames. An answer
is parsed when no key was asked for twice.
-/
namespace R1Emu.Storage
open R1Emu.Lib.Bytes R1Emu.Lib.KeyValue R1Emu.Lib.Transition R1Emu.Property

/-- `PACKET_HEADER` and `sizeof(..) != 0`: as many bytes as the value of the comparison. -/
def requestHeader (packetType : DbPacketType) : Frame :=
  (leBytes 4 packetType.code).take (4 != 0).toNat

/-- The index of the first key is not initialised. -/
def dbClientAddKeysToMessage (keyIdx : ℕ) (keys : List CString) : List Frame :=
  (keys.drop keyIdx).map (·.chars)

def dbClientAddObjectToMessage (key : CString) (object : DbObject) : Option (List Frame) := do
  return [key.chars, ← object.read]

/-- The message of `dbClientRemoveObjects`. -/
def dbClientRemoveObjects (keyIdx : ℕ) (keys : List CString) : List Frame :=
  requestHeader .removeArray :: dbClientAddKeysToMessage keyIdx keys

/-- The message of `dbClientRequestObjects`. -/
def dbClientRequestObjects (keyIdx : ℕ) (keys : List CString) : List Frame :=
  requestHeader .getArray :: dbClientAddKeysToMessage keyIdx keys

/-- The message of `dbClientUpdateObjects`. -/
def dbClientUpdateObjects (objects : List (CString × DbObject)) : Option (List Frame) := do
  let frames ← objects.mapM fun object => dbClientAddObjectToMessage object.1 object.2
  return requestHeader .updateArray :: frames.flatten

def dbClientIsSuccess (answerStatusFrame : Frame) : Option Bool := do
  return (← frameEnum answerStatusFrame) == DbStatus.success.code

abbrev HashTable := List UInt8 → Option DbObject

/-- The objects of an answer, unless a key has no object or is in the table already. -/
def dbClientObjects : List Frame → HashTable → Option HashTable
  | [], out => some out
  | [_], _ => none
  | keyFrame :: valueFrame :: answer, out =>
    let key := keyFrame.takeWhile (· != 0)
    match out key with
    | some _ => none
    | none => dbClientObjects answer
        (Function.update out key (some (dbObjectNew valueFrame.length valueFrame)))

/-- A hash table, if the answer is parsed. -/
def dbClientGetObjects : List Frame → Option (Option HashTable)
  | [] => some none
  | answerStatusFrame :: answer => do
    let success ← dbClientIsSuccess answerStatusFrame
    return if success then dbClientObjects answer fun _ => none else none

def failedStatus : DbRequest → DbStatus
  | .update _ => .cannotUpdate
  | .get _ => .cannotGet
  | .remove _ => .cannotRemove

/-- The answer to a request, and the database after it. -/
def serve (self : Db) (request : DbRequest) : Option (Option (List Frame) × Db) :=
  (dbHandle self request).map fun result =>
    (some (withStatus (failedStatus request) result).1, result.2.2)

/-- The main loop does with a message what is done with the request. -/
def Decodes (self : Db) (message : List Frame) (request : DbRequest) : Prop :=
  ∃ served, dbMainLoop self message = some served ∧ serve self request = some served

/-- The bytes of the keys that are stored. -/
def stored (self : Db) : Map CString (List UInt8) := fun key =>
  (self.hashtable key.chars).map (·.data)

/-- The answer to a request for keys is parsed into the objects that were found, or not at
all when one of them was not. -/
def ParsesAnswer (self : Db) (keys : List CString) : Prop :=
  ∃ answer out, serve self (.get keys) = some (some answer, self) ∧
    dbClientGetObjects answer = some out ∧
    ((stored self).getAll keys = none ∧ out = none ∨
      ∃ objects table, (stored self).getAll keys = some objects ∧ out = some table ∧
        Represents ⟨table⟩ (Map.empty.insertAll objects))

/-- Every object is stored with the size of its own memory. -/
def Whole (self : Db) : Prop :=
  ∀ key object, self.hashtable key = some object →
    object = dbObjectNew object.data.length object.data

/-- A database that answers any messages. -/
def dbSystem : System Db (List Frame) where
  init self := self = dbInit
  step self msg := (dbMainLoop self msg).map (·.2)

variable {self self' : Db} {m : Map CString (List UInt8)}

theorem Whole.represents (h : Whole self) : Represents self (stored self) := by
  intro key
  cases hobject : self.hashtable key.chars with
  | none => simp [stored, hobject]
  | some object =>
    simp only [stored, hobject, Option.map_some]
    exact congrArg some (h _ _ hobject)

theorem Whole.insert (h : Whole self) (key : List UInt8) (object : DbObject)
    (hobject : object = dbObjectNew object.data.length object.data) :
    Whole (self.insert key object) := by
  intro other found hfound
  by_cases hkey : other = key
  · subst hkey
    have hnew := (Function.update_self ..).symm.trans hfound
    cases hnew
    exact hobject
  · exact h other found ((Function.update_of_ne hkey _ _).symm.trans hfound)

theorem Whole.delete (h : Whole self) (key : List UInt8) : Whole (self.delete key) := by
  intro other found hfound
  by_cases hkey : other = key
  · subst hkey
    have hnew := (Function.update_self ..).symm.trans hfound
    cases hnew
  · exact h other found ((Function.update_of_ne hkey _ _).symm.trans hfound)

theorem dbUpdateOne_whole (h : Whole self) {key data : List UInt8}
    (hupdate : dbUpdateOne self key data = some self') : Whole self' := by
  unfold dbUpdateOne at hupdate
  cases hobject : self.hashtable key with
  | none =>
    rw [hobject] at hupdate
    cases hupdate
    exact h.insert _ _ (by simp)
  | some object =>
    simp only [hobject, DbObject.overwrite] at hupdate
    split_ifs at hupdate with hfits
    · cases hupdate
      have hlen : (data ++ object.data.drop data.length).length = object.data.length := by
        rw [List.length_append, List.length_drop]
        omega
      refine h.insert _ _ ?_
      rw [dbObjectNew_length, hlen]
      have hwhole := h key object hobject
      rw [dbObjectNew_length] at hwhole
      rw [hwhole]
    · cases hupdate

theorem dbUpdateFrames_whole (h : Whole self) (msg : List Frame) {status : Bool}
    (hframes : dbUpdateFrames msg self = some (status, self')) : Whole self' := by
  fun_induction dbUpdateFrames msg self with
  | case1 self =>
    cases hframes
    exact h
  | case2 self keyFrame =>
    obtain ⟨_, _, hframes⟩ := Option.bind_eq_some_iff.mp hframes
    cases hframes
    exact h
  | case3 self keyFrame objectFrame msg ih =>
    obtain ⟨key, _, hframes⟩ := Option.bind_eq_some_iff.mp hframes
    obtain ⟨updated, hupdate, hframes⟩ := Option.bind_eq_some_iff.mp hframes
    exact ih updated (dbUpdateOne_whole h hupdate) hframes

theorem dbRemoveFrames_whole (h : Whole self) (msg : List Frame)
    (hframes : dbRemoveFrames msg self = some self') : Whole self' := by
  induction msg generalizing self with
  | nil =>
    cases hframes
    exact h
  | cons keyFrame msg ih =>
    obtain ⟨key, _, hframes⟩ := Option.bind_eq_some_iff.mp hframes
    exact ih (h.delete key) hframes

theorem dbGetArray_whole (h : Whole self) {msg out : List Frame} {status : Bool}
    (hget : dbGetArray self msg = some (status, out, self')) : Whole self' := by
  obtain ⟨result, _, hget⟩ := Option.bind_eq_some_iff.mp hget
  cases hget
  exact h

theorem dbUpdateArray_whole (h : Whole self) {msg out : List Frame} {status : Bool}
    (hupdate : dbUpdateArray self msg = some (status, out, self')) : Whole self' := by
  obtain ⟨result, hframes, hupdate⟩ := Option.bind_eq_some_iff.mp hupdate
  cases hupdate
  exact dbUpdateFrames_whole h msg hframes

theorem dbRemoveArray_whole (h : Whole self) {msg out : List Frame} {status : Bool}
    (hremove : dbRemoveArray self msg = some (status, out, self')) : Whole self' := by
  obtain ⟨result, hframes, hremove⟩ := Option.bind_eq_some_iff.mp hremove
  cases hremove
  exact dbRemoveFrames_whole h msg hframes

theorem dbHandlePacket_whole (h : Whole self) {packetType : ℕ} {msg out : List Frame}
    (hhandle : dbHandlePacket self packetType msg = some (out, self')) : Whole self' := by
  unfold dbHandlePacket at hhandle
  split at hhandle
  · obtain ⟨result, hupdate, hresult⟩ := Option.map_eq_some_iff.mp hhandle
    cases hresult
    exact dbUpdateArray_whole h hupdate
  · obtain ⟨result, hupdate, hresult⟩ := Option.map_eq_some_iff.mp hhandle
    cases hresult
    exact dbUpdateArray_whole h hupdate
  · obtain ⟨result, hget, hresult⟩ := Option.map_eq_some_iff.mp hhandle
    cases hresult
    exact dbGetArray_whole h hget
  · obtain ⟨result, hget, hresult⟩ := Option.map_eq_some_iff.mp hhandle
    cases hresult
    exact dbGetArray_whole h hget
  · obtain ⟨result, hremove, hresult⟩ := Option.map_eq_some_iff.mp hhandle
    cases hresult
    exact dbRemoveArray_whole h hremove
  · obtain ⟨result, hremove, hresult⟩ := Option.map_eq_some_iff.mp hhandle
    cases hresult
    exact dbRemoveArray_whole h hremove
  · cases hhandle
    exact h

theorem dbMainLoop_whole (h : Whole self) {msg : List Frame} {out : Option (List Frame)}
    (hloop : dbMainLoop self msg = some (out, self')) : Whole self' := by
  cases msg with
  | nil =>
    cases hloop
    exact h
  | cons packetTypeFrame msg =>
    obtain ⟨packetType, _, hloop⟩ := Option.bind_eq_some_iff.mp hloop
    obtain ⟨result, hhandle, hloop⟩ := Option.bind_eq_some_iff.mp hloop
    cases hloop
    exact dbHandlePacket_whole h hhandle

theorem dbSystem_whole : Inductive dbSystem (fun _ _ => True) Whole where
  init self hself := by
    rintro key object hobject
    cases hself
    cases hobject
  step self msg self' h _ hstep := by
    obtain ⟨⟨out, after⟩, hloop, hafter⟩ := Option.map_eq_some_iff.mp hstep
    cases hafter
    exact dbMainLoop_whole h hloop

/-- No frame of one byte has a type. -/
theorem dbMainLoop_requestHeader (self : Db) (packetType : DbPacketType) (msg : List Frame) :
    dbMainLoop self (requestHeader packetType :: msg) = none := by
  have hlen : (requestHeader packetType).length = 1 := by
    rw [requestHeader, List.length_take, leBytes_length]
    rfl
  rw [dbMainLoop, frameEnum, if_pos (by omega)]
  rfl

theorem not_decodes_requestHeader (self : Db) (packetType : DbPacketType) (msg : List Frame)
    (request : DbRequest) : ¬ Decodes self (requestHeader packetType :: msg) request := by
  rintro ⟨served, hloop, -⟩
  rw [dbMainLoop_requestHeader] at hloop
  cases hloop

/-- A key without its terminator is no string. -/
theorem frameString_chars (key : CString) : frameString key.chars = none :=
  if_neg key.noTerminator

/-- Behind a whole type, the handlers would stop at the first key. -/
theorem handlers_fault_on_chars (self : Db) (key : CString) (msg : List Frame) :
    dbGetArray self (key.chars :: msg) = none ∧ dbRemoveArray self (key.chars :: msg) = none ∧
      dbUpdateArray self (key.chars :: msg) = none := by
  refine ⟨?_, ?_, ?_⟩
  · rw [dbGetArray, dbGetFrames, frameString_chars]
    rfl
  · rw [dbRemoveArray, dbRemoveFrames, frameString_chars]
    rfl
  · cases msg with
    | nil =>
      rw [dbUpdateArray, dbUpdateFrames, frameString_chars]
      rfl
    | cons objectFrame msg =>
      rw [dbUpdateArray, dbUpdateFrames, frameString_chars]
      rfl

theorem takeWhile_chars (key : CString) : key.chars.takeWhile (· != 0) = key.chars :=
  List.takeWhile_eq_self_iff.mpr fun b hb => by
    simpa using fun h : b = 0 => key.noTerminator (h ▸ hb)

/-- Keys that are new to the table, each once, are put in. -/
theorem dbClientObjects_of_nodup {out : HashTable} (h : Represents ⟨out⟩ m)
    (objects : List (CString × List UInt8)) (hnodup : (objects.map Prod.fst).Nodup)
    (hnew : ∀ key ∈ objects.map Prod.fst, m key = none) :
    ∃ table, dbClientObjects (objectFrames objects) out = some table ∧
      Represents ⟨table⟩ (m.insertAll objects) := by
  induction objects generalizing out m with
  | nil => exact ⟨out, rfl, h⟩
  | cons object objects ih =>
    rw [List.map_cons, List.nodup_cons] at hnodup
    have hfree : out object.1.chars = none := by
      simpa [hnew object.1 (by simp)] using h object.1
    have hnew' : ∀ key ∈ objects.map Prod.fst,
        Function.update m object.1 (some object.2) key = none := fun key hkey => by
      have hne : key ≠ object.1 := fun hk => hnodup.1 (hk ▸ hkey)
      rw [Function.update_of_ne hne]
      exact hnew key (List.mem_cons_of_mem _ hkey)
    obtain ⟨table, hrest, htable⟩ := ih (h.insert object.1 object.2) hnodup.2 hnew'
    refine ⟨table, ?_, htable⟩
    rw [objectFrames, List.flatMap_cons, List.cons_append, List.cons_append, List.nil_append,
      dbClientObjects, takeWhile_chars, hfree, dbObjectNew_length]
    exact hrest

/-- A key that is in the table is not put in again. -/
theorem nodup_of_dbClientObjects {out table : HashTable} (h : Represents ⟨out⟩ m)
    (objects : List (CString × List UInt8))
    (hparsed : dbClientObjects (objectFrames objects) out = some table) :
    (objects.map Prod.fst).Nodup ∧ ∀ key ∈ objects.map Prod.fst, m key = none := by
  induction objects generalizing out m with
  | nil => simp
  | cons object objects ih =>
    have hlookup : out object.1.chars = _ := h object.1
    rw [objectFrames, List.flatMap_cons, List.cons_append, List.cons_append, List.nil_append,
      dbClientObjects, takeWhile_chars, hlookup, dbObjectNew_length] at hparsed
    cases hm : m object.1 with
    | some bytes =>
      rw [hm] at hparsed
      cases hparsed
    | none =>
      rw [hm] at hparsed
      obtain ⟨hnodup, hnew⟩ := ih (h.insert object.1 object.2) hparsed
      have hfresh : object.1 ∉ objects.map Prod.fst := fun hmem => by
        simpa using hnew object.1 hmem
      refine ⟨List.nodup_cons.mpr ⟨hfresh, hnodup⟩, fun key hkey => ?_⟩
      rcases List.mem_cons.mp hkey with hkey | hkey
      · exact hkey ▸ hm
      · have hne : key ≠ object.1 := fun hk => hfresh (hk ▸ hkey)
        have hrest := hnew key hkey
        rwa [Function.update_of_ne hne] at hrest

theorem serve_get (h : Represents self m) (keys : List CString) :
    serve self (.get keys) = some (some ((m.getAll keys).elim [statusFrame .cannotGet]
      fun objects => statusFrame .success :: objectFrames objects), self) := by
  rw [serve, dbHandle, dbGetArray, dbGetFrames_represents h]
  cases m.getAll keys <;> rfl

theorem dbClientGetObjects_cannotGet :
    dbClientGetObjects [statusFrame .cannotGet] = some none := rfl

theorem parsesAnswer_iff (h : Whole self) (keys : List CString) :
    ParsesAnswer self keys ↔ (stored self).getAll keys = none ∨ keys.Nodup := by
  have hserve := serve_get h.represents keys
  cases hfound : (stored self).getAll keys with
  | none =>
    rw [hfound] at hserve
    exact ⟨fun _ => .inl rfl,
      fun _ => ⟨_, _, hserve, dbClientGetObjects_cannotGet, .inl ⟨hfound, rfl⟩⟩⟩
  | some objects =>
    rw [hfound] at hserve
    have hkeys := Map.map_fst_of_getAll _ hfound
    constructor
    · rintro ⟨answer, out, hanswer, hparsed, hout⟩
      rw [hserve] at hanswer
      cases hanswer
      rcases hout with ⟨hnone, -⟩ | ⟨objects', table, hfound', rfl, -⟩
      · rw [hfound] at hnone
        cases hnone
      · have htable : dbClientObjects (objectFrames objects) _ = some table :=
          Option.some.inj hparsed
        exact .inr (hkeys ▸ (nodup_of_dbClientObjects represents_init objects htable).1)
    · rintro (hnone | hnodup)
      · cases hnone
      · obtain ⟨table, hparsed, htable⟩ := dbClientObjects_of_nodup represents_init objects
          (hkeys ▸ hnodup) fun _ _ => rfl
        exact ⟨_, _, hserve, congrArg some hparsed, .inr ⟨objects, table, hfound, rfl, htable⟩⟩

/-- No message of the client is decoded, whatever it asks for. An answer is parsed unless it
has an object twice. -/
theorem client_and_server_disagree (keyIdx : ℕ) (keys : List CString)
    (objects : List (CString × DbObject)) {self : Db} (hself : Reachable dbSystem self) :
    ¬ Decodes self (dbClientRequestObjects keyIdx keys) (.get keys) ∧
      ¬ Decodes self (dbClientRemoveObjects keyIdx keys) (.remove keys) ∧
      (∀ message, dbClientUpdateObjects objects = some message →
        ¬ Decodes self message (.update (objects.map fun object =>
          (object.1, object.2.data.take object.2.dataSize)))) ∧
      (ParsesAnswer self keys ↔ (stored self).getAll keys = none ∨ keys.Nodup) := by
  refine ⟨not_decodes_requestHeader _ _ _ _, not_decodes_requestHeader _ _ _ _,
    fun message hmessage => ?_, parsesAnswer_iff (dbSystem_whole.reachable hself) keys⟩
  obtain ⟨frames, _, hmessage⟩ := Option.bind_eq_some_iff.mp hmessage
  cases hmessage
  exact not_decodes_requestHeader _ _ _ _

/-- The empty database is asked for one key, and for the same key twice. -/
theorem client_and_server_disagree_on_keyK :
    ¬ Decodes dbInit (dbClientRequestObjects 0 [keyK]) (.get [keyK]) ∧
      ParsesAnswer dbInit [keyK, keyK] := by
  have h := client_and_server_disagree 0 [keyK] [] (.init rfl : Reachable dbSystem dbInit)
  have h' := client_and_server_disagree 0 [keyK, keyK] [] (.init rfl : Reachable dbSystem dbInit)
  exact ⟨h.1, h'.2.2.2.mpr (.inl rfl)⟩

/-- The header of a request for `k` has one byte, and the key no terminator. -/
theorem request_for_keyK_is_no_message :
    dbClientRequestObjects 0 [keyK] = [[3], [107]] ∧
      dbMainLoop dbInit (dbClientRequestObjects 0 [keyK]) = none ∧
      ¬ Decodes dbInit (dbClientRequestObjects 0 [keyK]) (.get [keyK]) :=
  ⟨by decide, dbMainLoop_requestHeader .., not_decodes_requestHeader _ _ _ _⟩

end R1Emu.Storage
