import R1Emu.Lib.Bytes
import R1Emu.Property

/-!
# The in-memory database

A hash table of objects behind a socket. An object has a buffer of its own and, beside it,
the size of its data. A request is a message of frames: the type of the packet, and keys,
each followed by an object when it is updated. Keys are read as strings, so that a key
without a terminator is read behind its frame; reading or writing behind a frame or a buffer
is a fault, and no result. There is memory for every new object: a request whose second object
could not be allocated would leave the first one stored.
-/
namespace R1Emu.Storage
open R1Emu.Lib.Bytes

abbrev Frame := List UInt8

/-- The data is the memory allocated for it. -/
structure DbObject where
  dataSize : ℕ
  data : List UInt8
  sharedMemory : Bool

structure Db where
  hashtable : List UInt8 → Option DbObject

inductive DbPacketType
  | updateObject
  | updateArray
  | getObject
  | getArray
  | removeObject
  | removeArray
  deriving DecidableEq, Repr

def DbPacketType.code : DbPacketType → ℕ
  | .updateObject => 0
  | .updateArray => 1
  | .getObject => 2
  | .getArray => 3
  | .removeObject => 4
  | .removeArray => 5

def DbPacketType.ofCode : ℕ → Option DbPacketType
  | 0 => some .updateObject
  | 1 => some .updateArray
  | 2 => some .getObject
  | 3 => some .getArray
  | 4 => some .removeObject
  | 5 => some .removeArray
  | _ => none

inductive DbStatus
  | success
  | cannotUpdate
  | cannotGet
  | cannotRemove
  deriving DecidableEq, Repr

def DbStatus.code : DbStatus → ℕ
  | .success => 0
  | .cannotUpdate => 1
  | .cannotGet => 2
  | .cannotRemove => 3

/-- `zmsg_addmem` of a status: an enumeration has four bytes. -/
def statusFrame (status : DbStatus) : Frame := leBytes 4 status.code

/-- The string in a frame. -/
def frameString (frame : Frame) : Option (List UInt8) :=
  if 0 ∈ frame then some (frame.takeWhile (· != 0)) else none

/-- An enumeration in a frame. -/
def frameEnum (frame : Frame) : Option ℕ :=
  if frame.length < 4 then none else some (leValue (frame.take 4))

def dbInit : Db := ⟨fun _ => none⟩

/-- A copy of the data, in memory of its size, for which there is room. -/
def dbObjectNew (dataSize : ℕ) (data : List UInt8) : DbObject := ⟨dataSize, data.take dataSize, false⟩

/-- `memcpy` to the front of the object's memory. Its size is left alone. -/
def DbObject.overwrite (self : DbObject) (data : List UInt8) : Option DbObject :=
  if data.length ≤ self.data.length then
    some { self with data := data ++ self.data.drop data.length }
  else none

/-- `zmsg_addmem` of the object's data. -/
def DbObject.read (self : DbObject) : Option (List UInt8) :=
  if self.dataSize ≤ self.data.length then some (self.data.take self.dataSize) else none

namespace Db

def insert (self : Db) (key : List UInt8) (object : DbObject) : Db :=
  ⟨Function.update self.hashtable key (some object)⟩

def delete (self : Db) (key : List UInt8) : Db := ⟨Function.update self.hashtable key none⟩

end Db

/-- One round of `dbUpdateArray`. -/
def dbUpdateOne (self : Db) (key data : List UInt8) : Option Db :=
  match self.hashtable key with
  | none => some (self.insert key (dbObjectNew data.length data))
  | some dbObject => do return self.insert key (← dbObject.overwrite data)

/-- Objects are updated until the message ends, or ends with a key. -/
def dbUpdateFrames : List Frame → Db → Option (Bool × Db)
  | [], self => some (true, self)
  | [keyFrame], self => do
    let _ ← frameString keyFrame
    return (false, self)
  | keyFrame :: objectFrame :: msg, self => do
    let key ← frameString keyFrame
    let self ← dbUpdateOne self key objectFrame
    dbUpdateFrames msg self

/-- The frames of the answer are taken back when the request fails. -/
def dbUpdateArray (self : Db) (msg : List Frame) : Option (Bool × List Frame × Db) := do
  let (status, self) ← dbUpdateFrames msg self
  return (status, if status then [statusFrame .success] else [], self)

/-- A key that is not found is reported, and removed all the same. -/
def dbRemoveFrames : List Frame → Db → Option Db
  | [], self => some self
  | keyFrame :: msg, self => do
    let key ← frameString keyFrame
    dbRemoveFrames msg (self.delete key)

def dbRemoveArray (self : Db) (msg : List Frame) : Option (Bool × List Frame × Db) := do
  return (true, [statusFrame .success], ← dbRemoveFrames msg self)

def dbGetFrames (self : Db) : List Frame → List Frame → Option (Bool × List Frame)
  | [], out => some (true, out)
  | keyFrame :: msg, out => do
    let key ← frameString keyFrame
    match self.hashtable key with
    | none => return (false, [])
    | some dbObject => dbGetFrames self msg (out ++ [key, ← dbObject.read])

def dbGetArray (self : Db) (msg : List Frame) : Option (Bool × List Frame × Db) := do
  let (status, out) ← dbGetFrames self msg [statusFrame .success]
  return (status, out, self)

/-- The answer of a request, with a status where it failed. -/
def withStatus (failed : DbStatus) (result : Bool × List Frame × Db) : List Frame × Db :=
  (if result.1 then result.2.1 else result.2.1 ++ [statusFrame failed], result.2.2)

/-- The switch of the main loop. A type that is not known is for a handler, which no database
has, and answered with nothing. -/
def dbHandlePacket (self : Db) (packetType : ℕ) (msg : List Frame) : Option (List Frame × Db) :=
  match DbPacketType.ofCode packetType with
  | some .updateObject | some .updateArray =>
    (dbUpdateArray self msg).map (withStatus .cannotUpdate)
  | some .getObject | some .getArray => (dbGetArray self msg).map (withStatus .cannotGet)
  | some .removeObject | some .removeArray =>
    (dbRemoveArray self msg).map (withStatus .cannotRemove)
  | none => some ([], self)

/-- One round of the main loop: an answer, unless the loop is left. -/
def dbMainLoop (self : Db) : List Frame → Option (Option (List Frame) × Db)
  | [] => some (none, self)
  | packetTypeFrame :: msg => do
    let packetType ← frameEnum packetTypeFrame
    let (out, self) ← dbHandlePacket self packetType msg
    return (some out, self)

end R1Emu.Storage
