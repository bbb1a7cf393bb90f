import R1Emu.Packet.Stream
import Mathlib.Data.List.TakeWhile

/-!
# Optional properties

An object has optional properties, each with an id of its own: a float, or a string with its
size. A property that is present is written as its id and its value, a property that is
absent is not written at all. The decoder peeks at the next two bytes and takes the
property for absent when they are not its id. For a string that is present it measures the
memory that it has just allocated, before anything is in it.
-/
namespace R1Emu.Property
open R1Emu.Lib.Bytes R1Emu.Packet R1Emu.Packet.PacketStream

/-- The characters of a C string, without its terminator. -/
@[ext]
structure CString where
  chars : List UInt8
  noTerminator : (0 : UInt8) ∉ chars

inductive PropertyFormat
  | float
  | string
  deriving DecidableEq, Repr

/-- A value: the bits of a float, or a string. -/
inductive PropertyValue
  | float (bits : UInt32)
  | string (value : CString)

def PropertyValue.format : PropertyValue → PropertyFormat
  | .float _ => .float
  | .string _ => .string

/-- `PropertyFloatSPacket`. -/
def propertyFloatSPacket (id : ℕ) (value : UInt32) : List UInt8 :=
  leBytes 2 id ++ leBytes 4 value.toNat

/-- `PropertyStringSPacket`: the size counts the terminator and has sixteen bits. -/
def propertyStringSPacket (id : ℕ) (value : CString) : List UInt8 :=
  leBytes 2 id ++ leBytes 2 (value.chars.length + 1) ++ (value.chars ++ [0])

def propertyFloatSerializeSPacket (id : ℕ) (value : Option UInt32) (stream : PacketStream) :
    PacketStream :=
  match value with
  | none => stream
  | some v => stream.packetStreamAppend (propertyFloatSPacket id v)

def propertyStringSerializeSPacket (id : ℕ) (value : Option CString) (stream : PacketStream) :
    PacketStream :=
  match value with
  | none => stream
  | some v => stream.packetStreamAppend (propertyStringSPacket id v)

/-- The float stored, if the property is found. Getting past the stream's size leaves the
output packet uninitialised. -/
def propertyFloatUnserializeSPacket (id : ℕ) : Unserialize (Option UInt32) := do
  let head ← peek 2
  if leValue head ≠ id then return none
  match ← packetStreamGet 6 with
  | none => fault .uninitialised
  | some output => return some (UInt32.ofNat (leValue (output.drop 2)))

/-- The characters in front of the first terminator; without one the string runs on. -/
def cString (bytes : List UInt8) : Unserialize CString :=
  if _ : (0 : UInt8) ∈ bytes then
    return ⟨bytes.takeWhile (· != 0), fun h => by simpa using List.mem_takeWhile_imp h⟩
  else fault .unterminated

/-- A block of memory, byte by byte: a byte that nothing has been written to has no value. -/
abbrev Block := List (Option UInt8)

def malloc (size : ℕ) : Block := List.replicate size none

/-- The length of the string that a block holds. -/
def strlen : Block → Unserialize ℕ
  | [] => fault .outOfBounds
  | none :: _ => fault .uninitialised
  | some c :: block => if c = 0 then return 0 else return (← strlen block) + 1

/-- The string stored, if the property is found. The size is read from the packet before
the packet itself. The size that the stream is told to expect is the one of the string in the
new block, which nothing has been copied into yet. -/
def propertyStringUnserializeSPacket (id : ℕ) : Unserialize (Option CString) := do
  let head ← peek 2
  if leValue head ≠ id then return none
  let packet ← peek 4
  let valueSize := leValue (packet.drop 2)
  let value := malloc valueSize
  let _ ← strlen value
  match ← packetStreamGet (4 + valueSize) with
  | none => fault .uninitialised
  | some output => return some (← cString (output.drop 4))

/-- A property of an object of type `σ`. -/
structure PropertyField (σ : Type) where
  id : ℕ
  format : PropertyFormat
  get : σ → Option PropertyValue
  set : PropertyValue → σ → σ

def floatProperty {σ : Type} (id : ℕ) (get : σ → Option UInt32) (set : UInt32 → σ → σ) :
    PropertyField σ where
  id := id
  format := .float
  get x := (get x).map .float
  set v x := match v with
    | .float bits => set bits x
    | .string _ => x

def stringProperty {σ : Type} (id : ℕ) (get : σ → Option CString) (set : CString → σ → σ) :
    PropertyField σ where
  id := id
  format := .string
  get x := (get x).map .string
  set v x := match v with
    | .float _ => x
    | .string s => set s x

def propertySPacket (id : ℕ) : PropertyValue → List UInt8
  | .float bits => propertyFloatSPacket id bits
  | .string s => propertyStringSPacket id s

variable {σ : Type}

def PropertyField.serialize (p : PropertyField σ) (x : σ) (stream : PacketStream) : PacketStream :=
  match p.get x with
  | none => stream
  | some (.float bits) => propertyFloatSerializeSPacket p.id (some bits) stream
  | some (.string s) => propertyStringSerializeSPacket p.id (some s) stream

def PropertyField.unserialize (p : PropertyField σ) (x : σ) : Unserialize σ :=
  match p.format with
  | .float => do
    match ← propertyFloatUnserializeSPacket p.id with
    | none => return x
    | some bits => return p.set (.float bits) x
  | .string => do
    match ← propertyStringUnserializeSPacket p.id with
    | none => return x
    | some s => return p.set (.string s) x

/-- `PropertyFloatCPacket` has the fields of the server packet. -/
def propertyFloatSerializeCPacket : ℕ → Option UInt32 → PacketStream → PacketStream :=
  propertyFloatSerializeSPacket

/-- `PropertyStringCPacket` has the fields of the server packet. -/
def propertyStringSerializeCPacket : ℕ → Option CString → PacketStream → PacketStream :=
  propertyStringSerializeSPacket

def PropertyField.serializeCPacket (p : PropertyField σ) (x : σ) (stream : PacketStream) :
    PacketStream :=
  match p.get x with
  | none => stream
  | some (.float bits) => propertyFloatSerializeCPacket p.id (some bits) stream
  | some (.string s) => propertyStringSerializeCPacket p.id (some s) stream

def serializePropertiesCPacket : List (PropertyField σ) → σ → PacketStream → PacketStream
  | [], _, stream => stream
  | p :: ps, x, stream => serializePropertiesCPacket ps x (p.serializeCPacket x stream)

def serializeProperties : List (PropertyField σ) → σ → PacketStream → PacketStream
  | [], _, stream => stream
  | p :: ps, x, stream => serializeProperties ps x (p.serialize x stream)

def unserializeProperties : List (PropertyField σ) → σ → Unserialize σ
  | [], x => return x
  | p :: ps, x => do
    let x ← p.unserialize x
    unserializeProperties ps x

/-- What a property contributes to the encoding. -/
def propertyBytes (entry : ℕ × Option PropertyValue) : List UInt8 :=
  match entry.2 with
  | none => []
  | some v => propertySPacket entry.1 v

/-- The properties of an object, in the order of its table. -/
def entries (table : List (PropertyField σ)) (x : σ) : List (ℕ × Option PropertyValue) :=
  table.map fun p => (p.id, p.get x)

/-- The ids of the absent properties behind the last one present. -/
def trailingAbsent : List (ℕ × Option PropertyValue) → List ℕ
  | [] => []
  | e :: es =>
    if e.2.isNone ∧ es.all (·.2.isNone) then e.1 :: trailingAbsent es else trailingAbsent es

/-- No string is present, only floats. -/
def NoStrings (entries : List (ℕ × Option PropertyValue)) : Prop :=
  ∀ e ∈ entries, ∀ v, e.2 = some v → v.format = .float

/-- No string is present, and no absent property is read into what follows the object. -/
structure Framed (entries : List (ℕ × Option PropertyValue)) (following : List UInt8) : Prop where
  floats : NoStrings entries
  clear : ∀ id ∈ trailingAbsent entries,
    2 ≤ following.length ∧ leValue (following.take 2) ≠ id

theorem propertySPacket_length (id : ℕ) (v : PropertyValue) :
    2 ≤ (propertySPacket id v).length := by
  cases v <;> simp [propertySPacket, propertyFloatSPacket, propertyStringSPacket]

theorem propertySPacket_head {id : ℕ} (h : id < 2 ^ 16) (v : PropertyValue) (f : List UInt8) :
    leValue ((propertySPacket id v ++ f).take 2) = id := by
  have hid : (leBytes 2 id).length = 2 := leBytes_length 2 id
  cases v <;>
    simp only [propertySPacket, propertyFloatSPacket, propertyStringSPacket, List.append_assoc] <;>
    rw [List.take_left' hid, leValue_leBytes_of_lt h]

/-- A new block holds no string. -/
theorem strlen_malloc (size : ℕ) (stream : PacketStream) :
    ∃ e, strlen (malloc size) stream = .error e := by
  cases size with
  | zero => exact ⟨.outOfBounds, rfl⟩
  | succ n => exact ⟨.uninitialised, rfl⟩

section Field
variable {stream stream' : PacketStream} {id : ℕ} {f : List UInt8}

private theorem peek_head {bs : List UInt8} (h : 2 ≤ bs.length) (hrest : stream.rest = bs ++ f) :
    peek 2 stream = .ok (bs.take 2, stream) := by
  rw [peek_ok (by decide) (by rw [hrest, List.length_append]; omega), hrest,
    List.take_append_of_le_length h]

/-- Another property's id, or none, is next: the property is not found. -/
theorem float_skip (h : 2 ≤ stream.rest.length) (hid : leValue (stream.rest.take 2) ≠ id) :
    propertyFloatUnserializeSPacket id stream = .ok (none, stream) := by
  rw [propertyFloatUnserializeSPacket, bind_ok (peek_ok (by decide) h), if_pos hid]
  rfl

theorem string_skip (h : 2 ≤ stream.rest.length) (hid : leValue (stream.rest.take 2) ≠ id) :
    propertyStringUnserializeSPacket id stream = .ok (none, stream) := by
  rw [propertyStringUnserializeSPacket, bind_ok (peek_ok (by decide) h), if_pos hid]
  rfl

/-- With its id next, a property is found or the decoder ends in a fault. -/
theorem float_match {r : Option UInt32} (h : 2 ≤ stream.rest.length)
    (hid : leValue (stream.rest.take 2) = id)
    (hu : propertyFloatUnserializeSPacket id stream = .ok (r, stream')) :
    stream.position < stream'.position ∧ ∃ bits, r = some bits := by
  rw [propertyFloatUnserializeSPacket, bind_ok (peek_ok (by decide) h),
    if_neg (not_not.mpr hid)] at hu
  obtain ⟨output, t, hget, hu⟩ := bind_eq_ok hu
  cases output with
  | none => cases hu
  | some output =>
    cases hu
    have hpos := packetStreamGet_position hget
    exact ⟨by omega, _, rfl⟩

/-- A string whose id is next ends the decoder, whatever stands behind the id. -/
theorem string_fault (h : 2 ≤ stream.rest.length) (hid : leValue (stream.rest.take 2) = id) :
    ∃ e, propertyStringUnserializeSPacket id stream = .error e := by
  rw [propertyStringUnserializeSPacket, bind_ok (peek_ok (by decide) h),
    if_neg (not_not.mpr hid)]
  by_cases hsize : stream.rest.length < 4
  · exact ⟨.outOfBounds, bind_error (peek_error hsize) _⟩
  · rw [bind_ok (peek_ok (by decide) (not_lt.mp hsize))]
    obtain ⟨e, he⟩ := strlen_malloc (leValue ((stream.rest.take 4).drop 2)) stream
    exact ⟨e, bind_error he _⟩

theorem float_found {bits : UInt32} (hid : id < 2 ^ 16)
    (hrest : stream.rest = propertyFloatSPacket id bits ++ f)
    (hsize : stream.position + (propertyFloatSPacket id bits).length ≤ stream.size) :
    propertyFloatUnserializeSPacket id stream =
      .ok (some bits, stream.packetStreamAddOffset (propertyFloatSPacket id bits).length) := by
  have hlen : (propertyFloatSPacket id bits).length = 6 := by simp [propertyFloatSPacket]
  have hhead : leValue ((propertyFloatSPacket id bits).take 2) = id := by
    rw [← List.append_nil (propertyFloatSPacket id bits)]
    exact propertySPacket_head hid (.float bits) []
  have hval : leValue ((propertyFloatSPacket id bits).drop 2) = bits.toNat := by
    rw [propertyFloatSPacket, List.drop_left' (leBytes_length 2 id)]
    exact leValue_leBytes_of_lt bits.toNat_lt
  rw [propertyFloatUnserializeSPacket, bind_ok (peek_head (by omega) hrest),
    if_neg (not_not.mpr hhead),
    bind_ok (packetStreamGet_ok (by decide) (by rw [hrest, List.length_append]; omega)
      (by omega)), hrest, List.take_left' hlen, hlen]
  simp only [hval, UInt32.ofNat_toNat]
  rfl

end Field

end R1Emu.Property
