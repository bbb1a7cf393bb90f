import R1Emu.Packet.Stream

/-!
# Records written field by field

A record is serialised by appending a fixed number of bytes of each of its fields, and
decoded by getting the same numbers into the fields of another record. What comes back are
the bytes that were written of each field, in whatever the other record held before.
-/
namespace R1Emu.Packet
open R1Emu.Lib.Bytes PacketStream

/-- The bytes of a field that `packetStreamIn` and `packetStreamOut` copy: as many as their
argument's `sizeof` says. -/
structure PacketField (σ : Type) where
  size : ℕ
  get : σ → List UInt8
  set : List UInt8 → σ → σ

variable {σ : Type}

def serializeFields : List (PacketField σ) → σ → PacketStream → PacketStream
  | [], _, stream => stream
  | f :: fs, x, stream => serializeFields fs x (stream.packetStreamAppend (f.get x))

/-- A field keeps its value when its bytes are not there. -/
def unserializeFields : List (PacketField σ) → σ → Unserialize σ
  | [], x => return x
  | f :: fs, x => do
    match ← packetStreamGet f.size with
    | none => unserializeFields fs x
    | some data => unserializeFields fs (f.set data x)

def fieldBytes (fs : List (PacketField σ)) (x : σ) : List UInt8 := fs.flatMap (·.get x)

/-- The fields of one record put into another one. -/
def copyFields (fs : List (PacketField σ)) (x y : σ) : σ := fs.foldl (fun y f => f.set (f.get x) y) y

theorem copyFields_append (fs gs : List (PacketField σ)) (x y : σ) :
    copyFields (fs ++ gs) x y = copyFields gs x (copyFields fs x y) := List.foldl_append

/-- Every field has its size, and is not empty. -/
def Sized (fs : List (PacketField σ)) : Prop := ∀ f ∈ fs, 0 < f.size ∧ ∀ x, (f.get x).length = f.size

theorem serializeFields_writes (fs : List (PacketField σ)) (x : σ) :
    Writes (serializeFields fs x) (fieldBytes fs x) := by
  induction fs with
  | nil => exact fun stream _ _ => (packetStreamAppend_nil stream).symm
  | cons f fs ih => exact (writes_append (f.get x)).comp ih

theorem fieldBytes_length {fs : List (PacketField σ)} (h : Sized fs) (x : σ) :
    (fieldBytes fs x).length = (fs.map (·.size)).sum := by
  rw [fieldBytes, List.length_flatMap]
  exact congrArg List.sum (List.map_congr_left fun f hf => (h f hf).2 x)

/-- Decoding what was written copies the fields. -/
theorem unserializeFields_ok {fs : List (PacketField σ)} (h : Sized fs) (x y : σ) {stream : PacketStream}
    {r : List UInt8} (hrest : stream.rest = fieldBytes fs x ++ r)
    (hroom : stream.position + (fieldBytes fs x).length ≤ stream.size) :
    unserializeFields fs y stream =
      .ok (copyFields fs x y, stream.packetStreamAddOffset (fieldBytes fs x).length) := by
  induction fs generalizing y stream with
  | nil => rfl
  | cons f fs ih =>
    obtain ⟨hpos, hsize⟩ := h f (List.mem_cons_self ..)
    rw [fieldBytes, List.flatMap_cons, List.append_assoc] at hrest
    rw [fieldBytes, List.flatMap_cons, List.length_append] at hroom
    have hget : packetStreamGet f.size stream =
        .ok (some (f.get x), stream.packetStreamAddOffset (f.get x).length) := by
      have hlen : f.size ≤ stream.rest.length := by
        rw [hrest, List.length_append, hsize x]
        omega
      rw [packetStreamGet_ok hpos hlen (by rw [← hsize x]; omega), hrest,
        List.take_left' (hsize x), hsize x]
    rw [unserializeFields, bind_ok hget]
    have hrest' : (stream.packetStreamAddOffset (f.get x).length).rest = fieldBytes fs x ++ r := by
      rw [packetStreamAddOffset_rest, hrest, List.drop_left]
      rfl
    have hroom' : (stream.packetStreamAddOffset (f.get x).length).position +
        (fieldBytes fs x).length ≤ (stream.packetStreamAddOffset (f.get x).length).size := by
      rw [packetStreamAddOffset_position, packetStreamAddOffset_size, Nat.add_assoc]
      exact hroom
    have htail := ih (fun g hg => h g (List.mem_cons_of_mem _ hg)) (f.set (f.get x) y) hrest' hroom'
    rw [packetStreamAddOffset_add] at htail
    rw [fieldBytes, List.flatMap_cons, List.length_append]
    exact htail

section Numbers
variable {x y : σ}

/-- An unsigned number of `n` bytes. -/
def numberField (n : ℕ) (get : σ → ℕ) (set : ℕ → σ → σ) : PacketField σ where
  size := n
  get x := leBytes n (get x)
  set data x := set (leValue data) x

def u8Field (get : σ → UInt8) (set : UInt8 → σ → σ) : PacketField σ :=
  numberField 1 (fun x => (get x).toNat) fun n x => set (UInt8.ofNat n) x

def u16Field (get : σ → UInt16) (set : UInt16 → σ → σ) : PacketField σ :=
  numberField 2 (fun x => (get x).toNat) fun n x => set (UInt16.ofNat n) x

def u32Field (get : σ → UInt32) (set : UInt32 → σ → σ) : PacketField σ :=
  numberField 4 (fun x => (get x).toNat) fun n x => set (UInt32.ofNat n) x

def u64Field (get : σ → UInt64) (set : UInt64 → σ → σ) : PacketField σ :=
  numberField 8 (fun x => (get x).toNat) fun n x => set (UInt64.ofNat n) x

/-- Copying a number that fits its field sets it. -/
theorem numberField_copy {n : ℕ} {get : σ → ℕ} {set : ℕ → σ → σ} (h : get x < 256 ^ n) :
    (numberField n get set).set ((numberField n get set).get x) y = set (get x) y := by
  simp only [numberField, leValue_leBytes_of_lt h]

@[simp] theorem u8Field_copy (get : σ → UInt8) (set : UInt8 → σ → σ) :
    (u8Field get set).set ((u8Field get set).get x) y = set (get x) y := by
  rw [u8Field, numberField_copy (get x).toNat_lt, UInt8.ofNat_toNat]

@[simp] theorem u16Field_copy (get : σ → UInt16) (set : UInt16 → σ → σ) :
    (u16Field get set).set ((u16Field get set).get x) y = set (get x) y := by
  rw [u16Field, numberField_copy (get x).toNat_lt, UInt16.ofNat_toNat]

@[simp] theorem u32Field_copy (get : σ → UInt32) (set : UInt32 → σ → σ) :
    (u32Field get set).set ((u32Field get set).get x) y = set (get x) y := by
  rw [u32Field, numberField_copy (get x).toNat_lt, UInt32.ofNat_toNat]

@[simp] theorem u64Field_copy (get : σ → UInt64) (set : UInt64 → σ → σ) :
    (u64Field get set).set ((u64Field get set).get x) y = set (get x) y := by
  rw [u64Field, numberField_copy (get x).toNat_lt, UInt64.ofNat_toNat]

end Numbers

/-- `variableSizePacketHeaderInit`: the type, an unused field and the size in sixteen bits. -/
def variableSizeHeader (packetType packetSize : ℕ) : List UInt8 :=
  leBytes 2 packetType ++ (leBytes 4 (2 ^ 32 - 1) ++ leBytes 2 packetSize)

end R1Emu.Packet
