import R1Emu.Lib.Bytes

/-!
# Packet streams

A packet stream is a buffer with the position of the next access. Appending and getting are
checked against the stream's size and do nothing when it does not suffice; looking at the
current buffer is not checked. The buffer lists the bytes that may be read at all, so that
a read behind them is a fault.
-/
namespace R1Emu.Packet
open R1Emu.Lib.Bytes

structure PacketStream where
  buffer : List UInt8
  size : ℕ
  position : ℕ

/-- What ends a decoder without a result. -/
inductive Fault
  | outOfBounds
  | uninitialised
  | nullDereference
  | unterminated
  deriving DecidableEq, Repr

abbrev Unserialize := StateT PacketStream (Except Fault)

namespace PacketStream

def packetStreamInit (buffer : List UInt8) (size : ℕ) : PacketStream := ⟨buffer, size, 0⟩

/-- Write the data at the position and move behind it, if the size allows. -/
def packetStreamAppend (self : PacketStream) (data : List UInt8) : PacketStream :=
  if self.size < self.position + data.length then self
  else
    { self with
      buffer := self.buffer.take self.position ++ data ++
        self.buffer.drop (self.position + data.length)
      position := self.position + data.length }

/-- The bytes from the current position on. -/
def rest (self : PacketStream) : List UInt8 := self.buffer.drop self.position

@[simp] theorem packetStreamInit_rest (buffer : List UInt8) (size : ℕ) :
    (packetStreamInit buffer size).rest = buffer := rfl

def packetStreamAddOffset (self : PacketStream) (offset : ℕ) : PacketStream :=
  { self with position := self.position + offset }

@[simp] theorem packetStreamAddOffset_rest (self : PacketStream) (n : ℕ) :
    (self.packetStreamAddOffset n).rest = self.rest.drop n := by
  simp [packetStreamAddOffset, rest, List.drop_drop]

@[simp] theorem packetStreamAddOffset_size (self : PacketStream) (n : ℕ) :
    (self.packetStreamAddOffset n).size = self.size := rfl

@[simp] theorem packetStreamAddOffset_position (self : PacketStream) (n : ℕ) :
    (self.packetStreamAddOffset n).position = self.position + n := rfl

theorem packetStreamAddOffset_add (self : PacketStream) (m n : ℕ) :
    (self.packetStreamAddOffset m).packetStreamAddOffset n =
      self.packetStreamAddOffset (m + n) := by
  simp [packetStreamAddOffset, Nat.add_assoc]

@[simp] theorem packetStreamAppend_nil (self : PacketStream) :
    self.packetStreamAppend [] = self := by
  simp [packetStreamAppend]

/-- Two appends with room for both write what one append of the concatenation writes. -/
theorem packetStreamAppend_append (self : PacketStream) {a b : List UInt8}
    (hbuffer : self.size ≤ self.buffer.length)
    (h : self.position + (a ++ b).length ≤ self.size) :
    (self.packetStreamAppend a).packetStreamAppend b = self.packetStreamAppend (a ++ b) := by
  rw [List.length_append] at h
  have ha : ¬ self.size < self.position + a.length := by omega
  have hab : ¬ self.size < self.position + (a ++ b).length := by
    rw [List.length_append]
    omega
  have hb : ¬ self.size < self.position + a.length + b.length := by omega
  have htake : (self.buffer.take self.position ++ a).length = self.position + a.length := by
    rw [List.length_append, List.length_take]
    omega
  have h1 : (self.buffer.take self.position ++ a ++ self.buffer.drop (self.position + a.length)).take
      (self.position + a.length) = self.buffer.take self.position ++ a := List.take_left' htake
  have h2 : (self.buffer.take self.position ++ a ++ self.buffer.drop (self.position + a.length)).drop
      (self.position + a.length + b.length) =
        self.buffer.drop (self.position + (a ++ b).length) := by
    rw [← List.drop_drop, List.drop_left' htake, List.drop_drop, List.length_append, Nat.add_assoc]
  simp only [packetStreamAppend, if_neg ha, if_neg hab, if_neg hb]
  rw [h1, h2, List.append_assoc (self.buffer.take self.position), List.length_append,
    Nat.add_assoc]

/-- An append that fits leaves the size alone and moves the position. -/
theorem packetStreamAppend_room {self : PacketStream} (a : List UInt8)
    (hbuffer : self.size ≤ self.buffer.length) (h : self.position + a.length ≤ self.size) :
    (self.packetStreamAppend a).buffer.length = self.buffer.length ∧
      (self.packetStreamAppend a).size = self.size ∧
      (self.packetStreamAppend a).position = self.position + a.length := by
  have ha : ¬ self.size < self.position + a.length := by omega
  simp only [packetStreamAppend, if_neg ha, List.length_append, List.length_take,
    List.length_drop, and_self, and_true]
  omega

/-- Write through a pointer into the buffer, without a check of the stream's size. -/
def store (self : PacketStream) (start : ℕ) (data : List UInt8) : Option PacketStream :=
  if start + data.length ≤ self.buffer.length then
    some { self with
      buffer := self.buffer.take start ++ data ++ self.buffer.drop (start + data.length) }
  else none

/-- Filling a structure at the position and moving behind it is an append, if there is room. -/
theorem store_addOffset {self : PacketStream} (data : List UInt8)
    (hbuffer : self.size ≤ self.buffer.length) (h : self.position + data.length ≤ self.size) :
    (self.store self.position data).map (·.packetStreamAddOffset data.length) =
      some (self.packetStreamAppend data) := by
  have hroom : self.position + data.length ≤ self.buffer.length := by omega
  have happend : ¬ self.size < self.position + data.length := by omega
  simp [store, if_pos hroom, packetStreamAppend, if_neg happend, packetStreamAddOffset]

/-- What is stored takes the place of as many bytes. -/
theorem store_replaces {self : PacketStream} {a b c data : List UInt8}
    (hbuffer : self.buffer = a ++ (b ++ c)) (hdata : data.length = b.length) :
    self.store a.length data = some { self with buffer := a ++ (data ++ c) } := by
  have hroom : a.length + data.length ≤ self.buffer.length := by
    rw [hbuffer, List.length_append, List.length_append]
    omega
  rw [store, if_pos hroom, hbuffer, List.take_left, ← List.drop_drop, List.drop_left, hdata,
    List.drop_left, List.append_assoc]

/-- What is appended takes the place of as many bytes at the position. -/
theorem packetStreamAppend_replaces {self : PacketStream} {a b c data : List UInt8}
    (hbuffer : self.buffer = a ++ (b ++ c)) (hposition : self.position = a.length)
    (hdata : data.length = b.length) (h : self.position + data.length ≤ self.size) :
    self.packetStreamAppend data =
      { self with buffer := a ++ (data ++ c), position := self.position + data.length } := by
  have hroom : ¬ self.size < self.position + data.length := by omega
  rw [packetStreamAppend, if_neg hroom, hbuffer, hposition, List.take_left, ← List.drop_drop,
    List.drop_left, hdata, List.drop_left, List.append_assoc]

/-- With room for them, the serialiser appends exactly these bytes. -/
def Writes (w : PacketStream → PacketStream) (bytes : List UInt8) : Prop :=
  ∀ stream, stream.size ≤ stream.buffer.length →
    stream.position + bytes.length ≤ stream.size → w stream = stream.packetStreamAppend bytes

theorem writes_append (bytes : List UInt8) : Writes (·.packetStreamAppend bytes) bytes :=
  fun _ _ _ => rfl

/-- With room for them, the serialiser does not fail and appends exactly these bytes. -/
def WritesSome (w : PacketStream → Option PacketStream) (bytes : List UInt8) : Prop :=
  ∀ stream, stream.size ≤ stream.buffer.length →
    stream.position + bytes.length ≤ stream.size →
      w stream = some (stream.packetStreamAppend bytes)

theorem Writes.writesSome {w : PacketStream → PacketStream} {a : List UInt8} (hw : Writes w a) :
    WritesSome (fun stream => some (w stream)) a :=
  fun stream hbuffer h => congrArg some (hw stream hbuffer h)

/-- What two serialisers append, one after the other. -/
theorem WritesSome.bind {w w' : PacketStream → Option PacketStream} {a b : List UInt8}
    (hw : WritesSome w a) (hw' : WritesSome w' b) :
    WritesSome (fun stream => (w stream).bind w') (a ++ b) := by
  intro stream hbuffer h
  have hroom := h
  rw [List.length_append] at hroom
  obtain ⟨hb, hs, hp⟩ := packetStreamAppend_room a hbuffer (by omega)
  simp only [hw stream hbuffer (by omega), Option.bind_some]
  rw [hw' _ (by omega) (by omega), packetStreamAppend_append _ hbuffer h]

theorem Writes.comp {w w' : PacketStream → PacketStream} {a b : List UInt8} (hw : Writes w a)
    (hw' : Writes w' b) : Writes (fun stream => w' (w stream)) (a ++ b) :=
  fun stream hbuffer h => Option.some.inj ((hw.writesSome.bind hw'.writesSome) stream hbuffer h)

/-- What has been written: the buffer up to the position. -/
def written (self : PacketStream) : List UInt8 := self.buffer.take self.position

theorem written_append (buffer data : List UInt8) (h : data.length ≤ buffer.length) :
    ((packetStreamInit buffer buffer.length).packetStreamAppend data).written = data := by
  have hn : ¬ buffer.length < data.length := by omega
  simp [packetStreamInit, packetStreamAppend, hn, written]

/-- What is written into a fresh buffer. -/
theorem WritesSome.written {w : PacketStream → Option PacketStream} {bytes : List UInt8} {size : ℕ}
    (hw : WritesSome w bytes) (h : bytes.length ≤ size) :
    (w (packetStreamInit (List.replicate size 0) size)).map written = some bytes := by
  have hlen : (List.replicate size (0 : UInt8)).length = size := List.length_replicate
  have happend := written_append (List.replicate size 0) bytes (hlen.symm ▸ h)
  rw [hlen] at happend
  rw [hw _ hlen.ge ((Nat.zero_add _).le.trans h), Option.map_some, happend]

/-- The position has moved on by `n`, and only the bytes it has passed may have changed. -/
structure Advanced (stream : PacketStream) (n : ℕ) (stream' : PacketStream) : Prop where
  position : stream'.position = stream.position + n
  size : stream'.size = stream.size
  length : stream'.buffer.length = stream.buffer.length
  before : stream'.buffer.take stream.position = stream.buffer.take stream.position
  behind : stream'.buffer.drop stream'.position = stream.buffer.drop stream'.position

/-- The size announces what the serialiser writes: as many bytes are appended to every stream
that has room for them, and a buffer of that size is filled to its end. -/
structure Announces (size : ℕ) (w : PacketStream → Option PacketStream) : Prop where
  appends : ∀ stream, stream.size ≤ stream.buffer.length →
    stream.position + size ≤ stream.size → ∃ stream', w stream = some stream' ∧
      stream.Advanced size stream'
  fills : ∀ buffer, buffer.length = size → ∃ stream', w (packetStreamInit buffer size) = some stream' ∧
    stream'.position = stream'.size ∧ stream'.written.length = size

theorem packetStreamAppend_advanced {self : PacketStream} (a : List UInt8)
    (hbuffer : self.size ≤ self.buffer.length) (h : self.position + a.length ≤ self.size) :
    self.Advanced a.length (self.packetStreamAppend a) := by
  obtain ⟨hlength, hsize, hposition⟩ := packetStreamAppend_room a hbuffer h
  have ha : ¬ self.size < self.position + a.length := by omega
  have htake : (self.buffer.take self.position).length = self.position := by
    rw [List.length_take]
    omega
  refine ⟨hposition, hsize, hlength, ?_, ?_⟩
  · simp only [packetStreamAppend, if_neg ha]
    rw [List.append_assoc, List.take_left' htake]
  · rw [hposition]
    simp only [packetStreamAppend, if_neg ha]
    exact List.drop_left' (by rw [List.length_append, htake])

theorem WritesSome.announces {w : PacketStream → Option PacketStream} {bytes : List UInt8}
    (hw : WritesSome w bytes) : Announces bytes.length w where
  appends stream hbuffer hroom :=
    ⟨_, hw stream hbuffer hroom, packetStreamAppend_advanced bytes hbuffer hroom⟩
  fills buffer hlength := by
    have hbuffer : (packetStreamInit buffer bytes.length).size ≤ buffer.length := hlength.ge
    have hroom : (packetStreamInit buffer bytes.length).position + bytes.length ≤
        (packetStreamInit buffer bytes.length).size := (Nat.zero_add _).le
    have hadvanced := packetStreamAppend_advanced bytes hbuffer hroom
    refine ⟨_, hw _ hbuffer hroom, ?_, ?_⟩
    · rw [hadvanced.position, hadvanced.size]
      exact Nat.zero_add _
    · rw [PacketStream.written, List.length_take, hadvanced.position, hadvanced.length]
      change min (0 + bytes.length) buffer.length = bytes.length
      omega

end PacketStream

open PacketStream

/-- Look at the next `n` bytes without a check of the stream's size. -/
def peek (n : ℕ) : Unserialize (List UInt8) := fun self =>
  if self.position + n ≤ self.buffer.length then .ok (self.rest.take n, self)
  else .error .outOfBounds

/-- Get the next `n` bytes; nothing is copied when they exceed the stream's size. -/
def packetStreamGet (n : ℕ) : Unserialize (Option (List UInt8)) := fun self =>
  if self.size < self.position + n then .ok (none, self)
  else if self.position + n ≤ self.buffer.length then
    .ok (some (self.rest.take n), self.packetStreamAddOffset n)
  else .error .outOfBounds

def fault {α : Type} (f : Fault) : Unserialize α := fun _ => .error f

variable {α β : Type} {self self' : PacketStream}

theorem bind_ok {x : Unserialize α} {a : α} (h : x self = .ok (a, self'))
    (f : α → Unserialize β) : (x >>= f) self = f a self' := by
  change (x self >>= fun r => f r.1 r.2) = _
  rw [h]
  rfl

theorem bind_error {x : Unserialize α} {e : Fault} (h : x self = .error e)
    (f : α → Unserialize β) : (x >>= f) self = .error e := by
  change (x self >>= fun r => f r.1 r.2) = _
  rw [h]
  rfl

theorem bind_eq_ok {x : Unserialize α} {f : α → Unserialize β} {r : β × PacketStream}
    (h : (x >>= f) self = .ok r) : ∃ a t, x self = .ok (a, t) ∧ f a t = .ok r := by
  cases hx : x self with
  | error e => rw [bind_error hx] at h; cases h
  | ok p =>
    obtain ⟨a, t⟩ := p
    rw [bind_ok hx] at h
    exact ⟨a, t, rfl, h⟩

/-- The decoder meets `good` exactly under `P`, and then consumes `n` bytes. -/
structure Recovers (d : Unserialize α) (stream : PacketStream) (good : α → PacketStream → Prop)
    (n : ℕ) (P : Prop) : Prop where
  sound : ∀ a t, d stream = .ok (a, t) → good a t → P
  complete : P → ∃ a, d stream = .ok (a, stream.packetStreamAddOffset n) ∧
    good a (stream.packetStreamAddOffset n)

theorem Recovers.iff {d : Unserialize α} {stream : PacketStream} {n : ℕ} {P : Prop}
    {good : α → PacketStream → Prop} (h : Recovers d stream good n P) :
    (∃ a t, d stream = .ok (a, t) ∧ good a t) ↔ P := by
  constructor
  · rintro ⟨a, t, hd, hgood⟩
    exact h.sound a t hd hgood
  · intro hP
    obtain ⟨a, hd, hgood⟩ := h.complete hP
    exact ⟨a, _, hd, hgood⟩

/-- A decoder's result is wrapped. -/
theorem Recovers.map {d : Unserialize α} {stream : PacketStream} {n : ℕ} {P : Prop}
    {good : α → PacketStream → Prop} {good' : β → PacketStream → Prop} (g : α → β)
    (hg : ∀ a t, good' (g a) t ↔ good a t) (h : Recovers d stream good n P) :
    Recovers (do return g (← d)) stream good' n P where
  sound b t hrun hb := by
    obtain ⟨a, t', hd, hrun⟩ := bind_eq_ok hrun
    cases hrun
    exact h.sound a t hd ((hg a t).mp hb)
  complete hP := by
    obtain ⟨a, hd, ha⟩ := h.complete hP
    exact ⟨g a, by rw [bind_ok hd]; rfl, (hg a _).mpr ha⟩

/-- Another decoder has read `m` bytes before. -/
theorem Recovers.after {d : Unserialize α} {k : α → Unserialize β} {stream : PacketStream}
    {a : α} {m n : ℕ} {P : Prop} {good : β → PacketStream → Prop}
    (hd : d stream = .ok (a, stream.packetStreamAddOffset m))
    (h : Recovers (k a) (stream.packetStreamAddOffset m) good n P) :
    Recovers (d >>= k) stream good (m + n) P where
  sound b t hrun hb := by
    rw [bind_ok hd] at hrun
    exact h.sound b t hrun hb
  complete hP := by
    obtain ⟨b, hk, hb⟩ := h.complete hP
    rw [packetStreamAddOffset_add] at hk hb
    exact ⟨b, by rw [bind_ok hd, hk], hb⟩

theorem rest_length (self : PacketStream) :
    self.rest.length = self.buffer.length - self.position := by
  simp [rest]

theorem peek_ok {n : ℕ} (hn : 0 < n) (h : n ≤ self.rest.length) :
    peek n self = .ok (self.rest.take n, self) := by
  rw [rest_length] at h
  exact if_pos (by omega)

theorem peek_error {n : ℕ} (h : self.rest.length < n) : peek n self = .error .outOfBounds := by
  rw [rest_length] at h
  exact if_neg (by omega)

theorem packetStreamGet_ok {n : ℕ} (hn : 0 < n) (h : n ≤ self.rest.length)
    (hsize : self.position + n ≤ self.size) :
    packetStreamGet n self = .ok (some (self.rest.take n), self.packetStreamAddOffset n) := by
  rw [rest_length] at h
  rw [packetStreamGet, if_neg (by omega), if_pos (by omega)]

theorem packetStreamGet_position {n : ℕ} {bs : List UInt8}
    (h : packetStreamGet n self = .ok (some bs, self')) :
    self'.position = self.position + n := by
  rw [packetStreamGet] at h
  split at h
  · cases h
  · split at h
    · cases h
      rfl
    · cases h

end R1Emu.Packet
