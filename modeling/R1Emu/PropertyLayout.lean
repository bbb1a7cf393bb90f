import R1Emu.PropertyTable

/-!
# Which bytes hold properties

A decoder that runs on all the bytes of a stream reads a number of them that can be found by
looking at the bytes alone, or ends in a fault. For optional properties the number follows
from the ids that stand where a property may stand.
-/
namespace R1Emu.Packet
open PacketStream

/-- The stream has the size of its buffer. -/
def PacketStream.Whole (self : PacketStream) : Prop := self.size = self.buffer.length

theorem PacketStream.whole_init (buffer : List UInt8) :
    (packetStreamInit buffer buffer.length).Whole := rfl

theorem PacketStream.Whole.offset {self : PacketStream} (h : self.Whole) (n : ℕ) :
    (self.packetStreamAddOffset n).Whole := h

variable {α β : Type}

/-- The decoder reads so many bytes with a good result; without a size it ends in a fault. -/
def Reads (d : Unserialize α) (stream : PacketStream) (good : α → Prop) : Option ℕ → Prop
  | none => ∃ e, d stream = .error e
  | some n => ∃ a, d stream = .ok (a, stream.packetStreamAddOffset n) ∧ good a

theorem reads_pure {a : α} {good : α → Prop} (stream : PacketStream) (h : good a) :
    Reads (pure a) stream good (some 0) := ⟨a, rfl, h⟩

theorem Reads.mono {d : Unserialize α} {stream : PacketStream} {good good' : α → Prop}
    {size : Option ℕ} (h : Reads d stream good size) (hgood : ∀ a, good a → good' a) :
    Reads d stream good' size := by
  cases size with
  | none => exact h
  | some n =>
    obtain ⟨a, hd, ha⟩ := h
    exact ⟨a, hd, hgood a ha⟩

/-- What holds of every result of the decoder is a good result. -/
theorem Reads.of_run {d : Unserialize α} {stream : PacketStream} {good good' : α → Prop}
    {size : Option ℕ} (h : Reads d stream good size)
    (hgood : ∀ a t, d stream = .ok (a, t) → good a → good' a) : Reads d stream good' size := by
  cases size with
  | none => exact h
  | some n =>
    obtain ⟨a, hd, ha⟩ := h
    exact ⟨a, hd, hgood a _ hd ha⟩

/-- What a second decoder reads is found behind what the first one has read. -/
theorem Reads.bind {d : Unserialize α} {k : α → Unserialize β} {stream : PacketStream}
    {good : α → Prop} {good' : β → Prop} {size : Option ℕ} {size' : ℕ → Option ℕ}
    (h : Reads d stream good size)
    (hk : ∀ a n, size = some n → good a →
      Reads (k a) (stream.packetStreamAddOffset n) good' (size' n)) :
    Reads (d >>= k) stream good' (size.bind fun n => (size' n).map (n + ·)) := by
  cases size with
  | none =>
    obtain ⟨e, hd⟩ := h
    exact ⟨e, bind_error hd k⟩
  | some n =>
    obtain ⟨a, hd, ha⟩ := h
    have hread := hk a n rfl ha
    rw [Option.bind_some]
    cases hsize : size' n with
    | none =>
      rw [hsize] at hread
      obtain ⟨e, hread⟩ := hread
      exact ⟨e, by rw [bind_ok hd, hread]⟩
    | some m =>
      rw [hsize] at hread
      obtain ⟨b, hread, hb⟩ := hread
      rw [packetStreamAddOffset_add] at hread
      exact ⟨b, by rw [bind_ok hd, hread], hb⟩

theorem Reads.map {d : Unserialize α} {stream : PacketStream} {good : α → Prop}
    {good' : β → Prop} {size : Option ℕ} (g : α → β) (h : Reads d stream good size)
    (hg : ∀ a, good a → good' (g a)) : Reads (do return g (← d)) stream good' size := by
  have hbind : Reads (d >>= fun a => pure (g a)) stream good'
      (size.bind fun n => (some 0).map (n + ·)) := h.bind fun a n _ ha => reads_pure _ (hg a ha)
  cases size <;> exact hbind

/-- Bytes that are there can be got. -/
theorem reads_get {stream : PacketStream} (hw : stream.Whole) {n : ℕ} (hn : 0 < n)
    (h : n ≤ stream.rest.length) :
    packetStreamGet n stream = .ok (some (stream.rest.take n), stream.packetStreamAddOffset n) := by
  refine packetStreamGet_ok hn h ?_
  rw [rest_length] at h
  rw [hw]
  omega

/-- Bytes that are not there cannot. -/
theorem get_none {stream : PacketStream} (hw : stream.Whole) {n : ℕ}
    (h : stream.rest.length < n) : packetStreamGet n stream = .ok (none, stream) := by
  rw [rest_length] at h
  refine if_pos ?_
  rw [hw]
  omega

end R1Emu.Packet

namespace R1Emu.Property
open R1Emu.Lib.Bytes R1Emu.Packet R1Emu.Packet.PacketStream

/-- The bytes that a property takes at the front: no bytes when another id stands there. A
string ends in a fault. -/
def propertySize (id : ℕ) (format : PropertyFormat) (bs : List UInt8) : Option ℕ :=
  if bs.length < 2 then none
  else if leValue (bs.take 2) ≠ id then some 0
  else
    match format with
    | .float => if bs.length < 6 then none else some 6
    | .string => none

/-- The bytes that the properties with these ids and formats take, one behind the other. -/
def propertiesSize : List (ℕ × PropertyFormat) → List UInt8 → Option ℕ
  | [], _ => some 0
  | (id, format) :: ps, bs =>
    (propertySize id format bs).bind fun n => (propertiesSize ps (bs.drop n)).map (n + ·)

def PropertyField.shape {σ : Type} (p : PropertyField σ) : ℕ × PropertyFormat := (p.id, p.format)

variable {σ : Type} {stream : PacketStream}

theorem propertyFloatUnserializeSPacket_reads (hw : stream.Whole) (id : ℕ) :
    Reads (propertyFloatUnserializeSPacket id) stream (fun _ => True)
      (propertySize id .float stream.rest) := by
  rw [propertySize]
  by_cases hlen : stream.rest.length < 2
  · rw [if_pos hlen]
    exact ⟨_, by rw [propertyFloatUnserializeSPacket, bind_error (peek_error hlen)]⟩
  · rw [if_neg hlen]
    by_cases hid : leValue (stream.rest.take 2) ≠ id
    · rw [if_pos hid]
      exact ⟨none, float_skip (by omega) hid, trivial⟩
    · rw [if_neg hid]
      have hpeek := peek_ok (n := 2) (by decide) (not_lt.mp hlen)
      by_cases hlen' : stream.rest.length < 6
      · rw [if_pos hlen']
        refine ⟨.uninitialised, ?_⟩
        rw [propertyFloatUnserializeSPacket, bind_ok hpeek, if_neg hid,
          bind_ok (get_none hw hlen')]
        rfl
      · rw [if_neg hlen']
        refine ⟨some (UInt32.ofNat (leValue ((stream.rest.take 6).drop 2))), ?_, trivial⟩
        rw [propertyFloatUnserializeSPacket, bind_ok hpeek, if_neg hid,
          bind_ok (reads_get hw (by decide) (not_lt.mp hlen'))]
        rfl

theorem propertyStringUnserializeSPacket_reads (id : ℕ) :
    Reads (propertyStringUnserializeSPacket id) stream (fun _ => True)
      (propertySize id .string stream.rest) := by
  rw [propertySize]
  by_cases hlen : stream.rest.length < 2
  · rw [if_pos hlen]
    exact ⟨_, by rw [propertyStringUnserializeSPacket, bind_error (peek_error hlen)]⟩
  · rw [if_neg hlen]
    by_cases hid : leValue (stream.rest.take 2) ≠ id
    · rw [if_pos hid]
      exact ⟨none, string_skip (by omega) hid, trivial⟩
    · rw [if_neg hid]
      exact string_fault (not_lt.mp hlen) (not_not.mp hid)

theorem PropertyField.unserialize_reads (hw : stream.Whole) (p : PropertyField σ) (x : σ) :
    Reads (p.unserialize x) stream (fun _ => True) (propertySize p.id p.format stream.rest) := by
  cases hf : p.format with
  | float =>
    have hread := propertyFloatUnserializeSPacket_reads hw p.id
    cases hsize : propertySize p.id .float stream.rest with
    | none =>
      rw [hsize] at hread
      obtain ⟨e, hread⟩ := hread
      exact ⟨e, by simp only [PropertyField.unserialize, hf, bind_error hread]⟩
    | some n =>
      rw [hsize] at hread
      obtain ⟨bits, hread, -⟩ := hread
      simp only [PropertyField.unserialize, hf]
      cases bits with
      | none => exact ⟨x, by rw [bind_ok hread]; rfl, trivial⟩
      | some bits => exact ⟨p.set (.float bits) x, by rw [bind_ok hread]; rfl, trivial⟩
  | string =>
    have hread := @propertyStringUnserializeSPacket_reads stream p.id
    cases hsize : propertySize p.id .string stream.rest with
    | none =>
      rw [hsize] at hread
      obtain ⟨e, hread⟩ := hread
      exact ⟨e, by simp only [PropertyField.unserialize, hf, bind_error hread]⟩
    | some n =>
      rw [hsize] at hread
      obtain ⟨s, hread, -⟩ := hread
      simp only [PropertyField.unserialize, hf]
      cases s with
      | none => exact ⟨x, by rw [bind_ok hread]; rfl, trivial⟩
      | some s => exact ⟨p.set (.string s) x, by rw [bind_ok hread]; rfl, trivial⟩

/-- The properties of a table take the bytes that are found for their ids and formats. -/
theorem unserializeProperties_reads (hw : stream.Whole) (table : List (PropertyField σ)) (x : σ) :
    Reads (unserializeProperties table x) stream (fun _ => True)
      (propertiesSize (table.map PropertyField.shape) stream.rest) := by
  induction table generalizing x stream with
  | nil => exact reads_pure stream trivial
  | cons p ps ih =>
    apply (p.unserialize_reads hw x).bind
    intro y n _ _
    rw [← packetStreamAddOffset_rest]
    exact ih (hw.offset n) y

/-- The first property of a decoded object is present exactly when its id came first. -/
theorem unserializeProperties_first {p : PropertyField σ} {ps : List (PropertyField σ)} {empty y : σ}
    {t : PacketStream} (hl : Lawful (p :: ps) empty)
    (h : unserializeProperties (p :: ps) empty stream = .ok (y, t)) :
    (p.get y).isSome ↔ leValue (stream.rest.take 2) = p.id := by
  have hmem : p ∈ p :: ps := List.mem_cons_self ..
  obtain ⟨y', t', hp, h⟩ := bind_eq_ok h
  rw [unserializeProperties_get_other hl (fun q hq => List.mem_cons_of_mem _ hq) hmem
    (List.nodup_cons.mp hl.nodup).1 h]
  obtain ⟨-, ⟨hid, rfl, -⟩ | ⟨hid, -, v, hv, rfl⟩⟩ := unserialize_cases hp
  · simp [hl.get_empty p hmem, hid]
  · simp [hl.get_set p hmem v empty hv, hid]

end R1Emu.Property
