import R1Emu.Property
import Mathlib.Data.List.Nodup

/-!
# Tables of optional properties

A table lists the properties of an object in the order of its encoding. When the ids differ
and each property has a field of its own, decoding what was encoded gives the object back
exactly when it is framed: no string is present, and what follows is not taken for one of the
absent properties behind the last one present.
-/
namespace R1Emu.Property
open R1Emu.Lib.Bytes R1Emu.Packet R1Emu.Packet.PacketStream

variable {σ : Type}

/-- The properties of the table are independent fields that determine the object. -/
structure Lawful (table : List (PropertyField σ)) (empty : σ) : Prop where
  nodup : (table.map (·.id)).Nodup
  id_lt : ∀ p ∈ table, p.id < 2 ^ 16
  get_set : ∀ p ∈ table, ∀ v x, v.format = p.format → p.get (p.set v x) = some v
  get_set_ne : ∀ p ∈ table, ∀ q ∈ table, p.id ≠ q.id → ∀ v x, q.get (p.set v x) = q.get x
  get_format : ∀ p ∈ table, ∀ x v, p.get x = some v → v.format = p.format
  get_empty : ∀ p ∈ table, p.get empty = none
  ext : ∀ x y, (∀ p ∈ table, p.get x = p.get y) → x = y

theorem map_float_eq {a b : Option UInt32} :
    a.map PropertyValue.float = b.map PropertyValue.float ↔ a = b := by
  cases a <;> cases b <;> simp

theorem map_string_eq {a b : Option CString} :
    a.map PropertyValue.string = b.map PropertyValue.string ↔ a = b := by
  cases a <;> cases b <;> simp

/-- The laws, with one condition for each format of value. -/
theorem Lawful.of_fields {table : List (PropertyField σ)} {empty : σ}
    (nodup : (table.map (·.id)).Nodup) (id_lt : ∀ p ∈ table, p.id < 2 ^ 16)
    (get_float : ∀ p ∈ table, p.format = .float → ∀ bits x,
      p.get (p.set (.float bits) x) = some (.float bits))
    (get_string : ∀ p ∈ table, p.format = .string → ∀ s x,
      p.get (p.set (.string s) x) = some (.string s))
    (other_float : ∀ p ∈ table, ∀ q ∈ table, p.id ≠ q.id → ∀ bits x,
      q.get (p.set (.float bits) x) = q.get x)
    (other_string : ∀ p ∈ table, ∀ q ∈ table, p.id ≠ q.id → ∀ s x,
      q.get (p.set (.string s) x) = q.get x)
    (get_format : ∀ p ∈ table, ∀ x v, p.get x = some v → v.format = p.format)
    (get_empty : ∀ p ∈ table, p.get empty = none)
    (ext : ∀ x y, (∀ p ∈ table, p.get x = p.get y) → x = y) : Lawful table empty where
  nodup := nodup
  id_lt := id_lt
  get_set p hp v x hv := by
    cases v with
    | float bits => exact get_float p hp hv.symm bits x
    | string s => exact get_string p hp hv.symm s x
  get_set_ne p hp q hq hne v x := by
    cases v with
    | float bits => exact other_float p hp q hq hne bits x
    | string s => exact other_string p hp q hq hne s x
  get_format := get_format
  get_empty := get_empty
  ext := ext

def encoding (es : List (ℕ × Option PropertyValue)) : List UInt8 := es.flatMap propertyBytes

@[simp] theorem encoding_nil : encoding [] = [] := rfl

@[simp] theorem encoding_cons_none (id : ℕ) (es : List (ℕ × Option PropertyValue)) :
    encoding ((id, none) :: es) = encoding es := rfl

@[simp] theorem encoding_cons_some (id : ℕ) (v : PropertyValue)
    (es : List (ℕ × Option PropertyValue)) :
    encoding ((id, some v) :: es) = propertySPacket id v ++ encoding es := rfl

theorem encoding_eq_nil {es : List (ℕ × Option PropertyValue)}
    (h : es.all (·.2.isNone) = true) : encoding es = [] := by
  induction es with
  | nil => rfl
  | cons e es ih =>
    obtain ⟨id, v⟩ := e
    simp only [List.all_cons, Bool.and_eq_true, Option.isNone_iff_eq_none] at h
    rw [h.1, encoding_cons_none, ih h.2]

/-- With a property present, the encoding starts with the id of one. -/
theorem encoding_head {es : List (ℕ × Option PropertyValue)} (h : ¬ es.all (·.2.isNone) = true)
    (hid : ∀ e ∈ es, e.1 < 2 ^ 16) (f : List UInt8) :
    2 ≤ (encoding es ++ f).length ∧ ∃ e ∈ es, leValue ((encoding es ++ f).take 2) = e.1 := by
  induction es with
  | nil => simp at h
  | cons e es ih =>
    obtain ⟨id, v⟩ := e
    cases v with
    | none =>
      have h' : ¬ es.all (·.2.isNone) = true := by simpa using h
      obtain ⟨hl, e, he, hv⟩ := ih h' fun e he => hid e (List.mem_cons_of_mem _ he)
      exact ⟨hl, e, List.mem_cons_of_mem _ he, hv⟩
    | some v =>
      have hl := propertySPacket_length id v
      refine ⟨?_, (id, some v), List.mem_cons_self .., ?_⟩
      · rw [encoding_cons_some, List.length_append, List.length_append]
        omega
      · rw [encoding_cons_some, List.append_assoc]
        exact propertySPacket_head (hid _ (List.mem_cons_self ..)) v _

/-- The size the properties announce. -/
def propertySPacketSize : Option PropertyValue → ℕ
  | none => 0
  | some (.float _) => 6
  | some (.string s) => 4 + (s.chars.length + 1)

def propertiesGetSPacketSize (table : List (PropertyField σ)) (x : σ) : ℕ :=
  (table.map fun p => propertySPacketSize (p.get x)).sum

theorem propertySPacketSize_eq (id : ℕ) (v : Option PropertyValue) :
    propertySPacketSize v = (propertyBytes (id, v)).length := by
  rcases v with _ | (bits | s)
  · rfl
  · simp [propertySPacketSize, propertyBytes, propertySPacket, propertyFloatSPacket]
  · simp only [propertySPacketSize, propertyBytes, propertySPacket, propertyStringSPacket,
      List.length_append, leBytes_length, List.length_singleton]

/-- The announced size is the size of the encoding. -/
theorem propertiesGetSPacketSize_eq (table : List (PropertyField σ)) (x : σ) :
    propertiesGetSPacketSize table x = (encoding (entries table x)).length := by
  induction table with
  | nil => rfl
  | cons p ps ih =>
    have hs := propertySPacketSize_eq p.id (p.get x)
    simp only [propertiesGetSPacketSize, entries, encoding, List.map_cons, List.sum_cons,
      List.flatMap_cons, List.length_append] at ih ⊢
    omega

def propertyFloatGetCPacketSize : Option UInt32 → ℕ
  | none => 0
  | some _ => 6

def propertyStringGetCPacketSize : Option CString → ℕ
  | none => 0
  | some s => 4 + (s.chars.length + 1)

def propertyCPacketSize : Option PropertyValue → ℕ
  | none => 0
  | some (.float bits) => propertyFloatGetCPacketSize (some bits)
  | some (.string s) => propertyStringGetCPacketSize (some s)

def propertiesGetCPacketSize (table : List (PropertyField σ)) (x : σ) : ℕ :=
  (table.map fun p => propertyCPacketSize (p.get x)).sum

/-- The client packet's size function and the server packet's one agree. -/
theorem propertiesGetCPacketSize_eq (table : List (PropertyField σ)) (x : σ) :
    propertiesGetCPacketSize table x = (encoding (entries table x)).length := by
  have hsize : propertyCPacketSize = propertySPacketSize := by
    funext v
    rcases v with _ | (bits | s) <;> rfl
  rw [← propertiesGetSPacketSize_eq, propertiesGetCPacketSize, propertiesGetSPacketSize, hsize]

theorem trailingAbsent_cons_some (id : ℕ) (v : PropertyValue)
    (es : List (ℕ × Option PropertyValue)) :
    trailingAbsent ((id, some v) :: es) = trailingAbsent es := by
  simp [trailingAbsent]

theorem trailingAbsent_cons_none {es : List (ℕ × Option PropertyValue)} (id : ℕ)
    (h : es.all (·.2.isNone) = true) :
    trailingAbsent ((id, none) :: es) = id :: trailingAbsent es := by
  rw [trailingAbsent, if_pos ⟨rfl, h⟩]

theorem trailingAbsent_cons_of_present {es : List (ℕ × Option PropertyValue)}
    (e : ℕ × Option PropertyValue) (h : ¬ es.all (·.2.isNone) = true) :
    trailingAbsent (e :: es) = trailingAbsent es := by
  rw [trailingAbsent, if_neg fun hc => h hc.2]

theorem trailingAbsent_tail {id : ℕ} {es : List (ℕ × Option PropertyValue)}
    (e : ℕ × Option PropertyValue) (h : id ∈ trailingAbsent es) : id ∈ trailingAbsent (e :: es) := by
  rw [trailingAbsent]
  split
  · exact List.mem_cons_of_mem _ h
  · exact h

theorem trailingAbsent_absent {id : ℕ} {es : List (ℕ × Option PropertyValue)}
    (h : id ∈ trailingAbsent es) : (id, none) ∈ es := by
  induction es with
  | nil => cases h
  | cons e es ih =>
    rw [trailingAbsent] at h
    split at h
    next hnone =>
      rcases List.mem_cons.mp h with rfl | h
      · rw [← Option.isNone_iff_eq_none.mp hnone.1]
        exact List.mem_cons_self ..
      · exact List.mem_cons_of_mem _ (ih h)
    next => exact List.mem_cons_of_mem _ (ih h)

theorem Framed.tail {e : ℕ × Option PropertyValue} {es : List (ℕ × Option PropertyValue)}
    {f : List UInt8} (h : Framed (e :: es) f) : Framed es f where
  floats e' he' := h.floats e' (List.mem_cons_of_mem _ he')
  clear id hid := h.clear id (trailingAbsent_tail e hid)

/-- In front of a framed object, an absent property is skipped. -/
theorem Framed.skip {id : ℕ} {es : List (ℕ × Option PropertyValue)} {f : List UInt8}
    (h : Framed ((id, none) :: es) f) (hid : ∀ e ∈ es, e.1 < 2 ^ 16)
    (hne : id ∉ es.map Prod.fst) :
    2 ≤ (encoding es ++ f).length ∧ leValue ((encoding es ++ f).take 2) ≠ id := by
  by_cases hall : es.all (·.2.isNone) = true
  · rw [encoding_eq_nil hall, List.nil_append]
    apply h.clear id
    rw [trailingAbsent_cons_none id hall]
    exact List.mem_cons_self ..
  · obtain ⟨hlen, e, he, hv⟩ := encoding_head hall hid f
    exact ⟨hlen, fun h => hne (List.mem_map.mpr ⟨e, he, hv.symm.trans h⟩)⟩

theorem Framed.cons_none {id : ℕ} {es : List (ℕ × Option PropertyValue)} {f : List UInt8}
    (h : Framed es f)
    (hskip : 2 ≤ (encoding es ++ f).length ∧ leValue ((encoding es ++ f).take 2) ≠ id) :
    Framed ((id, none) :: es) f := by
  refine ⟨fun e he v hv => ?_, fun id' hid' => ?_⟩
  · rcases List.mem_cons.mp he with rfl | he
    · cases hv
    · exact h.floats e he v hv
  · by_cases hall : es.all (·.2.isNone) = true
    · rw [trailingAbsent_cons_none id hall] at hid'
      rw [encoding_eq_nil hall, List.nil_append] at hskip
      rcases List.mem_cons.mp hid' with rfl | hid'
      · exact hskip
      · exact h.clear id' hid'
    · rw [trailingAbsent_cons_of_present _ hall] at hid'
      exact h.clear id' hid'

theorem Framed.cons_some {id : ℕ} {v : PropertyValue} {es : List (ℕ × Option PropertyValue)}
    {f : List UInt8} (h : Framed es f) (hv : v.format = .float) : Framed ((id, some v) :: es) f := by
  refine ⟨fun e he w hw => ?_, fun id' hid' => ?_⟩
  · rcases List.mem_cons.mp he with rfl | he
    · cases hw
      exact hv
    · exact h.floats e he w hw
  · rw [trailingAbsent_cons_some] at hid'
    exact h.clear id' hid'

section Field
variable {p : PropertyField σ} {stream : PacketStream} {f : List UInt8}

theorem unserialize_skip (x : σ) (h : 2 ≤ stream.rest.length)
    (hid : leValue (stream.rest.take 2) ≠ p.id) :
    p.unserialize x stream = .ok (x, stream) := by
  cases hf : p.format <;> simp only [PropertyField.unserialize, hf]
  · rw [bind_ok (float_skip h hid)]
    rfl
  · rw [bind_ok (string_skip h hid)]
    rfl

theorem unserialize_found {v : PropertyValue} (x : σ) (hid : p.id < 2 ^ 16)
    (hf : v.format = p.format) (hv : v.format = .float)
    (hrest : stream.rest = propertySPacket p.id v ++ f)
    (hsize : stream.position + (propertySPacket p.id v).length ≤ stream.size) :
    p.unserialize x stream =
      .ok (p.set v x, stream.packetStreamAddOffset (propertySPacket p.id v).length) := by
  cases v with
  | float bits =>
    simp only [PropertyField.unserialize, ← hf, PropertyValue.format]
    rw [bind_ok (float_found hid hrest hsize)]
    rfl
  | string s => cases hv

/-- A string that is next ends the decoder. -/
theorem unserialize_string {x : σ} (hf : p.format = .string) (h : 2 ≤ stream.rest.length)
    (hid : leValue (stream.rest.take 2) = p.id) : ∃ e, p.unserialize x stream = .error e := by
  obtain ⟨e, he⟩ := string_fault h hid
  refine ⟨e, ?_⟩
  simp only [PropertyField.unserialize, hf]
  exact bind_error he _

/-- Without a fault the decoder skipped the property, or its id was next and it is set. -/
theorem unserialize_cases {x y : σ} {t : PacketStream} (h : p.unserialize x stream = .ok (y, t)) :
    2 ≤ stream.rest.length ∧
      (leValue (stream.rest.take 2) ≠ p.id ∧ y = x ∧ t = stream ∨
        leValue (stream.rest.take 2) = p.id ∧ stream.position < t.position ∧
          ∃ v : PropertyValue, v.format = p.format ∧ y = p.set v x) := by
  by_cases hl : 2 ≤ stream.rest.length
  · refine ⟨hl, ?_⟩
    by_cases hid : leValue (stream.rest.take 2) = p.id
    · refine .inr ⟨hid, ?_⟩
      cases hf : p.format <;> simp only [PropertyField.unserialize, hf] at h
      · obtain ⟨r, t', hu, h⟩ := bind_eq_ok h
        obtain ⟨hpos, bits, rfl⟩ := float_match hl hid hu
        cases h
        exact ⟨hpos, .float bits, rfl, rfl⟩
      · obtain ⟨r, t', hu, -⟩ := bind_eq_ok h
        obtain ⟨e, he⟩ := string_fault hl hid
        cases he.symm.trans hu
    · rw [unserialize_skip x hl hid] at h
      cases h
      exact .inl ⟨hid, rfl, rfl⟩
  · cases hf : p.format <;> simp only [PropertyField.unserialize, hf] at h
    · obtain ⟨bits, t', hu, -⟩ := bind_eq_ok h
      rw [propertyFloatUnserializeSPacket, bind_error (peek_error (by omega))] at hu
      cases hu
    · obtain ⟨s, t', hu, -⟩ := bind_eq_ok h
      rw [propertyStringUnserializeSPacket, bind_error (peek_error (by omega))] at hu
      cases hu

end Field

section Table
variable {table todo : List (PropertyField σ)} {empty : σ} {stream : PacketStream} {f : List UInt8}

@[simp] theorem entries_cons (p : PropertyField σ) (ps : List (PropertyField σ)) (x : σ) :
    entries (p :: ps) x = (p.id, p.get x) :: entries ps x := rfl

theorem mem_entries {x : σ} {e : ℕ × Option PropertyValue} :
    e ∈ entries todo x ↔ ∃ p ∈ todo, (p.id, p.get x) = e := List.mem_map

theorem serialize_writes (p : PropertyField σ) (x : σ) :
    Writes (p.serialize x) (propertyBytes (p.id, p.get x)) := by
  intro stream _ _
  cases hp : p.get x with
  | none => simp [PropertyField.serialize, hp, propertyBytes]
  | some v =>
    cases v <;> simp [PropertyField.serialize, hp, propertyFloatSerializeSPacket,
      propertyStringSerializeSPacket, propertyBytes, propertySPacket]

/-- With room for it, serialising appends the encoding. -/
theorem serializeProperties_writes (table : List (PropertyField σ)) (x : σ) :
    Writes (serializeProperties table x) (encoding (entries table x)) := by
  induction table with
  | nil =>
    intro stream _ _
    simp [serializeProperties, entries]
  | cons p ps ih => exact (serialize_writes p x).comp ih

theorem serializePropertiesCPacket_writes (table : List (PropertyField σ)) (x : σ) :
    Writes (serializePropertiesCPacket table x) (encoding (entries table x)) := by
  have hsame : serializePropertiesCPacket table x = serializeProperties table x := by
    funext stream
    induction table generalizing stream with
    | nil => rfl
    | cons p ps ih => exact ih (p.serialize x stream)
  rw [hsame]
  exact serializeProperties_writes table x

theorem unserializeProperties_position {y z : σ} {t : PacketStream}
    (h : unserializeProperties todo y stream = .ok (z, t)) : stream.position ≤ t.position := by
  induction todo generalizing y stream with
  | nil =>
    cases h
    exact le_refl _
  | cons p ps ih =>
    obtain ⟨y', t', hp, h⟩ := bind_eq_ok h
    have hrest := ih h
    obtain ⟨-, ⟨-, -, rfl⟩ | ⟨-, hpos, -⟩⟩ := unserialize_cases hp <;> omega

/-- The decoder's properties have the ids and the formats of the encoded ones. -/
def Expects (todo : List (PropertyField σ)) (es : List (ℕ × Option PropertyValue)) : Prop :=
  List.Forall₂ (fun p e => p.id = e.1 ∧ ∀ v, e.2 = some v → v.format = p.format) todo es

/-- What the decoder makes of an object when every property present is read. -/
def stored : List (PropertyField σ) → List (ℕ × Option PropertyValue) → σ → σ
  | p :: ps, (_, some v) :: es, x => stored ps es (p.set v x)
  | _ :: ps, (_, none) :: es, x => stored ps es x
  | _, _, x => x

/-- A framed encoding is read to its end and no further. -/
theorem unserializeProperties_framed {es : List (ℕ × Option PropertyValue)}
    (hexpects : Expects todo es) (hid : ∀ e ∈ es, e.1 < 2 ^ 16) (hnodup : (es.map Prod.fst).Nodup)
    (y : σ) (hrest : stream.rest = encoding es ++ f)
    (hsize : stream.position + (encoding es).length ≤ stream.size) (hframed : Framed es f) :
    unserializeProperties todo y stream =
      .ok (stored todo es y, stream.packetStreamAddOffset (encoding es).length) := by
  induction hexpects generalizing y stream with
  | nil => rfl
  | @cons p e ps es hp _ ih =>
    obtain ⟨id, value⟩ := e
    obtain ⟨rfl, hformat⟩ := hp
    rw [List.map_cons, List.nodup_cons] at hnodup
    obtain ⟨hne, hnodup⟩ := hnodup
    have hids : ∀ e ∈ es, e.1 < 2 ^ 16 := fun e he => hid e (List.mem_cons_of_mem _ he)
    have hpid : p.id < 2 ^ 16 := hid _ (List.mem_cons_self ..)
    rw [unserializeProperties]
    cases value with
    | none =>
      have hskip := hframed.skip hids hne
      rw [encoding_cons_none] at hrest hsize ⊢
      rw [← hrest] at hskip
      rw [bind_ok (unserialize_skip y hskip.1 hskip.2)]
      exact ih hids hnodup y hrest hsize hframed.tail
    | some v =>
      have hfloat : v.format = .float := hframed.floats _ (List.mem_cons_self ..) v rfl
      rw [encoding_cons_some, List.append_assoc] at hrest
      rw [encoding_cons_some, List.length_append] at hsize ⊢
      rw [bind_ok (unserialize_found y hpid (hformat v rfl) hfloat hrest (by omega)), stored,
        ← packetStreamAddOffset_add]
      apply ih hids hnodup _ _ _ hframed.tail
      · rw [packetStreamAddOffset_rest, hrest, List.drop_left]
      · rw [packetStreamAddOffset_position, packetStreamAddOffset_size]
        omega

/-- The decoder that ends without a fault on an encoding that is not framed has found one of
the absent properties behind the encoding. -/
theorem framed_or_found {es : List (ℕ × Option PropertyValue)} (hexpects : Expects todo es)
    (hid : ∀ e ∈ es, e.1 < 2 ^ 16) (hnodup : (es.map Prod.fst).Nodup) {y z : σ} {t : PacketStream}
    (hrest : stream.rest = encoding es ++ f)
    (hsize : stream.position + (encoding es).length ≤ stream.size)
    (hrun : unserializeProperties todo y stream = .ok (z, t)) :
    Framed es f ∨ ∃ front p behind y' v t', todo = front ++ p :: behind ∧ p.id ∈ trailingAbsent es ∧
      stream.position + (encoding es).length < t'.position ∧ v.format = p.format ∧
      unserializeProperties behind (p.set v y') t' = .ok (z, t) := by
  induction hexpects generalizing y stream with
  | nil => exact .inl ⟨by simp [NoStrings], by simp [trailingAbsent]⟩
  | @cons p e ps es hp _ ih =>
    obtain ⟨id, value⟩ := e
    obtain ⟨rfl, hformat⟩ := hp
    rw [List.map_cons, List.nodup_cons] at hnodup
    obtain ⟨hne, hnodup⟩ := hnodup
    have hids : ∀ e ∈ es, e.1 < 2 ^ 16 := fun e he => hid e (List.mem_cons_of_mem _ he)
    have hpid : p.id < 2 ^ 16 := hid _ (List.mem_cons_self ..)
    obtain ⟨y', t', hstep, hbehind⟩ := bind_eq_ok hrun
    cases value with
    | none =>
      rw [encoding_cons_none] at hrest hsize ⊢
      obtain ⟨hlen, ⟨hskip, rfl, rfl⟩ | ⟨hfound, hpos, v, hv, rfl⟩⟩ := unserialize_cases hstep
      · rcases ih hids hnodup hrest hsize hbehind with h | ⟨front, q, behind, w, v, t', rfl, hq, h⟩
        · rw [hrest] at hlen hskip
          exact .inl (h.cons_none ⟨hlen, hskip⟩)
        · exact .inr ⟨p :: front, q, behind, w, v, t', rfl, trailingAbsent_tail _ hq, h⟩
      · -- a property present behind this one would be next, with another id
        have hall : es.all (·.2.isNone) = true := by
          by_contra hall
          obtain ⟨-, e, he, hv⟩ := encoding_head hall hids f
          rw [← hrest, hfound] at hv
          exact hne (List.mem_map.mpr ⟨e, he, hv.symm⟩)
        refine .inr ⟨[], p, ps, y, v, t', rfl, ?_, ?_, hv, hbehind⟩
        · rw [trailingAbsent_cons_none p.id hall]
          exact List.mem_cons_self ..
        · rwa [encoding_eq_nil hall]
    | some v =>
      rw [encoding_cons_some, List.append_assoc] at hrest
      rw [encoding_cons_some, List.length_append] at hsize ⊢
      cases hfloat : v.format
      case float =>
        have hfound := unserialize_found y hpid (hformat v rfl) hfloat hrest (by omega)
        rw [hfound] at hstep
        cases hstep
        rcases ih hids hnodup (by rw [packetStreamAddOffset_rest, hrest, List.drop_left])
          (by simp only [packetStreamAddOffset_position, packetStreamAddOffset_size]; omega) hbehind
          with h | ⟨front, q, behind, w, v', t', rfl, hq, hpos, h⟩
        · exact .inl (h.cons_some hfloat)
        · rw [packetStreamAddOffset_position] at hpos
          exact .inr ⟨p :: front, q, behind, w, v', t', rfl, trailingAbsent_tail _ hq, by omega, h⟩
      case string =>
        have hlength : 2 ≤ stream.rest.length := by
          rw [hrest, List.length_append]
          exact Nat.le_add_right_of_le (propertySPacket_length p.id v)
        have hhead : leValue (stream.rest.take 2) = p.id := by
          rw [hrest]
          exact propertySPacket_head hpid v _
        obtain ⟨e, he⟩ := unserialize_string (x := y) ((hformat v rfl).symm.trans hfloat) hlength
          hhead
        cases he.symm.trans hstep

/-- An encoding is consumed exactly when it is framed, whatever the values. -/
theorem unserializeProperties_consumes {es : List (ℕ × Option PropertyValue)}
    (hexpects : Expects todo es) (hid : ∀ e ∈ es, e.1 < 2 ^ 16) (hnodup : (es.map Prod.fst).Nodup)
    (y : σ) (hrest : stream.rest = encoding es ++ f)
    (hsize : stream.position + (encoding es).length ≤ stream.size) :
    Recovers (unserializeProperties todo y) stream
      (fun _ t => t = stream.packetStreamAddOffset (encoding es).length) (encoding es).length
      (Framed es f) where
  sound z t hrun ht := by
    rcases framed_or_found hexpects hid hnodup hrest hsize hrun with
      h | ⟨-, p, behind, y', v, t', -, -, hpos, -, hbehind⟩
    · exact h
    · have hle := unserializeProperties_position hbehind
      rw [ht, packetStreamAddOffset_position] at hle
      omega
  complete h :=
    ⟨_, unserializeProperties_framed hexpects hid hnodup y hrest hsize h, rfl⟩

theorem entries_expects (hl : Lawful table empty) (htodo : ∀ p ∈ todo, p ∈ table) (x : σ) :
    Expects todo (entries todo x) := by
  induction todo with
  | nil => exact .nil
  | cons p ps ih =>
    apply List.Forall₂.cons
    · exact ⟨rfl, fun v hv => hl.get_format p (htodo p (List.mem_cons_self ..)) x v hv⟩
    · exact ih fun q hq => htodo q (List.mem_cons_of_mem _ hq)

theorem Lawful.entries_id_lt (hl : Lawful table empty) (x : σ) :
    ∀ e ∈ entries table x, e.1 < 2 ^ 16 := by
  intro e he
  obtain ⟨p, hp, rfl⟩ := mem_entries.mp he
  exact hl.id_lt p hp

theorem Lawful.entries_nodup (hl : Lawful table empty) (x : σ) :
    ((entries table x).map Prod.fst).Nodup := by
  have hids : (entries table x).map Prod.fst = table.map (·.id) := by simp [entries]
  rw [hids]
  exact hl.nodup

/-- What every property's assignment keeps, decoding keeps. -/
theorem unserializeProperties_keeps {Q : σ → Prop} (hset : ∀ p ∈ todo, ∀ v x, Q x → Q (p.set v x))
    {y z : σ} {t : PacketStream} (hy : Q y)
    (h : unserializeProperties todo y stream = .ok (z, t)) : Q z := by
  induction todo generalizing y stream with
  | nil =>
    cases h
    exact hy
  | cons p ps ih =>
    obtain ⟨y', t', hp, h⟩ := bind_eq_ok h
    apply ih (fun q hq => hset q (List.mem_cons_of_mem _ hq)) _ h
    obtain ⟨-, ⟨-, rfl, -⟩ | ⟨-, -, v, -, rfl⟩⟩ := unserialize_cases hp
    · exact hy
    · exact hset p (List.mem_cons_self ..) v y hy

/-- Properties outside the part of the table that is decoded keep their value. -/
theorem unserializeProperties_get_other (hl : Lawful table empty) (htodo : ∀ p ∈ todo, p ∈ table)
    {q : PropertyField σ} (hq : q ∈ table) (hid : q.id ∉ todo.map (·.id)) {y z : σ}
    {t : PacketStream} (h : unserializeProperties todo y stream = .ok (z, t)) :
    q.get z = q.get y := by
  apply unserializeProperties_keeps (Q := fun x => q.get x = q.get y) _ rfl h
  intro p hp v x hx
  have hne : p.id ≠ q.id := fun he => hid (List.mem_map.mpr ⟨p, hp, he⟩)
  rw [hl.get_set_ne p (htodo p hp) q hq hne v x, hx]

theorem stored_get_other (hl : Lawful table empty) (htodo : ∀ p ∈ todo, p ∈ table)
    {q : PropertyField σ} (hq : q ∈ table) (hid : q.id ∉ todo.map (·.id)) (x y : σ) :
    q.get (stored todo (entries todo x) y) = q.get y := by
  induction todo generalizing y with
  | nil => rfl
  | cons p ps ih =>
    have hne : p.id ≠ q.id := fun he => hid (he ▸ List.mem_cons_self ..)
    have htail := ih (fun p' hp' => htodo p' (List.mem_cons_of_mem _ hp'))
      (fun hm => hid (List.mem_cons_of_mem _ hm))
    rw [entries_cons]
    cases p.get x with
    | none => exact htail y
    | some v =>
      rw [stored, htail]
      exact hl.get_set_ne p (htodo p (List.mem_cons_self ..)) q hq hne v y

theorem stored_get (hl : Lawful table empty) (htodo : ∀ p ∈ todo, p ∈ table)
    (hnodup : (todo.map (·.id)).Nodup) (x y : σ) (hy : ∀ p ∈ todo, p.get y = none) :
    ∀ p ∈ todo, p.get (stored todo (entries todo x) y) = p.get x := by
  induction todo generalizing y with
  | nil => simp
  | cons p ps ih =>
    have hps : ∀ q ∈ ps, q ∈ table := fun q hq => htodo q (List.mem_cons_of_mem _ hq)
    have hp : p ∈ table := htodo p (List.mem_cons_self ..)
    obtain ⟨hpid, hnodup⟩ := List.nodup_cons.mp hnodup
    intro q hq
    rw [entries_cons]
    cases hx : p.get x with
    | none =>
      rw [stored]
      rcases List.mem_cons.mp hq with rfl | hq
      · rw [stored_get_other hl hps hp hpid, hx]
        exact hy _ (List.mem_cons_self ..)
      · exact ih hps hnodup y (fun p' hp' => hy p' (List.mem_cons_of_mem _ hp')) q hq
    | some v =>
      rw [stored]
      rcases List.mem_cons.mp hq with rfl | hq
      · rw [stored_get_other hl hps hp hpid, hl.get_set _ hp v y (hl.get_format _ hp x v hx), hx]
      · apply ih hps hnodup (p.set v y) _ q hq
        intro p' hp'
        have hne : p.id ≠ p'.id := fun he => hpid (List.mem_map.mpr ⟨p', hp', he.symm⟩)
        rw [hl.get_set_ne p hp p' (hps p' hp') hne v y]
        exact hy p' (List.mem_cons_of_mem _ hp')

theorem stored_empty (hl : Lawful table empty) (x : σ) :
    stored table (entries table x) empty = x := by
  apply hl.ext
  exact stored_get hl (fun _ hp => hp) hl.nodup x empty hl.get_empty

/-- Decoding into an empty object gives the object back exactly when it is framed. -/
theorem unserializeProperties_recovers (hl : Lawful table empty) (x : σ)
    (hrest : stream.rest = encoding (entries table x) ++ f)
    (hsize : stream.position + (encoding (entries table x)).length ≤ stream.size) :
    Recovers (unserializeProperties table empty) stream (fun y _ => y = x)
      (encoding (entries table x)).length (Framed (entries table x) f) where
  sound z t hrun hz := by
    subst hz
    rcases framed_or_found (entries_expects hl (fun _ hp => hp) _) (hl.entries_id_lt _)
      (hl.entries_nodup _) hrest hsize hrun with
      h | ⟨front, p, behind, y', v, t', htable, habsent, -, hv, hbehind⟩
    · exact h
    · -- the property found is absent from the object, and nothing behind it takes it away
      have hmem : ∀ q ∈ p :: behind, q ∈ table := by
        rw [htable]
        exact fun q hq => List.mem_append_right _ hq
      have hp : p ∈ table := hmem p (List.mem_cons_self ..)
      have hid : p.id ∉ behind.map (·.id) := by
        have hnodup := hl.nodup
        rw [htable, List.map_append, List.map_cons] at hnodup
        exact (List.nodup_cons.mp (List.nodup_append.mp hnodup).2.1).1
      have hset := unserializeProperties_get_other hl
        (fun q hq => hmem q (List.mem_cons_of_mem _ hq)) hp hid hbehind
      rw [hl.get_set p hp v y' hv] at hset
      obtain ⟨q, hq, he⟩ := mem_entries.mp (trailingAbsent_absent habsent)
      obtain ⟨hqid, hqnone⟩ := Prod.mk.inj he
      obtain rfl := List.inj_on_of_nodup_map hl.nodup hq hp hqid
      rw [hqnone] at hset
      cases hset
  complete h := by
    refine ⟨_, unserializeProperties_framed (entries_expects hl (fun _ hp => hp) x)
      (hl.entries_id_lt x) (hl.entries_nodup x) empty hrest hsize h, ?_⟩
    exact stored_empty hl x

end Table

end R1Emu.Property
