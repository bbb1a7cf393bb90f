import R1Emu.Game.CommanderPacket
import R1Emu.Game.Handling

/-!
# The server packet of an account session

An account session is written field by field, with the number of its commanders and those of
its slots that are occupied. The decoder allocates pointers for so many commanders without
setting them, and neither it nor the serialiser knows the account's id.
-/
namespace R1Emu.Game
open R1Emu.Actor R1Emu.Lib.Bytes R1Emu.Packet R1Emu.Packet.PacketStream
open R1Emu.Commander

variable {Key : Type}

def boolField {σ : Type} (get : σ → Bool) (set : Bool → σ → σ) : PacketField σ :=
  numberField 1 (fun x => (get x).toNat) fun n x => set (n != 0) x

/-- A `size_t`. -/
def sizeField {σ : Type} (get : σ → ℕ) (set : ℕ → σ → σ) : PacketField σ := numberField 8 get set

/-- The id of the account is not among the fields that are written and read. -/
def accountSessionPacketFields : List (PacketField AccountSession) :=
  [charsField (·.accountName) fun v s => { s with accountName := v },
    charsField (·.familyName) fun v s => { s with familyName := v },
    charsField (·.sessionKey) fun v s => { s with sessionKey := v },
    u32Field (·.privilege) fun v s => { s with privilege := v },
    boolField (·.isBanned) fun v s => { s with isBanned := v },
    u64Field (·.timeBanned) fun v s => { s with timeBanned := v },
    u32Field (·.credits) fun v s => { s with credits := v },
    u64Field (·.timeLastLogin) fun v s => { s with timeLastLogin := v },
    u32Field (·.barrackType) fun v s => { s with barrackType := v },
    sizeField (·.commandersCountMax) fun v s => { s with commandersCountMax := v }]

/-- `sizeof(AccountSessionSPacket)`: the structure is not packed. The names and the key take 108
bytes; behind them each field is aligned to its size. -/
def accountSessionSPacketSize : ℕ := (33 + 11 + 64) + 4 + 8 + 8 + 8 + 8 + 8 + 8 + 8

/-- The commander of each slot, if there is one. -/
def accountSessionSlots (self : AccountSession) (heap : Heap Key) :
    Option (List (Option (Commander Key))) :=
  (List.range self.commandersCountMax).mapM fun (i : ℕ) => do
    match ← heap.slot self.commanders i with
    | none => return none
    | some p => return some (← heap.commander p)

/-- The commanders of the slots that are occupied. -/
def accountSessionCommanders (self : AccountSession) (heap : Heap Key) :
    Option (List (Commander Key)) := do
  return (← accountSessionSlots self heap).filterMap id

def accountSessionGetCommandersCount (self : AccountSession) (heap : Heap Key) : Option ℕ := do
  return (← accountSessionCommanders self heap).length

def accountSessionGetSPacketSize (self : AccountSession) (heap : Heap Key) : Option ℕ := do
  let commanders ← accountSessionCommanders self heap
  let sizes ← commanders.mapM fun commander => commanderGetSPacketSize commander heap.toMemory
  return accountSessionSPacketSize + sizes.sum

/-- The commanders, one behind the other. The size of a hash is found by `zhashSize`. -/
def commandersSerializeSPacket (zhashSize : Inventory Key → ℕ) (memory : Memory) :
    List (Commander Key) → PacketStream → Option PacketStream
  | [], stream => some stream
  | commander :: commanders, stream =>
    (commanderSerializeSPacket commander memory (zhashSize commander.inventory) stream).bind
      (commandersSerializeSPacket zhashSize memory commanders)

def accountSessionSerializeSPacket (zhashSize : Inventory Key → ℕ) (self : AccountSession)
    (heap : Heap Key) (stream : PacketStream) : Option PacketStream := do
  let stream := serializeFields accountSessionPacketFields self stream
  let commandersCount ← accountSessionGetCommandersCount self heap
  let stream := stream.packetStreamAppend (leBytes 8 commandersCount)
  let commanders ← accountSessionCommanders self heap
  commandersSerializeSPacket zhashSize heap.toMemory commanders stream

/-- The first commander is decoded to where an uninitialised pointer points. -/
def commandersUnserializeSPacket : ℕ → Unserialize Unit
  | 0 => return ()
  | _ + 1 => fault .uninitialised

/-- The array has as many pointers as there are commanders, not as there are slots. What
the pointers of a new array are does not matter, since there are none or the decoder fails. -/
def accountSessionUnserialize (self : AccountSession) (heap : Heap Key) :
    Unserialize (Bool × AccountSession × Heap Key) := do
  let self ← unserializeFields accountSessionPacketFields self
  match ← packetStreamGet 8 with
  | none => fault .uninitialised
  | some commandersCount =>
    let commandersCount := leValue commandersCount
    let (commanders, heap) := heap.newArray (List.replicate commandersCount none)
    commandersUnserializeSPacket commandersCount
    return (true, { self with commanders := some commanders }, heap)

/-- An account session serialised into a buffer of the size it announces. -/
def accountSessionSerialized (zhashSize : Inventory Key → ℕ) (self : AccountSession)
    (heap : Heap Key) : Option (List UInt8) := do
  let size ← accountSessionGetSPacketSize self heap
  (accountSessionSerializeSPacket zhashSize self heap
    (packetStreamInit (List.replicate size 0) size)).map written

/-- Serialising appends as many bytes as are announced. -/
def AccountSessionAppendsAnnounced (zhashSize : Inventory Key → ℕ) (self : AccountSession)
    (heap : Heap Key) : Prop :=
  ∃ bytes, accountSessionSerialized zhashSize self heap = some bytes ∧
    accountSessionGetSPacketSize self heap = some bytes.length

/-- The slot is defined in both sessions, and holds the same commander or none. -/
def SameSlot (self : AccountSession) (heap : Heap Key) (self' : AccountSession)
    (heap' : Heap Key) (i : ℕ) : Prop :=
  ∃ slot slot', heap.slot self.commanders i = some slot ∧ heap'.slot self'.commanders i = some slot' ∧
    Option.Rel (fun p p' => ∃ c c', heap.commander p = some c ∧ heap'.commander p' = some c' ∧
      c = { c' with barrackPos := c.barrackPos, inventory := c.inventory } ∧
      SameItems (c.store heap.toMemory) (c'.store heap'.toMemory)) slot slot'

/-- Decoding into a fresh session gives back the account's id, its names, the session key, and
each slot. -/
def AccountSessionRestored (zhashSize : Inventory Key → ℕ) (self : AccountSession)
    (heap : Heap Key) : Prop :=
  ∃ bytes, accountSessionSerialized zhashSize self heap = some bytes ∧ ∀ heap' : Heap Key,
    ∃ self' heap'' stream, accountSessionUnserialize .zero heap'
        (packetStreamInit bytes bytes.length) = .ok ((true, self', heap''), stream) ∧
      self'.accountId = self.accountId ∧ self'.accountName = self.accountName ∧
      self'.familyName = self.familyName ∧ self'.sessionKey = self.sessionKey ∧
      self'.commandersCountMax = self.commandersCountMax ∧
      ∀ i < self.commandersCountMax, SameSlot self heap self' heap'' i

/-- No slots, no id, and names and a key of at most one character. -/
structure Bare (session : AccountSession) : Prop where
  slots : session.commandersCountMax = 0
  id : session.accountId = 0
  accountName : ∀ i (h : i < 33), 0 < i → session.accountName[i] = 0
  familyName : ∀ i (h : i < 64), 0 < i → session.familyName[i] = 0
  sessionKey : ∀ i (h : i < 11), 0 < i → session.sessionKey[i] = 0

@[simp] theorem boolField_copy {σ : Type} (get : σ → Bool) (set : Bool → σ → σ) (x y : σ) :
    (boolField get set).set ((boolField get set).get x) y = set (get x) y := by
  have hlt : (get x).toNat < 256 ^ 1 := by cases get x <;> decide
  have hvalue : ((get x).toNat != 0) = get x := by cases get x <;> rfl
  simp only [boolField, numberField, leValue_leBytes_of_lt hlt, hvalue]

theorem sizeField_copy {σ : Type} {get : σ → ℕ} (set : ℕ → σ → σ) {x : σ} (h : get x < 2 ^ 64)
    (y : σ) : (sizeField get set).set ((sizeField get set).get x) y = set (get x) y := by
  rw [sizeField, numberField_copy h]

theorem accountSessionPacketFields_sized : Sized accountSessionPacketFields := by
  simp [Sized, accountSessionPacketFields, charsField, boolField, sizeField, u8Field, u32Field, u64Field,
    numberField]

theorem accountSessionPacketFields_length (self : AccountSession) :
    (fieldBytes accountSessionPacketFields self).length = 40 := by
  rw [fieldBytes_length accountSessionPacketFields_sized]
  simp [accountSessionPacketFields, charsField, boolField, sizeField, u8Field, u32Field, u64Field,
    numberField]

/-- What is copied of an account session: its fields, and first characters. -/
theorem accountSessionPacketFields_copy {self : AccountSession} (h : self.commandersCountMax < 2 ^ 64)
    (other : AccountSession) :
    copyFields accountSessionPacketFields self other =
      { self with
        accountName := other.accountName.set 0 self.accountName[0]
        familyName := other.familyName.set 0 self.familyName[0]
        sessionKey := other.sessionKey.set 0 self.sessionKey[0]
        accountId := other.accountId
        commanders := other.commanders } := by
  simp only [copyFields, accountSessionPacketFields, List.foldl_cons, List.foldl_nil, charsField,
    u8Field_copy, u32Field_copy, u64Field_copy, boolField_copy]
  rw [sizeField_copy _ h]

section Serialise

/-- The commanders announce 127 bytes each that are not written. -/
theorem commandersSerializeSPacket_writes (zhashSize : Inventory Key → ℕ) {memory : Memory}
    {commanders : List (Commander Key)}
    (h : ∀ c ∈ commanders, ∃ contents, (c.store memory).contents = some contents) :
    ∃ bytes sizes, WritesSome (commandersSerializeSPacket zhashSize memory commanders) bytes ∧
      commanders.mapM (fun c => commanderGetSPacketSize c memory) = some sizes ∧
      bytes.length + 127 * commanders.length = sizes.sum := by
  induction commanders with
  | nil => exact ⟨[], [], fun stream _ _ => by rw [packetStreamAppend_nil]; rfl, rfl, rfl⟩
  | cons c cs ih =>
    obtain ⟨contents, hcontents⟩ := h c (List.mem_cons_self ..)
    obtain ⟨bytes, sizes, hwrites, hsizes, hsum⟩ := ih fun d hd => h d (List.mem_cons_of_mem _ hd)
    have hfirst := commanderSerializeSPacket_writes hcontents (zhashSize c.inventory)
    have hsize := commanderGetSPacketSize_eq hcontents (zhashSize c.inventory)
    generalize fieldBytes commanderPacketFields c ++
      inventorySPacket (c.store memory).equipment (zhashSize c.inventory) contents = front
      at hfirst hsize
    refine ⟨front ++ bytes, (front.length + 127) :: sizes, hfirst.bind hwrites, ?_, ?_⟩
    · rw [List.mapM_cons, hsize, hsizes]
      rfl
    · rw [List.length_append, List.length_cons, List.sum_cons]
      omega

variable {self : AccountSession} {heap : Heap Key} {commanders : List (Commander Key)}

/-- 120 bytes of what is announced are not written, and 127 of each commander. -/
theorem accountSessionSerialized_eq (zhashSize : Inventory Key → ℕ)
    (hcommanders : accountSessionCommanders self heap = some commanders)
    (h : ∀ c ∈ commanders, ∃ contents, (c.store heap.toMemory).contents = some contents) :
    ∃ bytes, accountSessionSerialized zhashSize self heap =
        some (fieldBytes accountSessionPacketFields self ++ leBytes 8 commanders.length ++ bytes) ∧
      accountSessionGetSPacketSize self heap =
        some (48 + bytes.length + 127 * commanders.length + 120) ∧
      (commanders = [] → bytes = []) := by
  obtain ⟨bytes, sizes, hwrites, hsizes, hsum⟩ := commandersSerializeSPacket_writes zhashSize h
  have hlength := accountSessionPacketFields_length self
  have hall := ((serializeFields_writes accountSessionPacketFields self).comp
    (writes_append (leBytes 8 commanders.length))).writesSome.bind hwrites
  have hsize : accountSessionGetSPacketSize self heap =
      some (48 + bytes.length + 127 * commanders.length + 120) := by
    rw [accountSessionGetSPacketSize, hcommanders, Option.bind_eq_bind, Option.bind_some, hsizes,
      Option.bind_eq_bind, Option.bind_some, accountSessionSPacketSize, ← hsum]
    exact congrArg some (by omega)
  have hserialize : ∀ stream, accountSessionSerializeSPacket zhashSize self heap stream =
      (some ((serializeFields accountSessionPacketFields self stream).packetStreamAppend
        (leBytes 8 commanders.length))).bind
          (commandersSerializeSPacket zhashSize heap.toMemory commanders) := by
    intro stream
    simp only [accountSessionSerializeSPacket, accountSessionGetCommandersCount, hcommanders,
      Option.pure_def, Option.bind_eq_bind, Option.bind_some]
  refine ⟨bytes, ?_, hsize, ?_⟩
  · have hle : (fieldBytes accountSessionPacketFields self ++ leBytes 8 commanders.length ++
        bytes).length ≤ 48 + bytes.length + 127 * commanders.length + 120 := by
      simp only [List.length_append, leBytes_length]
      omega
    rw [accountSessionSerialized, hsize, Option.bind_eq_bind, Option.bind_some, hserialize]
    exact hall.written hle
  · rintro rfl
    have hempty : sizes = [] := (Option.some.inj hsizes).symm
    rw [hempty] at hsum
    exact List.length_eq_zero_iff.mp (by simpa using hsum)

end Serialise

section Unserialise
variable {self : AccountSession} {heap : Heap Key} {stream : PacketStream} {r : List UInt8}

theorem accountSessionPacketFields_unserialize (hmax : self.commandersCountMax < 2 ^ 64)
    (other : AccountSession) {n : ℕ} (hw : stream.Whole)
    (hrest : stream.rest = fieldBytes accountSessionPacketFields self ++ leBytes 8 n ++ r) :
    unserializeFields accountSessionPacketFields other stream =
        .ok ({ self with
          accountName := other.accountName.set 0 self.accountName[0]
          familyName := other.familyName.set 0 self.familyName[0]
          sessionKey := other.sessionKey.set 0 self.sessionKey[0]
          accountId := other.accountId
          commanders := other.commanders }, stream.packetStreamAddOffset 40) ∧
      packetStreamGet 8 (stream.packetStreamAddOffset 40) =
        .ok (some (leBytes 8 n), stream.packetStreamAddOffset 48) := by
  have hlength := accountSessionPacketFields_length self
  have hlen : stream.rest.length = 40 + 8 + r.length := by
    rw [hrest, List.length_append, List.length_append, hlength, leBytes_length]
  have hroom : stream.position + (fieldBytes accountSessionPacketFields self).length ≤ stream.size := by
    rw [rest_length] at hlen
    rw [hw]
    omega
  rw [List.append_assoc] at hrest
  have hfields := unserializeFields_ok accountSessionPacketFields_sized self other hrest hroom
  rw [accountSessionPacketFields_copy hmax, hlength] at hfields
  have hget := reads_get (hw.offset 40) (n := 8) (by decide)
    (by rw [packetStreamAddOffset_rest, List.length_drop]; omega)
  rw [packetStreamAddOffset_rest, hrest, List.drop_left' hlength,
    List.take_left' (leBytes_length 8 n), packetStreamAddOffset_add] at hget
  exact ⟨hfields, hget⟩

/-- With a commander, the decoder follows a pointer that was never set. -/
theorem accountSessionUnserialize_commander (hmax : self.commandersCountMax < 2 ^ 64) {n : ℕ}
    (hn : n < 2 ^ 64) (hpos : 0 < n) (hw : stream.Whole)
    (hrest : stream.rest = fieldBytes accountSessionPacketFields self ++ leBytes 8 n ++ r) :
    accountSessionUnserialize .zero heap stream = .error .uninitialised := by
  obtain ⟨hfields, hget⟩ := accountSessionPacketFields_unserialize hmax .zero hw hrest
  rw [accountSessionUnserialize, bind_ok hfields, bind_ok hget]
  have hvalue : leValue (leBytes 8 n) = n := leValue_leBytes_of_lt (show n < 256 ^ 8 from hn)
  have hfault : commandersUnserializeSPacket n (stream.packetStreamAddOffset 48) =
      .error .uninitialised := by
    cases n with
    | zero => exact absurd hpos (Nat.lt_irrefl 0)
    | succ n => rfl
  simp only [hvalue]
  exact bind_error hfault _

/-- Without commanders, the new array is empty. -/
theorem accountSessionUnserialize_none (hmax : self.commandersCountMax < 2 ^ 64) (hw : stream.Whole)
    (hrest : stream.rest = fieldBytes accountSessionPacketFields self ++ leBytes 8 0 ++ r) :
    accountSessionUnserialize .zero heap stream = .ok ((true, { self with
        accountName := AccountSession.zero.accountName.set 0 self.accountName[0]
        familyName := AccountSession.zero.familyName.set 0 self.familyName[0]
        sessionKey := AccountSession.zero.sessionKey.set 0 self.sessionKey[0]
        accountId := 0
        commanders := some (heap.newArray []).1 }, (heap.newArray []).2),
      stream.packetStreamAddOffset 48) := by
  obtain ⟨hfields, hget⟩ := accountSessionPacketFields_unserialize hmax .zero hw hrest
  rw [accountSessionUnserialize, bind_ok hfields, bind_ok hget]
  rfl

/-- The new array has no slot. -/
theorem newArray_slot (heap : Heap Key) (i : ℕ) :
    (heap.newArray []).2.slot (some (heap.newArray []).1) i = none := by
  simp [Heap.slot, Heap.newArray]

end Unserialise

theorem mapM_length {α β : Type} {f : α → Option β} {l : List α} {l' : List β}
    (h : l.mapM f = some l') : l'.length = l.length := by
  induction l generalizing l' with
  | nil =>
    cases h
    rfl
  | cons x xs ih =>
    rw [List.mapM_cons] at h
    obtain ⟨y, -, h⟩ := Option.bind_eq_some_iff.mp h
    obtain ⟨ys, hys, h⟩ := Option.bind_eq_some_iff.mp h
    cases h
    rw [List.length_cons, List.length_cons, ih hys]

/-- There are no more commanders than slots. -/
theorem accountSessionCommanders_length {self : AccountSession} {heap : Heap Key}
    {commanders : List (Commander Key)} (h : accountSessionCommanders self heap = some commanders) :
    commanders.length ≤ self.commandersCountMax := by
  rw [accountSessionCommanders, accountSessionSlots] at h
  obtain ⟨slots, hslots, h⟩ := Option.bind_eq_some_iff.mp h
  cases h
  have hlength := mapM_length hslots
  rw [List.length_range] at hlength
  exact hlength ▸ List.length_filterMap_le id slots

/-- What an account session is made of when every slot and every bag of its commanders points to
what is allocated, and its number of slots fits a `size_t`. -/
structure Allocated (session : AccountSession) (heap : Heap Key)
    (commanders : List (Commander Key)) : Prop where
  commanders_eq : accountSessionCommanders session heap = some commanders
  contents : ∀ c ∈ commanders, ∃ contents, (c.store heap.toMemory).contents = some contents
  max_lt : session.commandersCountMax < 2 ^ 64

section RoundTrip
variable {zhashSize : Inventory Key → ℕ} {self : AccountSession} {heap : Heap Key}
  {commanders : List (Commander Key)}

/-- The announced number of bytes is never written. -/
theorem not_accountSessionAppendsAnnounced (h : Allocated self heap commanders) :
    ¬ AccountSessionAppendsAnnounced zhashSize self heap := by
  obtain ⟨front, hserialized, hsize, -⟩ :=
    accountSessionSerialized_eq zhashSize h.commanders_eq h.contents
  rintro ⟨bytes, hwritten, hannounced⟩
  rw [hserialized] at hwritten
  obtain rfl := Option.some.inj hwritten
  rw [hsize] at hannounced
  have hlength := Option.some.inj hannounced
  have hfields := accountSessionPacketFields_length self
  simp only [List.length_append, leBytes_length] at hlength
  omega

theorem accountSessionRestored_iff (h : Allocated self heap commanders) :
    AccountSessionRestored zhashSize self heap ↔ Bare self := by
  obtain ⟨tail, hserialized, -, htail⟩ :=
    accountSessionSerialized_eq zhashSize h.commanders_eq h.contents
  have hcount := accountSessionCommanders_length h.commanders_eq
  constructor
  · rintro ⟨bytes, hwritten, hdecoded⟩
    rw [hserialized] at hwritten
    obtain rfl := Option.some.inj hwritten
    obtain ⟨self', heap', stream, hrun, hid, hname, hfamily, hkey, -, hslots⟩ := hdecoded heap
    by_cases hnone : commanders = []
    · subst hnone
      rw [List.length_nil,
        accountSessionUnserialize_none h.max_lt (PacketStream.whole_init _) rfl] at hrun
      cases hrun
      refine ⟨?_, hid.symm, ?_, ?_, ?_⟩
      · by_contra hmax
        obtain ⟨slot, slot', -, hslot', -⟩ := hslots 0 (Nat.pos_of_ne_zero hmax)
        rw [newArray_slot] at hslot'
        cases hslot'
      · exact (chars_set_zero self.accountName).mp hname
      · exact (chars_set_zero self.familyName).mp hfamily
      · exact (chars_set_zero self.sessionKey).mp hkey
    · rw [accountSessionUnserialize_commander h.max_lt (hcount.trans_lt h.max_lt)
        (List.length_pos_iff.mpr hnone) (PacketStream.whole_init _) rfl] at hrun
      cases hrun
  · intro hbare
    have hnone : commanders = [] := by
      rw [hbare.slots] at hcount
      exact List.length_eq_zero_iff.mp (Nat.le_zero.mp hcount)
    subst hnone
    rw [List.length_nil] at hserialized
    refine ⟨_, hserialized, fun heap' => ⟨_, _, _,
      accountSessionUnserialize_none h.max_lt (PacketStream.whole_init _) rfl, hbare.id.symm,
      (chars_set_zero self.accountName).mpr hbare.accountName,
      (chars_set_zero self.familyName).mpr hbare.familyName,
      (chars_set_zero self.sessionKey).mpr hbare.sessionKey, rfl, fun i hi => ?_⟩⟩
    rw [hbare.slots] at hi
    cases hi

end RoundTrip

/-- Of no account session is the announced number of bytes written, and it is given back
exactly when it has no slots, no id, and names and a key of at most one character. -/
theorem accountSession_round_trip {zhashSize : Inventory Key → ℕ} {self : AccountSession}
    {heap : Heap Key} {commanders : List (Commander Key)} (h : Allocated self heap commanders) :
    ¬ AccountSessionAppendsAnnounced zhashSize self heap ∧
      (AccountSessionRestored zhashSize self heap ↔ Bare self) :=
  ⟨not_accountSessionAppendsAnnounced h, accountSessionRestored_iff h⟩

/-- A heap with one commander and its clothes. -/
def dressedHeap : Heap UInt64 :=
  { emptyArena with item := closet.item, commanders := [some dressed], arrays := [[none, some 0]]
                    actorId := 0, attempts := 0 }

/-- The session of an account that has nothing yet. -/
def newAccount : AccountSession :=
  { AccountSession.zero with
    accountName := strncpy 33 [97]
    sessionKey := strncpy 11 [65]
    familyName := strncpy 64 [66]
    privilege := 3, credits := 500, timeLastLogin := 1446896240, barrackType := 11 }

/-- The session of an account with a commander in the second of two slots. -/
def dressedAccount : AccountSession :=
  { newAccount with accountId := 7, commanders := some 0, commandersCountMax := 2 }

theorem accountSession_round_trip_dressed :
    (¬ AccountSessionAppendsAnnounced (fun _ => 0) newAccount dressedHeap ∧
      AccountSessionRestored (fun _ => 0) newAccount dressedHeap) ∧
    ¬ AccountSessionAppendsAnnounced (fun _ => 0) dressedAccount dressedHeap ∧
      ¬ AccountSessionRestored (fun _ => 0) dressedAccount dressedHeap := by
  have hnew : Allocated newAccount dressedHeap [] := ⟨rfl, by simp, by decide⟩
  have hdressed : Allocated dressedAccount dressedHeap [dressed] := by
    refine ⟨rfl, fun c hc => ⟨[], ?_⟩, by decide⟩
    rw [List.mem_singleton.mp hc]
    rfl
  have hbare : Bare newAccount := ⟨rfl, rfl, (chars_set_zero newAccount.accountName).mp rfl,
    (chars_set_zero newAccount.familyName).mp rfl, (chars_set_zero newAccount.sessionKey).mp rfl⟩
  obtain ⟨hnewSize, hnewRestored⟩ := accountSession_round_trip hnew
  obtain ⟨hsize, hrestored⟩ := accountSession_round_trip hdressed
  refine ⟨⟨hnewSize, hnewRestored.mpr hbare⟩, hsize, fun h => ?_⟩
  exact absurd (hrestored.mp h).slots (by decide)

/-- A heap with one new commander, in the second of two slots. -/
def oneCommander : Heap UInt64 :=
  { emptyArena with commanders := [some commanderInit], arrays := [[none, some 0]]
                    actorId := 0, attempts := 0 }

/-- The session of an account with a hole in front of its commander. -/
def twoSlots : AccountSession :=
  { AccountSession.zero with accountId := 7, commanders := some 0, commandersCountMax := 2 }

theorem accountSession_round_trip_twoSlots :
    ¬ (AccountSessionAppendsAnnounced (fun _ => 0) twoSlots oneCommander ∧
      AccountSessionRestored (fun _ => 0) twoSlots oneCommander) := by
  rintro ⟨-, hrestored⟩
  have hallocated : Allocated twoSlots oneCommander [commanderInit] := by
    refine ⟨rfl, fun c hc => ⟨[], ?_⟩, by decide⟩
    rw [List.mem_singleton.mp hc]
    rfl
  have hbare := (accountSessionRestored_iff hallocated).mp hrestored
  exact absurd hbare.slots (by decide)

end R1Emu.Game
