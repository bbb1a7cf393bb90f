import R1Emu.Handler.Zone
import R1Emu.Game.Payload

/-!
# The bounds of a chat message

The size of the text is computed from the packet's first field before anything is checked, and
the check that follows only compares it with the number of bytes that have come. A text is
copied into an event of its own size, and from there into one of a fixed size.
-/
namespace R1Emu.Handler
open R1Emu.Game R1Emu.Lib R1Emu.Lib.Stage R1Emu.Lib.Buffer R1Emu.Lib.Bytes R1Emu.Server
open R1Emu.Packet hiding bind_ok bind_error

/-- What is behind the header of a packet, which is in memory. -/
structure Payload where
  bytes : List UInt8
  length_lt : bytes.length < 2 ^ 63

/-- The names in the table of admin commands. -/
def adminCommands : List String :=
  ["spawn", "jump", "additem", "addskill", "test", "where", "changeCamera", "setStamina", "setSP",
    "setLevel", "setJobPoints", "setSpeed"]

/-- `strtok(command, " ")`. -/
def commandName (command : List UInt8) : List UInt8 :=
  (command.dropWhile (· == 0x20)).takeWhile (· != 0x20)

/-- Whether `adminCmdProcess` finds a handler for the command. -/
def isAdminCommand (command : List UInt8) : Bool :=
  adminCommands.any fun name => name.toList.map (fun c => UInt8.ofNat c.toNat) = commandName command

/-- `CHAT_TEXT_SIZE_MAX`. -/
def chatTextSizeMax : ℕ := 500

/-- The size of a structure whose alignment is eight, that of the pointers in a `Commander`. -/
def paddedSize (size : ℕ) : ℕ := (size + 7) / 8 * 8

/-- `sizeof(Commander)`, with pointers of eight bytes. -/
def commanderSize : ℕ := 552

/-- `sizeof(GameEventChat)`, for a text of a size. -/
def gameEventChatSize (chatTextSize : ℕ) : ℕ := paddedSize (commanderSize + chatTextSize)

/-- `sizeof(GameEventUpdatePosition)`: a map, a commander and a position. -/
def gameEventUpdatePositionSize : ℕ := paddedSize (paddedSize 2 + commanderSize + 12)

/-- The sizes of the members of `ZoneEvent`, in their order. -/
def zoneEventSizes : List ℕ :=
  [paddedSize (gameEventUpdatePositionSize + 12 + 8 + 4),
    paddedSize (gameEventUpdatePositionSize + 12 + 8 + 4), 4,
    paddedSize (gameEventUpdatePositionSize + 4), gameEventUpdatePositionSize,
    gameEventChatSize chatTextSizeMax, 12, 12, 4, 28]

/-- `sizeof(EventDataCategories)`, which is a union with no other members that have a size. -/
def eventDataSize : ℕ := zoneEventSizes.foldl max 0

/-- `memcpy(&gameEvent.data, event, eventSize)` for an event with the text. The padding of the
event is copied with it. -/
def eventServerDispatchChat (chatText : List UInt8) : Option (List UInt8) :=
  if gameEventChatSize chatText.length ≤ eventDataSize then some chatText else none

inductive ChatResult
  | error
  | command (command : List UInt8)
  | chat (chatText : List UInt8)

/-- The payload as the handler leaves it, and what it does. -/
structure ChatRun where
  payload : List UInt8
  result : ChatResult

/-- The first field, less two headers. -/
def chatMsgSize (packetSize : ℕ) : ℕ := sizeSub (sizeSub packetSize (clientHeaderSize true)) 2

/-- The command that is processed, where the text is one. -/
def chatCommand (privilege : UInt32) (payload : List UInt8) : Option (Option (List UInt8)) :=
  if privilege ≤ privilegesAdmin then do
    let first ← slice payload 2 1
    if first = [0x2f] then do
      let command ← cstring payload 3
      return if isAdminCommand command then some command else none
    else return none
  else some none

/-- `zoneHandlerChat` on the bytes that have come. Everything else is out of its bounds. -/
def chatPayload (privilege : UInt32) (payload : List UInt8) : Option ChatRun := do
  let msgSize := chatMsgSize (leValue (← slice payload 0 2))
  if checkClientPacketSize PacketType.czChat.size ((2 + msgSize) % 2 ^ 64) payload.length then do
    let payload ← put payload ((2 + sizeSub msgSize 1) % 2 ^ 64) 0
    match ← chatCommand privilege payload with
    | some command => return ⟨payload, .command command⟩
    | none =>
      let chatText ← eventServerDispatchChat (← slice payload 2 msgSize)
      return ⟨payload, .chat chatText⟩
  else return ⟨payload, .error⟩

/-- The first field of a payload. -/
def Payload.sizeField (self : Payload) : ℕ := leValue (self.bytes.take 2)

/-- The text has a length, it has come as a whole, it ends with the zero that is written, and an
event that is dispatched has this text and fits the data of a game event. -/
structure WithinMessage (payload : Payload) (r : ChatRun) : Prop where
  positive : 0 < chatMsgSize payload.sizeField
  received : 2 + chatMsgSize payload.sizeField ≤ payload.bytes.length
  terminated : r.payload = payload.bytes.set (2 + (chatMsgSize payload.sizeField - 1)) 0
  copied : ∀ chatText, r.result = .chat chatText →
    chatText = (r.payload.drop 2).take (chatMsgSize payload.sizeField) ∧
      gameEventChatSize chatText.length ≤ eventDataSize

/-- Nothing outside the payload is read or written. The handler returns an error and leaves the
payload alone, or it stays within the message. -/
def ChatBounded (privilege : UInt32) (payload : Payload) : Prop :=
  ∃ r, chatPayload privilege payload.bytes = some r ∧
    ((r.result = .error ∧ r.payload = payload.bytes) ∨ WithinMessage payload r)

/-- The size check passes. -/
def Payload.Accepted (self : Payload) : Prop :=
  10 ≤ self.sizeField ∧ self.bytes.length + 2 ≤ self.sizeField ∧
    self.sizeField ≤ self.bytes.length + 10

/-- The text, with its terminator. -/
def Payload.text (self : Payload) : List UInt8 :=
  (self.bytes.drop 2).take (self.sizeField - 13) ++ [0]

/-- The text is an admin command of an admin. -/
def Payload.Commands (self : Payload) (privilege : UInt32) : Prop :=
  privilege ≤ privilegesAdmin ∧ ∃ command, self.text = 0x2f :: command ∧
    isAdminCommand (command.takeWhile (· != 0)) = true

/-- There is a size, and a message that is accepted has a text, which is not too long or is not
dispatched. -/
structure ChatFits (privilege : UInt32) (payload : Payload) : Prop where
  sized : 2 ≤ payload.bytes.length
  text : payload.Accepted → 13 ≤ payload.sizeField
  short : payload.Accepted → payload.sizeField ≤ 516 ∨ payload.Commands privilege

section Sizes
variable {payload : Payload}

/-- The padding of the largest event leaves room for four bytes more than its text has. -/
theorem gameEventChatSize_le_iff (chatTextSize : ℕ) :
    gameEventChatSize chatTextSize ≤ eventDataSize ↔ chatTextSize ≤ chatTextSizeMax + 4 := by
  have hdata : eventDataSize = 1056 := rfl
  rw [hdata, gameEventChatSize, paddedSize, commanderSize, chatTextSizeMax]
  omega

theorem sizeField_lt (payload : Payload) : payload.sizeField < 2 ^ 16 := by
  have hlt := leValue_lt (payload.bytes.take 2)
  have hle : (payload.bytes.take 2).length ≤ 2 := List.length_take_le _ _
  have hpow : 256 ^ (payload.bytes.take 2).length ≤ 256 ^ 2 := Nat.pow_le_pow_right (by decide) hle
  exact hlt.trans_le hpow

theorem chatMsgSize_of_le {size : ℕ} (h : 12 ≤ size) (hlt : size < 2 ^ 16) :
    chatMsgSize size = size - 12 := by
  have hheader : sizeSub size 10 = size - 10 := sizeSub_of_le (by omega) (by omega)
  have hfield : sizeSub (size - 10) 2 = size - 10 - 2 := sizeSub_of_le (by omega) (by omega)
  rw [chatMsgSize, clientHeaderSize, if_pos rfl, hheader, hfield]
  omega

theorem chatMsgSize_of_lt {size : ℕ} (h : size < 12) :
    chatMsgSize size = 2 ^ 64 - (12 - size) := by
  have hcases : ∀ n < 12, chatMsgSize n = 2 ^ 64 - (12 - n) := by decide
  exact hcases size h

/-- The size check, as it comes out for all sizes. -/
theorem checkClientPacketSize_chat (payload : Payload) :
    checkClientPacketSize PacketType.czChat.size ((2 + chatMsgSize payload.sizeField) % 2 ^ 64)
      payload.bytes.length = true ↔ payload.Accepted := by
  have hlt := sizeField_lt payload
  have hlength := payload.length_lt
  have htype : PacketType.czChat.size = 0 := rfl
  rw [checkClientPacketSize, htype, Payload.Accepted]
  simp only [decide_true, Bool.true_or, Bool.true_and, Bool.and_eq_true, decide_eq_true_eq]
  by_cases hsmall : payload.sizeField < 12
  · rw [chatMsgSize_of_lt hsmall]
    omega
  · rw [chatMsgSize_of_le (Nat.le_of_not_lt hsmall) hlt]
    omega

/-- Without a size the handler reads behind the payload. -/
theorem chatPayload_short (privilege : UInt32) (h : payload.bytes.length < 2) :
    chatPayload privilege payload.bytes = none := by
  rw [chatPayload, slice_of_lt (by omega)]
  rfl

theorem chatPayload_refused (privilege : UInt32) (hsized : 2 ≤ payload.bytes.length)
    (h : ¬ payload.Accepted) :
    chatPayload privilege payload.bytes = some ⟨payload.bytes, .error⟩ := by
  rw [chatPayload, slice_of_le (by omega)]
  exact if_neg ((checkClientPacketSize_chat payload).not.mpr h)

/-- A message that is accepted is terminated and then processed or dispatched. -/
theorem chatPayload_accepted (privilege : UInt32) (hsized : 2 ≤ payload.bytes.length)
    (h : payload.Accepted) : chatPayload privilege payload.bytes = (do
      let bytes ← put payload.bytes ((2 + sizeSub (chatMsgSize payload.sizeField) 1) % 2 ^ 64) 0
      match ← chatCommand privilege bytes with
      | some command => return ⟨bytes, .command command⟩
      | none =>
        let chatText ← eventServerDispatchChat (← slice bytes 2 (chatMsgSize payload.sizeField))
        return ⟨bytes, .chat chatText⟩) := by
  rw [chatPayload, slice_of_le (by omega)]
  exact if_pos ((checkClientPacketSize_chat payload).mpr h)

end Sizes

section Accepted
variable {payload : Payload} {privilege : UInt32}

/-- The payload with the terminator: its size, the text, and what is left. -/
theorem terminated_eq (h : payload.Accepted) (htext : 13 ≤ payload.sizeField) :
    payload.bytes.set (2 + (payload.sizeField - 12 - 1)) 0 =
      payload.bytes.take 2 ++ (payload.text ++ payload.bytes.drop (payload.sizeField - 10)) := by
  obtain ⟨-, -, hreceived⟩ := h
  have hindex : 2 + (payload.sizeField - 12 - 1) = 2 + (payload.sizeField - 13) := by omega
  have hbehind : 2 + (payload.sizeField - 13) + 1 = payload.sizeField - 10 := by omega
  rw [hindex, List.set_eq_take_append_cons_drop, if_pos (by omega), hbehind, List.take_add,
    Payload.text, List.append_assoc, List.append_assoc, List.singleton_append]

theorem text_length (h : payload.Accepted) (htext : 13 ≤ payload.sizeField) :
    payload.text.length = payload.sizeField - 12 := by
  obtain ⟨-, -, hreceived⟩ := h
  rw [Payload.text, List.length_append, List.length_take, List.length_drop, List.length_singleton]
  omega

theorem take_two_length (hsized : 2 ≤ payload.bytes.length) :
    (payload.bytes.take 2).length = 2 := by
  rw [List.length_take]
  omega

/-- What is read at the text of a terminated message. -/
theorem slice_text (hsized : 2 ≤ payload.bytes.length) (behind : List UInt8) :
    slice (payload.bytes.take 2 ++ (payload.text ++ behind)) 2 payload.text.length =
      some payload.text := by
  have hfront := take_two_length hsized
  rw [slice_of_le (by simp only [List.length_append]; omega), List.drop_left' hfront,
    List.take_left]

/-- A command is read within the text, which ends with its terminator. -/
theorem chatCommand_text (privilege : UInt32) (hsized : 2 ≤ payload.bytes.length)
    (behind : List UInt8) : ∃ r,
      chatCommand privilege (payload.bytes.take 2 ++ (payload.text ++ behind)) = some r ∧
        (r.isSome = true ↔ payload.Commands privilege) := by
  have hfront := take_two_length hsized
  rw [chatCommand]
  by_cases hprivilege : privilege ≤ privilegesAdmin
  · rw [if_pos hprivilege]
    obtain ⟨letter, rest, htext⟩ : ∃ letter rest, payload.text = letter :: rest := by
      apply List.exists_cons_of_ne_nil
      simp [Payload.text]
    have hslice : slice (payload.bytes.take 2 ++ (payload.text ++ behind)) 2 1 = some [letter] := by
      rw [slice_of_le (by simp only [List.length_append, htext, List.length_cons]; omega),
        List.drop_left' hfront, htext]
      rfl
    rw [hslice]
    simp only [Option.bind_eq_bind, Option.bind_some, List.cons.injEq, and_true]
    by_cases hslash : letter = 0x2f
    · rw [if_pos hslash]
      have hterminator : 0 ∈ rest := by
        have hlast : payload.text.getLast? = some 0 := by simp [Payload.text]
        rw [htext, List.getLast?_cons] at hlast
        cases hrest : rest.getLast? with
        | none =>
          rw [hrest] at hlast
          exact absurd (hslash.symm.trans (Option.some.inj hlast)) (by decide)
        | some last =>
          rw [hrest] at hlast
          obtain rfl : last = 0 := Option.some.inj hlast
          exact List.mem_of_getLast? hrest
      have hdrop : (payload.bytes.take 2 ++ (payload.text ++ behind)).drop 3 = rest ++ behind := by
        rw [← List.drop_drop (i := 1) (j := 2), List.drop_left' hfront, htext]
        rfl
      have hscan : cstring (payload.bytes.take 2 ++ (payload.text ++ behind)) 3 =
          some (rest.takeWhile (· != 0)) := by
        rw [cstring_of_mem (hdrop ▸ List.mem_append_left _ hterminator), hdrop,
          takeWhile_append_of_mem hterminator]
      have hcommands : payload.Commands privilege ↔
          isAdminCommand (rest.takeWhile (· != 0)) = true := by
        simp [Payload.Commands, hprivilege, htext, hslash]
      rw [hscan, hcommands]
      refine ⟨_, rfl, ?_⟩
      by_cases hcommand : isAdminCommand (rest.takeWhile (· != 0)) = true <;> simp [hcommand]
    · rw [if_neg hslash]
      refine ⟨none, rfl, ?_⟩
      simp [Payload.Commands, htext, hslash]
  · rw [if_neg hprivilege]
    exact ⟨none, rfl, by simp [Payload.Commands, hprivilege]⟩

/-- A message with a text is within its bounds exactly when an event takes the text or none is
dispatched. -/
theorem chatBounded_accepted (hsized : 2 ≤ payload.bytes.length) (h : payload.Accepted)
    (htext : 13 ≤ payload.sizeField) : ChatBounded privilege payload ↔
      payload.sizeField ≤ 516 ∨ payload.Commands privilege := by
  have hlt := sizeField_lt payload
  have hmsg : chatMsgSize payload.sizeField = payload.sizeField - 12 :=
    chatMsgSize_of_le (by omega) hlt
  have hone : sizeSub (payload.sizeField - 12) 1 = payload.sizeField - 12 - 1 :=
    sizeSub_of_le (by omega) (by omega)
  have hlength := text_length h htext
  have hreceived := h.2.2
  have hput : put payload.bytes ((2 + sizeSub (chatMsgSize payload.sizeField) 1) % 2 ^ 64) 0 =
      some (payload.bytes.set (2 + (chatMsgSize payload.sizeField - 1)) 0) := by
    rw [hmsg, hone, Nat.mod_eq_of_lt (by omega), put_of_lt _ (by omega)]
  have hset : payload.bytes.set (2 + (chatMsgSize payload.sizeField - 1)) 0 =
      payload.bytes.take 2 ++ (payload.text ++ payload.bytes.drop (payload.sizeField - 10)) := by
    rw [hmsg]
    exact terminated_eq h htext
  obtain ⟨r, hcommand, hcommands⟩ := chatCommand_text privilege hsized
    (payload.bytes.drop (payload.sizeField - 10))
  have hslice := slice_text hsized (payload.bytes.drop (payload.sizeField - 10))
  have hrun := chatPayload_accepted privilege hsized h
  rw [hput, hset] at hrun
  simp only [Option.bind_eq_bind, Option.bind_some, hcommand] at hrun
  have hpositive : 0 < chatMsgSize payload.sizeField := by omega
  have hfits : 2 + chatMsgSize payload.sizeField ≤ payload.bytes.length := by omega
  cases r with
  | some command =>
    have hyes : payload.Commands privilege := hcommands.mp rfl
    refine ⟨fun _ => .inr hyes, fun _ => ⟨_, hrun, .inr ⟨hpositive, hfits, hset.symm, ?_⟩⟩⟩
    intro chatText hchat
    cases hchat
  | none =>
    have hno : ¬ payload.Commands privilege := fun hyes => by simpa using hcommands.mpr hyes
    rw [hmsg, ← hlength] at hrun
    simp only [hslice, Option.bind_some] at hrun
    by_cases hlong : gameEventChatSize payload.text.length ≤ eventDataSize
    · rw [eventServerDispatchChat, if_pos hlong] at hrun
      have hshort : payload.sizeField ≤ 516 := by
        rw [gameEventChatSize_le_iff, hlength, chatTextSizeMax] at hlong
        omega
      refine ⟨fun _ => .inl hshort, fun _ => ⟨_, hrun, .inr ⟨hpositive, hfits, hset.symm, ?_⟩⟩⟩
      rintro chatText ⟨⟩
      refine ⟨?_, hlong⟩
      rw [List.drop_left' (take_two_length hsized), hmsg, ← hlength, List.take_left]
    · rw [eventServerDispatchChat, if_neg hlong] at hrun
      constructor
      · rintro ⟨r, hr, -⟩
        rw [hrun] at hr
        cases hr
      · rintro (hshort | hyes)
        · rw [gameEventChatSize_le_iff, hlength, chatTextSizeMax] at hlong
          omega
        · exact absurd hyes hno

/-- A message that is accepted is not answered with an error. -/
theorem chatPayload_not_error (hsized : 2 ≤ payload.bytes.length) (h : payload.Accepted)
    {r : ChatRun} (hrun : chatPayload privilege payload.bytes = some r) : r.result ≠ .error := by
  rw [chatPayload_accepted privilege hsized h] at hrun
  obtain ⟨bytes, -, hrun⟩ := Option.bind_eq_some_iff.mp hrun
  obtain ⟨command, -, hrun⟩ := Option.bind_eq_some_iff.mp hrun
  cases command with
  | some command =>
    cases hrun
    exact ChatResult.noConfusion
  | none =>
    obtain ⟨text, -, hrun⟩ := Option.bind_eq_some_iff.mp hrun
    obtain ⟨chatText, -, hrun⟩ := Option.bind_eq_some_iff.mp hrun
    cases hrun
    exact ChatResult.noConfusion

/-- A message without a text is not. -/
theorem not_chatBounded_of_empty (hsized : 2 ≤ payload.bytes.length) (h : payload.Accepted)
    (hempty : payload.sizeField < 13) : ¬ ChatBounded privilege payload := by
  have hlength := payload.length_lt
  rintro ⟨r, hrun, hbounded⟩
  have hmessage : WithinMessage payload r := by
    refine hbounded.resolve_left ?_
    rintro ⟨herror, -⟩
    exact chatPayload_not_error hsized h hrun herror
  have hpositive := hmessage.positive
  have hreceived := hmessage.received
  rcases Nat.lt_or_ge payload.sizeField 12 with hsmall | hlarge
  · rw [chatMsgSize_of_lt hsmall] at hreceived
    have hten := h.1
    omega
  · rw [chatMsgSize_of_le hlarge (sizeField_lt payload)] at hpositive
    omega

end Accepted

/-- For every payload, the handler stays within its bounds exactly when there is a size, and a
message that is accepted has a text that fits the event or is a command. -/
theorem chat_bounded_iff (privilege : UInt32) (payload : Payload) :
    ChatBounded privilege payload ↔ ChatFits privilege payload := by
  rcases Nat.lt_or_ge payload.bytes.length 2 with hshort | hsized
  · constructor
    · rintro ⟨r, hrun, -⟩
      rw [chatPayload_short privilege hshort] at hrun
      cases hrun
    · exact fun hfits => absurd hfits.sized (Nat.not_le_of_lt hshort)
  · by_cases haccepted : payload.Accepted
    · rcases Nat.lt_or_ge payload.sizeField 13 with hempty | htext
      · constructor
        · exact fun hbounded => absurd hbounded (not_chatBounded_of_empty hsized haccepted hempty)
        · exact fun hfits => absurd (hfits.text haccepted) (Nat.not_le_of_lt hempty)
      · rw [chatBounded_accepted hsized haccepted htext]
        constructor
        · exact fun hshort => ⟨hsized, fun _ => htext, fun _ => hshort⟩
        · exact fun hfits => hfits.short haccepted
    · constructor
      · intro _
        exact ⟨hsized, fun h => absurd h haccepted, fun h => absurd h haccepted⟩
      · intro _
        exact ⟨_, chatPayload_refused privilege hsized haccepted, .inl ⟨rfl, rfl⟩⟩

/-! ### The handler in memory -/

section Memory
variable {Key : Type} {env : Env Key} {w : World Key} {packet : ℕ} {payload : Payload}
  {privilege : UInt32} {bytes : List UInt8}

/-- The size that the handler computes in memory. -/
theorem readU16_sizeField (hmem : Holds w.memory packet payload.bytes)
    (hsized : 2 ≤ payload.bytes.length) :
    (readU16 packet : Handling Key UInt16) w =
      some (Except.ok (UInt16.ofNat payload.sizeField), w) := by
  have hread : w.memory.read packet 2 = payload.bytes.take 2 := by
    have hslice : slice payload.bytes 0 2 = some (payload.bytes.take 2) :=
      slice_of_le (by omega)
    exact hmem.read hslice
  change some (Except.ok (UInt16.ofNat (leValue (w.memory.read packet 2))), w) = _
  rw [hread, Payload.sizeField]

theorem sized_of_chatPayload {r : ChatRun}
    (hrun : chatPayload privilege payload.bytes = some r) : 2 ≤ payload.bytes.length := by
  by_contra hshort
  rw [chatPayload_short privilege (Nat.lt_of_not_le hshort)] at hrun
  cases hrun

theorem toNat_sizeField (payload : Payload) :
    (UInt16.ofNat payload.sizeField).toNat = payload.sizeField := by
  rw [UInt16.toNat_ofNat', Nat.mod_eq_of_lt (sizeField_lt payload)]

/-- A message that is refused within its bounds is refused by the handler. -/
theorem zoneHandlerChat_refuses (hmem : Holds w.memory packet payload.bytes)
    (hrun : chatPayload privilege payload.bytes = some ⟨bytes, .error⟩) :
    zoneHandlerChat env packet payload.bytes.length w = some (.error .error, w) := by
  have hsized := sized_of_chatPayload hrun
  have hrefused : ¬ payload.Accepted :=
    fun haccepted => chatPayload_not_error hsized haccepted hrun rfl
  have hcheck := Bool.eq_false_of_not_eq_true
    ((checkClientPacketSize_chat payload).not.mpr hrefused)
  rw [zoneHandlerChat, bind_ok (readU16_sizeField hmem hsized), toNat_sizeField]
  apply bind_error
  change require (checkClientPacketSize _ ((2 + chatMsgSize payload.sizeField) % 2 ^ 64) _) _ w = _
  rw [hcheck]
  rfl

/-- A text that is no command within the bounds is none in memory. -/
theorem notCommand_run {bytes' : List UInt8} (hmem : Holds w.memory packet bytes')
    (hlength : bytes'.length ≤ 2 ^ 64)
    (hadmin : ∀ command (w : World Key), isAdminCommand command = false →
      env.adminCmdProcess command w = some (false, w))
    (hcommand : chatCommand privilege bytes' = some none) :
    (if (decide (privilege ≤ privilegesAdmin) && decide (w.memory (packet + 2) = 0x2f)) = true then
      (do adminCmdProcess env (← readString (packet + 3)) : Handling Key Bool) else pure false) w =
        some (.ok false, w) := by
  rw [chatCommand] at hcommand
  by_cases hprivilege : privilege ≤ privilegesAdmin
  · rw [if_pos hprivilege] at hcommand
    obtain ⟨first, hfirst, hcommand⟩ := Option.bind_eq_some_iff.mp hcommand
    have hletter : [w.memory (packet + 2)] = first := hmem.read hfirst
    by_cases hslash : w.memory (packet + 2) = 0x2f
    · rw [← hletter, hslash, if_pos rfl] at hcommand
      obtain ⟨command, hscan, hcommand⟩ := Option.bind_eq_some_iff.mp hcommand
      have hno : isAdminCommand command = false := by
        by_contra hyes
        rw [if_pos (Bool.eq_true_of_not_eq_false hyes)] at hcommand
        cases hcommand
      have hstring := hmem.string hlength hscan
      have hyes : (decide (privilege ≤ privilegesAdmin) &&
          decide (w.memory (packet + 2) = 0x2f)) = true := by
        rw [decide_eq_true hprivilege, decide_eq_true hslash, Bool.and_self]
      refine (congrFun (if_pos hyes) w).trans ?_
      change ((env.adminCmdProcess (stringFrom w.memory (2 ^ 64) (packet + 3)) w).map _).map _ = _
      rw [hstring, hadmin command w hno]
      rfl
    · have hno : ¬ (decide (privilege ≤ privilegesAdmin) &&
          decide (w.memory (packet + 2) = 0x2f)) = true := by
        simp [hslash]
      exact congrFun (if_neg hno) w
  · have hno : ¬ (decide (privilege ≤ privilegesAdmin) &&
        decide (w.memory (packet + 2) = 0x2f)) = true := by
      simp [hprivilege]
    exact congrFun (if_neg hno) w

/-- A message that is dispatched within its bounds is dispatched by the handler, with the same
text, where a text that is no admin command is none. -/
theorem zoneHandlerChat_dispatches {chatText : List UInt8} {c : Commander Key}
    (hmem : Holds w.memory packet payload.bytes) (hend : packet + payload.bytes.length ≤ 2 ^ 64)
    (hadmin : ∀ command (w : World Key), isAdminCommand command = false →
      env.adminCmdProcess command w = some (false, w))
    (hcommander : w.session.game.commanderSession.currentCommander.bind w.heap.commander = some c)
    (hrun : chatPayload w.session.game.accountSession.privilege payload.bytes =
      some ⟨bytes, .chat chatText⟩) :
    ∃ memory, Holds memory packet bytes ∧
      zoneHandlerChat env packet payload.bytes.length w = some (.ok .updateSession,
        { w with
          memory
          events := w.events ++ [(w.session.socket.sessionKey, .chat c chatText)] }) := by
  have hsized := sized_of_chatPayload hrun
  by_cases haccepted : payload.Accepted
  · have hcheck := (checkClientPacketSize_chat payload).mpr haccepted
    rw [chatPayload_accepted _ hsized haccepted] at hrun
    obtain ⟨bytes', hput, hrun⟩ := Option.bind_eq_some_iff.mp hrun
    obtain ⟨command, hcommand, hrun⟩ := Option.bind_eq_some_iff.mp hrun
    cases command with
    | some command => cases hrun
    | none =>
      obtain ⟨text, hslice, hrun⟩ := Option.bind_eq_some_iff.mp hrun
      obtain ⟨text', hdispatch, hrun⟩ := Option.bind_eq_some_iff.mp hrun
      cases hrun
      have hi : (2 + sizeSub (chatMsgSize payload.sizeField) 1) % 2 ^ 64 <
          payload.bytes.length := by
        by_contra hbehind
        rw [put, if_neg hbehind] at hput
        cases hput
      have hlast : (packet + 2 + sizeSub (chatMsgSize payload.sizeField) 1) % 2 ^ 64 =
          packet + (2 + sizeSub (chatMsgSize payload.sizeField) 1) % 2 ^ 64 := by
        omega
      have hmem' := hmem.put hput
      rw [← hlast] at hmem'
      have hlength : bytes.length ≤ 2 ^ 64 := by
        rw [put, if_pos hi] at hput
        cases hput
        rw [List.length_set]
        omega
      obtain rfl : text = chatText := by
        rw [eventServerDispatchChat] at hdispatch
        split at hdispatch
        · exact Option.some.inj hdispatch
        · cases hdispatch
      have hsize : (checkSize .czChat ((2 + chatMsgSize payload.sizeField) % 2 ^ 64)
          payload.bytes.length : Handling Key Unit) w = some (.ok (), w) := by
        change require _ _ w = _
        rw [hcheck]
        rfl
      have hunfold : sizeSub (sizeSub payload.sizeField (clientHeaderSize true)) 2 =
        chatMsgSize payload.sizeField := rfl
      rw [zoneHandlerChat, bind_ok (readU16_sizeField hmem hsized), toNat_sizeField]
      dsimp only
      rw [hunfold, bind_ok hsize]
      generalize (packet + 2 + sizeSub (chatMsgSize payload.sizeField) 1) % 2 ^ 64 = last at hmem' ⊢
      generalize chatMsgSize payload.sizeField = msgSize at hslice ⊢
      let w' : World Key := { w with memory := Function.update w.memory last 0 }
      have hread : w'.memory.read (packet + 2) msgSize = text := hmem'.read hslice
      have hnot := notCommand_run (w := w') hmem' hlength hadmin hcommand
      have hcommanderRun : (currentCommander : Handling Key (Commander Key)) w' =
          some (.ok c, w') := by
        change (commanderAt w.session.game.commanderSession.currentCommander :
          Handling Key (Commander Key)) w' = _
        change (found (w.session.game.commanderSession.currentCommander.bind w.heap.commander) :
          Handling Key (Commander Key)) w' = _
        rw [hcommander]
        rfl
      have hevent : (readBytes (packet + 2) msgSize : Handling Key (List UInt8)) w' =
          some (.ok text, w') := by
        rw [← hread]
        rfl
      refine ⟨_, hmem', ?_⟩
      refine (bind_ok hnot _).trans ?_
      refine (congrFun (if_neg Bool.false_ne_true) w').trans ?_
      refine (bind_ok hcommanderRun _).trans ?_
      refine (bind_ok hevent _).trans ?_
      rfl
  · rw [chatPayload_refused _ hsized haccepted] at hrun
    cases hrun

end Memory

/-- A text of 505 bytes with the terminator. -/
def longChat : Payload where
  bytes := [5, 2] ++ List.replicate 505 97
  length_lt := by
    rw [List.length_append, List.length_replicate]
    decide

/-- A size field of twelve, and nothing else. -/
def emptyChat : Payload := ⟨[12, 0], by decide⟩

/-- The event with the text of a player does not fit, or there is no text. -/
theorem chat_escapes : ¬ ChatBounded 3 longChat ∧ ¬ ChatBounded 3 emptyChat := by
  have hprivilege : ¬ (3 : UInt32) ≤ privilegesAdmin := by decide
  have hlength : longChat.bytes.length = 507 := by
    change ([5, 2] ++ List.replicate 505 (97 : UInt8)).length = 507
    rw [List.length_append, List.length_replicate, List.length_cons, List.length_singleton]
  have hsize : longChat.sizeField = 517 := rfl
  have haccepted : longChat.Accepted := ⟨by omega, by omega, by omega⟩
  constructor
  · rw [chatBounded_accepted (by omega) haccepted (by omega), hsize]
    rintro (hshort | hcommands)
    · omega
    · exact hprivilege hcommands.1
  · exact not_chatBounded_of_empty (by decide) ⟨by decide, by decide, by decide⟩ (by decide)

end R1Emu.Handler
