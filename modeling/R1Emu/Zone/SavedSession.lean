import R1Emu.Game.Names
import R1Emu.Game.RedisText
import R1Emu.Zone.Disconnect

/-!
# Game sessions that are saved and loaded again

The texts of a game session are printed into a command, and the command is taken apart again
where it has spaces and percent signs. A session comes back as it was when its names have
neither, and are not empty; in the place of an empty name a word is sent that nobody takes for
an empty name afterwards.
-/
namespace R1Emu.Zone
open R1Emu.Game R1Emu.Lib R1Emu.Lib.Stage R1Emu.Lib.CFormat R1Emu.Lib.Command
open R1Emu.Commander (eqSlotCount)
open R1Emu.Handler (deafEnv emptyWorld)

variable {Key : Type}

def saveAndLoad (env : Env Key) (key : RedisGameSessionKey) (socketId : Chars 11)
    (gameSession : GameSession) : Handling Key (Bool × Option GameSession) := do
  let saved ← redisUpdateGameSession env key socketId gameSession
  let loaded ← redisGetGameSession env key
  return (saved, loaded)

/-- What is saved of a game session. -/
def savedFields (key : RedisGameSessionKey) (socketId : Chars 11) (gameSession : GameSession)
    (c : Commander Key) (eqSlots : Fin eqSlotCount → UInt32) : GameFields where
  account :=
    { accountName := cString gameSession.accountSession.accountName.toList
      sessionKey := cString socketId.toList
      privilege := gameSession.accountSession.privilege
      commandersCountMax := gameSession.accountSession.commandersCountMax }
  commander := commanderFields key c
  equipment := eqSlots

/-- Every integer of a commander that is stored is the same. -/
structure SameNumbers (c c' : Commander Key) : Prop where
  mapId : c'.mapId = c.mapId
  accountId : c'.accountId = c.accountId
  classId : c'.classId = c.classId
  jobId : c'.jobId = c.jobId
  gender : c'.gender = c.gender
  level : c'.level = c.level
  hairId : c'.hairId = c.hairId
  pose : c'.pose = c.pose
  currentXP : c'.currentXP = c.currentXP
  maxXP : c'.maxXP = c.maxXP
  pcId : c'.pcId = c.pcId
  socialInfoId : c'.socialInfoId = c.socialInfoId
  commanderId : c'.commanderId = c.commanderId
  currentHP : c'.currentHP = c.currentHP
  maxHP : c'.maxHP = c.maxHP
  currentSP : c'.currentSP = c.currentSP
  maxSP : c'.maxSP = c.maxSP
  currentStamina : c'.currentStamina = c.currentStamina
  maxStamina : c'.maxStamina = c.maxStamina

/-- The names are the same byte for byte, and so are the integers, with the ids of the items. -/
structure SameSession (gameSession gameSession' : GameSession) (c c' : Commander Key)
    (eqSlots : Fin eqSlotCount → UInt32) (h' : Heap Key) : Prop where
  accountName : cString gameSession'.accountSession.accountName.toList =
    cString gameSession.accountSession.accountName.toList
  privilege : gameSession'.accountSession.privilege = gameSession.accountSession.privilege
  commandersCountMax : gameSession'.accountSession.commandersCountMax =
    gameSession.accountSession.commandersCountMax
  commanderName : cString c'.commanderName.toList = cString c.commanderName.toList
  familyName : cString c'.familyName.toList = cString c.familyName.toList
  numbers : SameNumbers c c'
  equipment : equippedIds h' c'.inventory = some eqSlots

/-- The arguments of each command are its name, the key, and the fields with their values; and
when the session is loaded after that, it is the same. -/
def RoundTrips (env : Env Key) (w : World Key) (key : RedisGameSessionKey) (socketId : Chars 11)
    (gameSession : GameSession) (c : Commander Key) : Prop :=
  ∃ eqSlots, equippedIds w.heap c.inventory = some eqSlots ∧
    (∀ sent ∈ gameCommands key (savedFields key socketId gameSession c eqSlots),
      (command sent.1).bind arguments =
        some (setTexts key sent.2 (savedFields key socketId gameSession c eqSlots))) ∧
    ∃ gameSession' c' w',
      saveAndLoad env key socketId gameSession w = some (.ok (true, some gameSession'), w') ∧
      gameSession'.commanderSession.currentCommander.bind w'.heap.commander = some c' ∧
      SameSession gameSession gameSession' c c' eqSlots w'.heap

/-- The texts are sent as they are, the count is printed with all its bits, the commander is the
account's, and it wears items in all slots, which can be made again. -/
structure Savable (env : Env Key) (w : World Key) (key : RedisGameSessionKey)
    (socketId : Chars 11) (gameSession : GameSession) (c : Commander Key) : Prop where
  socketId : Unbroken (cString socketId.toList)
  accountName : Unbroken (cString gameSession.accountSession.accountName.toList)
  commanderName : Unbroken (cString c.commanderName.toList)
  familyName : Unbroken (cString c.familyName.toList)
  commandersCountMax : gameSession.accountSession.commandersCountMax < 2 ^ 32
  accountId : c.accountId = key.accountId
  equipment : ∃ eqSlots, equippedIds w.heap c.inventory = some eqSlots ∧
    Loadable env w.heap.attempts eqSlots

section
variable {env : Env Key} {strtof : Text → UInt32} {w : World Key} {key : RedisGameSessionKey}
  {socketId : Chars 11} {gameSession : GameSession} {p : CommanderPtr} {c : Commander Key}
  {eqSlots : Fin eqSlotCount → UInt32}

/-! ### Saving -/

/-- The commands are sent one after the other, and then their answers are looked at. -/
theorem redisUpdateGameSession_run (env : Env Key) (key : RedisGameSessionKey)
    (socketId : Chars 11)
    (hp : gameSession.commanderSession.currentCommander = some p)
    (hc : w.heap.commander p = some c) (heq : equippedIds w.heap c.inventory = some eqSlots) :
    redisUpdateGameSession env key socketId gameSession w =
      some (.ok (acknowledged env w.writes ((gameCommands key
        (savedFields key socketId gameSession c eqSlots)).map Prod.fst)),
        w.sent env ((gameCommands key
          (savedFields key socketId gameSession c eqSlots)).map Prod.fst)) := by
  have hat : ∀ w' : World Key, w'.heap = w.heap → commanderAt (some p) w' = some (.ok c, w') := by
    intro w' hw
    have hcommander : (some p).bind w'.heap.commander = some c := by
      rw [hw, Option.bind_some, hc]
    refine (bind_ok rfl _).trans ?_
    change found ((some p).bind w'.heap.commander) w' = _
    rw [hcommander]
    rfl
  have hequipped : ∀ w' : World Key, w'.heap = w.heap →
      (found (equippedIds w'.heap c.inventory) : Handling Key _) w' = some (.ok eqSlots, w') := by
    intro w' hw
    rw [hw, heq]
    rfl
  let fields := savedFields key socketId gameSession c eqSlots
  have hanswers := acknowledged_three env w (.hmsetAccount key fields.account)
    (.hmsetCommander key fields.commander) (.hmsetEquipment key fields.equipment)
  rw [redisUpdateGameSession]
  refine (bind_ok rfl _).trans ?_
  rw [hp]
  refine (bind_ok (hat _ (written_heap w env _)) _).trans ((bind_ok rfl _).trans
    ((bind_ok rfl _).trans ((bind_ok (hequipped _ ?_) _).trans ((bind_ok rfl _).trans ?_))))
  · exact (written_heap _ env _).trans (written_heap w env _)
  · exact congrArg (fun done => some (Except.ok done, _)) hanswers

/-- Texts that can be sent are all acknowledged, and then the session is loaded. -/
theorem saveAndLoad_run (env : Env Key) (strtof : Text → UInt32)
    (hp : gameSession.commanderSession.currentCommander = some p)
    (hc : w.heap.commander p = some c) (heq : equippedIds w.heap c.inventory = some eqSlots)
    (hsend : (savedFields key socketId gameSession c eqSlots).Sendable) : ∃ w₁ : World Key,
      w₁.heap = w.heap ∧
      (env.withRedisText strtof).hmgetGame w₁.writes key = .array (some
        ((savedFields key socketId gameSession c eqSlots).reread strtof)) ∧
      saveAndLoad (env.withRedisText strtof) key socketId gameSession w =
        (do return (true, ← redisGetGameSession (env.withRedisText strtof) key) :
          Handling Key _) w₁ := by
  have hdone : acknowledged (env.withRedisText strtof) w.writes ((gameCommands key
      (savedFields key socketId gameSession c eqSlots)).map Prod.fst) = true := by
    refine acknowledged_of_done (fun log write hwrite => ?_) _
    obtain ⟨sent, hsent, rfl⟩ := List.mem_map.mp hwrite
    exact acknowledged_gameCommands env.write log hsend hsent
  have hsaved := redisUpdateGameSession_run (env.withRedisText strtof) key socketId hp hc heq
  rw [hdone] at hsaved
  refine ⟨_, (sent_frame _ w _).2.1, ?_, bind_ok hsaved _⟩
  rw [sent_writes hdone]
  exact hmgetGame_gameCommands env strtof w.writes hsend

/-- What is loaded has the fields that were saved, as they are read. -/
theorem loaded_of_saveAndLoad
    (hp : gameSession.commanderSession.currentCommander = some p)
    (hc : w.heap.commander p = some c) (heq : equippedIds w.heap c.inventory = some eqSlots)
    (hsend : (savedFields key socketId gameSession c eqSlots).Sendable)
    {gameSession' : GameSession} {w' : World Key}
    (hrun : saveAndLoad (env.withRedisText strtof) key socketId gameSession w =
      some (.ok (true, some gameSession'), w')) :
    Loadable env w.heap.attempts eqSlots ∧
      Loaded ((savedFields key socketId gameSession c eqSlots).reread strtof) gameSession'
        w'.heap := by
  obtain ⟨w₁, hheap, hread, hload⟩ := saveAndLoad_run env strtof hp hc heq hsend
  rw [← hheap]
  cases hmemory : env.allocates w₁.heap.attempts with
  | false =>
    have hfault := redisGetGameSession_fault hread hmemory
    rw [hload] at hrun
    change andThen (redisGetGameSession (env.withRedisText strtof) key) _ w₁ = _ at hrun
    rw [andThen, hfault] at hrun
    cases hrun
  | true =>
    obtain ⟨_, w₂, hget, -, game, rfl, hloadable, hloaded⟩ :=
      redisGetGameSession_loads hread hmemory
    have hsame := (hload.trans (bind_ok hget _)).symm.trans hrun
    obtain ⟨hresult, rfl⟩ := Prod.mk.inj (Option.some.inj hsame)
    obtain ⟨-, rfl⟩ := Prod.mk.inj (Except.ok.inj hresult)
    exact ⟨hloadable.mp rfl, hloaded gameSession' rfl⟩

/-- A session whose items can be made is loaded. -/
theorem saveAndLoad_of_loadable
    (hp : gameSession.commanderSession.currentCommander = some p)
    (hc : w.heap.commander p = some c) (heq : equippedIds w.heap c.inventory = some eqSlots)
    (hsend : (savedFields key socketId gameSession c eqSlots).Sendable)
    (hloadable : Loadable env w.heap.attempts eqSlots) :
    ∃ gameSession' w', saveAndLoad (env.withRedisText strtof) key socketId gameSession w =
      some (.ok (true, some gameSession'), w') := by
  obtain ⟨w₁, hheap, hread, hload⟩ := saveAndLoad_run env strtof hp hc heq hsend
  rw [← hheap] at hloadable
  obtain ⟨_, w₂, hget, -, game, rfl, hsome, -⟩ := redisGetGameSession_loads hread hloadable.1
  obtain ⟨gameSession', rfl⟩ := Option.isSome_iff_exists.mp (hsome.mpr hloadable)
  exact ⟨gameSession', w₂, hload.trans (bind_ok hget _)⟩

/-! ### What can be sent -/

/-- The last value of a command is a number. -/
theorem gameCommands_last {fields : GameFields} {sent : Write × List (GameField × Conversion)}
    (hsent : sent ∈ gameCommands key fields) : ∃ ts last, setTexts key sent.2 fields = ts ++ [last] ∧
      Plain last := by
  have hrows : ∃ rows field, sent.2 = rows ++ [(field, .x)] ∧ Plain (fields.textOf field) := by
    simp only [gameCommands, List.mem_cons, List.not_mem_nil, or_false] at hsent
    rcases hsent with rfl | rfl | rfl
    · exact ⟨accountFormat.dropLast, .commandersCountMax, rfl, (numeral_unbroken _).1⟩
    · exact ⟨commanderFormat.dropLast, .maxStamina, rfl, (numeral_unbroken _).1⟩
    · exact ⟨equipmentFormat.dropLast, .eqSlot ⟨19, by decide⟩, rfl, (numeral_unbroken _).1⟩
  obtain ⟨rows, field, hrows, hplain⟩ := hrows
  refine ⟨text "HMSET" :: keyText key :: (rows.flatMap fun row => [text row.1.str,
    fields.textOf row.1]) ++ [text field.str], fields.textOf field, ?_, hplain⟩
  rw [setTexts, hrows]
  simp

/-- The texts of a command that arrive are unbroken. -/
theorem unbroken_of_command {fields : GameFields} {sent : Write × List (GameField × Conversion)}
    (hsent : sent ∈ gameCommands key fields)
    (h : (command sent.1).bind arguments = some (setTexts key sent.2 fields)) :
    ∀ row ∈ sent.2, Unbroken (fields.textOf row.1) := by
  obtain ⟨ts, last, hlast, hplain⟩ := gameCommands_last hsent
  rw [command_gameCommands hsent, Option.bind_some, hlast] at h
  have hall := unbroken_of_arguments_join hplain h
  rw [← hlast] at hall
  intro row hrow
  have hmem : fields.textOf row.1 ∈ setTexts key sent.2 fields :=
    List.mem_cons_of_mem _ (List.mem_cons_of_mem _ (List.mem_flatMap.mpr ⟨row, hrow, by simp⟩))
  exact hall _ hmem

theorem sendable_of_commands {fields : GameFields}
    (h : ∀ sent ∈ gameCommands key fields,
      (command sent.1).bind arguments = some (setTexts key sent.2 fields)) : fields.Sendable := by
  have hall := fun sent hsent => unbroken_of_command hsent (h sent hsent)
  have haccount := hall (.hmsetAccount key fields.account, accountFormat) (by simp [gameCommands])
  have hcommander :=
    hall (.hmsetCommander key fields.commander, commanderFormat) (by simp [gameCommands])
  exact ⟨haccount (.sessionKey, .s) (by simp [accountFormat]),
    haccount (.accountName, .s) (by simp [accountFormat]),
    hcommander (.commanderName, .s) (by simp [commanderFormat]),
    hcommander (.familyName, .s) (by simp [commanderFormat])⟩

/-- What is sent for an unbroken name is the name. -/
theorem checkRedisEmptyString_of_unbroken {s : List UInt8} (h : Unbroken s) :
    checkRedisEmptyString s = s :=
  if_neg h.2

theorem checkRedisEmptyString_unbroken {s : List UInt8} (h : Unbroken s) :
    Unbroken (checkRedisEmptyString s) := by
  rwa [checkRedisEmptyString_of_unbroken h]

theorem length_cString_le {n : ℕ} (name : Chars n) : (cString name.toList).length ≤ n := by
  have hprefix : cString name.toList <+: name.toList := List.takeWhile_prefix _
  have hle := hprefix.length_le
  rwa [Vector.length_toList] at hle

/-- A name is loaded as it was sent. -/
theorem cString_strncpy_cString {n : ℕ} (name : Chars n) :
    cString (strncpy n (cString name.toList)).toList = cString name.toList := by
  have hself := cString_of_notMem (zero_notMem_cString name.toList)
  have hlength : (cString (cString name.toList)).length ≤ n := by
    rw [hself]
    exact length_cString_le name
  rw [cString_strncpy hlength, hself]

/-- So is the name that is sent in the place of an empty one. -/
theorem cString_strncpy_checked {n : ℕ} (hn : 16 ≤ n) (name : Chars n) :
    cString (strncpy n (checkRedisEmptyString (cString name.toList))).toList =
      checkRedisEmptyString (cString name.toList) := by
  by_cases hempty : cString name.toList = []
  · have hword : checkRedisEmptyString (cString name.toList) =
        "__EMPTY_STRING__".toUTF8.toList := if_pos hempty
    rw [hword]
    have hself : cString "__EMPTY_STRING__".toUTF8.toList = "__EMPTY_STRING__".toUTF8.toList := by
      decide +kernel
    have hlength : (cString "__EMPTY_STRING__".toUTF8.toList).length = 16 := by decide +kernel
    rw [cString_strncpy (hlength.trans_le hn), hself]
  · have hword : checkRedisEmptyString (cString name.toList) = cString name.toList :=
      if_neg hempty
    rw [hword, cString_strncpy_cString]

/-- A name that is loaded as it is was sent as it is, and can be. -/
theorem unbroken_of_loaded {n : ℕ} (hn : 16 ≤ n) {name : Chars n}
    (hsend : Unbroken (checkRedisEmptyString (cString name.toList)))
    (hsame : cString (strncpy n (checkRedisEmptyString (cString name.toList))).toList =
      cString name.toList) : Unbroken (cString name.toList) := by
  rw [cString_strncpy_checked hn] at hsame
  rwa [hsame] at hsend

theorem equippedIds_of_bears {h : Heap Key} {inventory : Commander.Inventory Key}
    (hbears : ∀ slot, Bears h eqSlots inventory.equippedItems slot) :
    equippedIds h inventory = some eqSlots := by
  rw [equippedIds, if_pos]
  · refine congrArg some ?_
    funext slot
    obtain ⟨p, hp, -, hid⟩ := hbears slot
    rw [hp]
    exact hid
  · intro slot
    obtain ⟨p, hp, -⟩ := hbears slot
    rw [hp, Option.isSome_some]

/-- The numbers that are read are those that were saved. -/
theorem sameNumbers_saved (fields : CommanderFields) (hfields : fields = commanderFields key c)
    (haccount : c.accountId = key.accountId) (equippedItems : UInt8 → Option Commander.ItemPtr)
    (pos barrackPos : PositionXYZ) :
    SameNumbers c ({ fields with pos, barrackPos }.toCommander equippedItems) := by
  subst hfields
  constructor
  case accountId => exact haccount.symm
  all_goals simp only [CommanderFields.toCommander, commanderFields]

theorem savable_of_roundTrips (hp : gameSession.commanderSession.currentCommander = some p)
    (hc : w.heap.commander p = some c)
    (h : RoundTrips (env.withRedisText strtof) w key socketId gameSession c) :
    Savable env w key socketId gameSession c := by
  obtain ⟨eqSlots, heq, hcommands, gameSession', c', w', hrun, hc', hsame⟩ := h
  have hsend := sendable_of_commands hcommands
  obtain ⟨hloadable, hloaded⟩ := loaded_of_saveAndLoad hp hc heq hsend hrun
  obtain ⟨equippedItems, hcommander, -⟩ := hloaded.commander
  obtain rfl := Option.some.inj (hc'.symm.trans hcommander)
  have hcount := hsame.commandersCountMax
  rw [hloaded.accountSession] at hcount
  exact
    { socketId := hsend.sessionKey
      accountName := hsend.accountName
      commanderName := unbroken_of_loaded (by decide) hsend.commanderName hsame.commanderName
      familyName := unbroken_of_loaded (by decide) hsend.familyName hsame.familyName
      commandersCountMax := hcount ▸ Nat.mod_lt _ (by decide)
      accountId := hsame.numbers.accountId.symm
      equipment := ⟨eqSlots, heq, hloadable⟩ }

theorem roundTrips_of_savable (hp : gameSession.commanderSession.currentCommander = some p)
    (hc : w.heap.commander p = some c) (h : Savable env w key socketId gameSession c) :
    RoundTrips (env.withRedisText strtof) w key socketId gameSession c := by
  obtain ⟨eqSlots, heq, hloadable⟩ := h.equipment
  have hcommanderName := checkRedisEmptyString_of_unbroken h.commanderName
  have hfamilyName := checkRedisEmptyString_of_unbroken h.familyName
  have hsend : (savedFields key socketId gameSession c eqSlots).Sendable :=
    { sessionKey := h.socketId
      accountName := h.accountName
      commanderName := checkRedisEmptyString_unbroken h.commanderName
      familyName := checkRedisEmptyString_unbroken h.familyName }
  obtain ⟨gameSession', w', hrun⟩ :=
    @saveAndLoad_of_loadable _ env strtof w key socketId gameSession p c eqSlots hp hc heq hsend
      hloadable
  obtain ⟨-, hloaded⟩ := loaded_of_saveAndLoad hp hc heq hsend hrun
  obtain ⟨equippedItems, hcommander, hbears⟩ := hloaded.commander
  refine ⟨eqSlots, heq, fun sent hsent => ?_, gameSession', _, w', hrun, hcommander, ?_⟩
  · rw [command_gameCommands hsent, Option.bind_some,
      arguments_join_unbroken (setTexts_unbroken key fun row _ => textOf_unbroken hsend row.1)]
  constructor
  case accountName =>
    rw [hloaded.accountSession]
    exact cString_strncpy_cString _
  case privilege => rw [hloaded.accountSession]; rfl
  case commandersCountMax =>
    rw [hloaded.accountSession]
    exact Nat.mod_eq_of_lt h.commandersCountMax
  case commanderName => exact (cString_strncpy_checked (by decide) _).trans hcommanderName
  case familyName => exact (cString_strncpy_checked (by decide) _).trans hfamilyName
  case numbers => exact sameNumbers_saved _ rfl h.accountId equippedItems _ _
  case equipment => exact equippedIds_of_bears hbears

/-- A game session comes back from Redis as it was saved, and no text of it is taken for anything
else, exactly when its texts have no spaces and no percent signs and are not empty, and its items
can be made again. -/
theorem game_session_round_trip_iff (env : Env Key) (strtof : Text → UInt32) (w : World Key)
    (key : RedisGameSessionKey) (socketId : Chars 11) (gameSession : GameSession)
    {p : CommanderPtr} {c : Commander Key}
    (hp : gameSession.commanderSession.currentCommander = some p)
    (hc : w.heap.commander p = some c) :
    RoundTrips (env.withRedisText strtof) w key socketId gameSession c ↔
      Savable env w key socketId gameSession c :=
  ⟨savable_of_roundTrips hp hc, roundTrips_of_savable hp hc⟩

end

/-! ### Names that come back, and names that do not -/

/-- All items are armors. -/
def armorEnv : Env UInt64 := { deafEnv with staticData := ⟨fun _ => some "Equip", fun _ => none⟩ }

def namedCommander (commanderName familyName : String) : Commander UInt64 :=
  { (commanderInit : Commander UInt64) with
    commanderName := strncpy 65 (text commanderName)
    familyName := strncpy 64 (text familyName)
    accountId := 1
    inventory := { Commander.inventoryInit with equippedItems := fun slot => some slot.toNat } }

def namedWorld (commanderName familyName : String) : World UInt64 :=
  { emptyWorld with
    heap := { emptyWorld.heap with commanders := [some (namedCommander commanderName familyName)] } }

def namedSession : GameSession :=
  { accountSession := { AccountSession.zero with accountName := strncpy 33 (text "admin") }
    commanderSession := ⟨some 0⟩ }

def firstKey : RedisGameSessionKey := ⟨1, 0, 1⟩
def firstSocketId : Chars 11 := strncpy 11 (text "0000000001")

theorem namedWorld_loadable (commanderName familyName : String) : ∃ eqSlots,
    equippedIds (namedWorld commanderName familyName).heap
      (namedCommander commanderName familyName).inventory = some eqSlots ∧
      Loadable armorEnv (namedWorld commanderName familyName).heap.attempts eqSlots :=
  ⟨fun _ => 0, if_pos fun _ => rfl, rfl, fun _ => ⟨rfl, rfl⟩⟩

theorem game_session_comes_back : RoundTrips (armorEnv.withRedisText fun _ => 0)
    (namedWorld "Ann" "Lee") firstKey firstSocketId namedSession (namedCommander "Ann" "Lee") :=
  (game_session_round_trip_iff armorEnv (fun _ => 0) (namedWorld "Ann" "Lee") firstKey firstSocketId
    namedSession (p := 0) rfl rfl).mpr
    ⟨by decide +kernel, by decide +kernel, by decide +kernel, by decide +kernel, by decide, rfl,
      namedWorld_loadable "Ann" "Lee"⟩

/-- The names pass the checks on a new commander and on the name of a barrack, or the latter is
empty. -/
def Accepted (c : Commander Key) : Prop :=
  cString c.commanderName.toList ≠ [] ∧ (∀ ch ∈ cString c.commanderName.toList, isprint ch) ∧
    ∀ ch ∈ cString c.familyName.toList, isprint ch

instance (c : Commander Key) : Decidable (Accepted c) := inferInstanceAs (Decidable (_ ∧ _ ∧ _))

/-- A commander whose name has a space, and one of a family without a name. -/
theorem names_lost :
    (Accepted (namedCommander "A n" "Lee") ∧ ¬ RoundTrips (armorEnv.withRedisText fun _ => 0)
      (namedWorld "A n" "Lee") firstKey firstSocketId namedSession (namedCommander "A n" "Lee")) ∧
    (Accepted (namedCommander "Ann" "") ∧ ¬ RoundTrips (armorEnv.withRedisText fun _ => 0)
      (namedWorld "Ann" "") firstKey firstSocketId namedSession (namedCommander "Ann" "")) := by
  refine ⟨⟨by decide +kernel, fun h => ?_⟩, ⟨by decide +kernel, fun h => ?_⟩⟩
  · have hname := (savable_of_roundTrips (p := 0) rfl rfl h).commanderName
    exact absurd hname (by decide +kernel)
  · have hname := (savable_of_roundTrips (p := 0) rfl rfl h).familyName
    exact absurd hname (by decide +kernel)

end R1Emu.Zone
