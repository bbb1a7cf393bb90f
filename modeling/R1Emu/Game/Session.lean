import R1Emu.Commander.Inventory
import Mathlib.Data.List.Infix

/-!
# Sessions

A session is a record with two pointers: to the array of the account's commanders, and to
the commander that is played. Commanders, arrays and the items of the inventories lie in a
heap that only grows; what is allocated is an index into it. Floats are kept as their bits.
-/
namespace R1Emu.Game
open R1Emu.Actor
open R1Emu.Commander (Inventory ItemPtr Store inventoryInit)

structure PositionXYZ where
  x : UInt32
  y : UInt32
  z : UInt32
  deriving DecidableEq

structure PositionXZ where
  x : UInt32
  z : UInt32
  deriving DecidableEq

/-- A character array of fixed size. -/
abbrev Chars (n : ℕ) := Vector UInt8 n

/-- The string at the front of a character array. -/
def cString (s : List UInt8) : List UInt8 := s.takeWhile (· != 0)

/-- `strncpy` into an array of `n` characters. -/
def strncpy (n : ℕ) (src : List UInt8) : Chars n := Vector.ofFn fun i => (cString src).getD i 0

/-- Whether `strncmp` finds the first `n` characters equal. -/
def strncmpEq (n : ℕ) (a b : List UInt8) : Bool := cString (a.take n) = cString (b.take n)

/-- `isprint` in the C locale. -/
def isprint (c : UInt8) : Bool := 0x20 ≤ c && c ≤ 0x7e

/-- The field `skillsManager` is left out. -/
structure Commander (Key : Type) where
  commanderName : Chars 65
  familyName : Chars 64
  gender : UInt8
  hairId : UInt8
  pose : UInt16
  pos : PositionXYZ
  barrackPos : PositionXYZ
  dir : PositionXZ
  classId : UInt16
  jobId : UInt16
  accountId : UInt64
  pcId : UInt32
  socialInfoId : UInt64
  commanderId : UInt64
  mapId : UInt16
  level : UInt32
  currentXP : UInt32
  maxXP : UInt32
  currentHP : UInt32
  maxHP : UInt32
  currentSP : UInt16
  maxSP : UInt16
  currentStamina : UInt32
  maxStamina : UInt32
  inventory : Inventory Key

/-- The start in the West Siauliai Woods. -/
def startPosition : PositionXYZ := ⟨0xc41bc000, 0x43820000, 0xc4828000⟩

def commanderInit {Key : Type} : Commander Key where
  commanderName := Vector.replicate 65 0
  familyName := Vector.replicate 64 0
  gender := 2
  hairId := 0x10
  pose := 0
  pos := startPosition
  barrackPos := ⟨0, 0, 0⟩
  dir := ⟨0, 0⟩
  classId := 10005
  jobId := 4001
  accountId := 0xffffffffffffffff
  pcId := 0xffffffff
  socialInfoId := 0xffffffffffffffff
  commanderId := 0xffffffffffffffff
  mapId := 0
  level := 1
  currentXP := 0
  maxXP := 0xc
  currentHP := 238
  maxHP := 238
  currentSP := 105
  maxSP := 105
  currentStamina := 25000
  maxStamina := 25000
  inventory := inventoryInit

abbrev CommanderPtr := ℕ
abbrev CommandersPtr := ℕ

structure SocketSession where
  accountId : UInt64
  routerId : UInt16
  mapId : UInt16
  sessionKey : Chars 11
  authenticated : Bool
  deriving DecidableEq

structure AccountSession where
  accountName : Chars 33
  sessionKey : Chars 11
  privilege : UInt32
  accountId : UInt64
  isBanned : Bool
  timeBanned : UInt64
  credits : UInt32
  timeLastLogin : UInt64
  familyName : Chars 64
  barrackType : UInt32
  commanders : Option CommandersPtr
  commandersCountMax : ℕ
  deriving DecidableEq

structure CommanderSession where
  currentCommander : Option CommanderPtr
  deriving DecidableEq

structure GameSession where
  accountSession : AccountSession
  commanderSession : CommanderSession
  deriving DecidableEq

@[ext] structure Session where
  socket : SocketSession
  game : GameSession
  deriving DecidableEq

/-- `SOCKET_SESSION_UNDEFINED_MAP`. -/
def undefinedMap : UInt16 := 0xffff

/-- `ACCOUNT_SESSION_PRIVILEGES_ADMIN`. -/
def privilegesAdmin : UInt32 := 0

/-- An account session of zeroes. -/
def AccountSession.zero : AccountSession where
  accountName := Vector.replicate 33 0
  sessionKey := Vector.replicate 11 0
  privilege := 0
  accountId := 0
  isBanned := false
  timeBanned := 0
  credits := 0
  timeLastLogin := 0
  familyName := Vector.replicate 64 0
  barrackType := 0
  commanders := none
  commandersCountMax := 0

def GameSession.zero : GameSession := ⟨.zero, ⟨none⟩⟩

def socketSessionInit (accountId : UInt64) (routerId mapId : UInt16) (sessionKey : Chars 11)
    (authenticated : Bool) : SocketSession :=
  { accountId, routerId, mapId, sessionKey, authenticated }

def accountSessionInit (accountName : Chars 33) (socketId : Chars 11) (privilege : UInt32) :
    AccountSession :=
  { AccountSession.zero with
    accountId := 0, accountName := accountName, sessionKey := socketId, privilege := privilege }

/-- The memory that sessions point to. A commander that is freed leaves a hole. -/
structure Heap (Key : Type) extends R1Emu.Commander.Memory where
  commanders : List (Option (Commander Key))
  arrays : List (List (Option CommanderPtr))
  nextItem : ItemPtr
  /-- The next uid of the actor factory. -/
  actorId : UInt64
  /-- How often memory has been asked for. -/
  attempts : ℕ

namespace Heap

variable {Key : Type}

def commander (h : Heap Key) (p : CommanderPtr) : Option (Commander Key) := (h.commanders[p]?).join

def setCommander (h : Heap Key) (p : CommanderPtr) (c : Option (Commander Key)) : Heap Key :=
  { h with commanders := h.commanders.set p c }

def newCommander (h : Heap Key) (c : Commander Key) : CommanderPtr × Heap Key :=
  (h.commanders.length, { h with commanders := h.commanders ++ [some c] })

def setArray (h : Heap Key) (a : CommandersPtr) (slots : List (Option CommanderPtr)) : Heap Key :=
  { h with arrays := h.arrays.set a slots }

def newArray (h : Heap Key) (slots : List (Option CommanderPtr)) : CommandersPtr × Heap Key :=
  (h.arrays.length, { h with arrays := h.arrays ++ [slots] })

def newItem (h : Heap Key) (item : Item) : ItemPtr × Heap Key :=
  (h.nextItem,
    { h with item := Function.update h.item h.nextItem item, nextItem := h.nextItem + 1 })

def setItemSlot (h : Heap Key) (p : ItemPtr) (slot : UInt8) : Heap Key :=
  { h with item := Function.update h.item p { h.item p with slot := slot } }

/-- An inventory of a commander with the memory that holds its items. -/
def store (h : Heap Key) (inventory : Inventory Key) : Store Key :=
  { inventory with toMemory := h.toMemory }

/-- What an operation on the inventory of the commander at `p` leaves behind. -/
def setStore (h : Heap Key) (p : CommanderPtr) (c : Commander Key) (s : Store Key) : Heap Key :=
  { h with
    toMemory := s.toMemory
    commanders := h.commanders.set p (some { c with inventory := s.toInventory }) }

/-- Everything that was allocated is there as it was: the arrays of commanders, the commanders
with their inventories, and the items. -/
structure Kept (h h' : Heap Key) : Prop where
  commanders : h.commanders <+: h'.commanders
  arrays : h.arrays <+: h'.arrays
  items : h.nextItem ≤ h'.nextItem
  item : ∀ p < h.nextItem, h'.item p = h.item p
  cell : h'.cell = h.cell
  destroyed : h'.destroyed = h.destroyed

namespace Kept

theorem refl (h : Heap Key) : h.Kept h :=
  ⟨List.prefix_rfl, List.prefix_rfl, le_rfl, fun _ _ => rfl, rfl, rfl⟩

theorem trans {h₁ h₂ h₃ : Heap Key} (h : h₁.Kept h₂) (h' : h₂.Kept h₃) : h₁.Kept h₃ where
  commanders := h.commanders.trans h'.commanders
  arrays := h.arrays.trans h'.arrays
  items := h.items.trans h'.items
  item p hp := (h'.item p (hp.trans_le h.items)).trans (h.item p hp)
  cell := h'.cell.trans h.cell
  destroyed := h'.destroyed.trans h.destroyed

/-- A commander that the session points to is the one it pointed to. -/
theorem commander_eq {h h' : Heap Key} (hk : h.Kept h') {p : CommanderPtr} {c : Commander Key}
    (hc : h.commander p = some c) : h'.commander p = some c := by
  obtain ⟨rest, hrest⟩ := hk.commanders
  have hp : h.commanders[p]? = some (some c) := Option.join_eq_some_iff.mp hc
  have hlt : p < h.commanders.length := (List.getElem?_eq_some_iff.mp hp).1
  rw [commander, ← hrest, List.getElem?_append_left hlt, hp]
  rfl

end Kept

theorem kept_newCommander (h : Heap Key) (c : Commander Key) : h.Kept (h.newCommander c).2 where
  commanders := ⟨[some c], rfl⟩
  arrays := List.prefix_rfl
  items := le_rfl
  item _ _ := rfl
  cell := rfl
  destroyed := rfl

theorem kept_newArray (h : Heap Key) (slots : List (Option CommanderPtr)) :
    h.Kept (h.newArray slots).2 where
  commanders := List.prefix_rfl
  arrays := ⟨[slots], rfl⟩
  items := le_rfl
  item _ _ := rfl
  cell := rfl
  destroyed := rfl

theorem kept_newItem (h : Heap Key) (item : Item) : h.Kept (h.newItem item).2 where
  commanders := List.prefix_rfl
  arrays := List.prefix_rfl
  items := Nat.le_succ _
  item _ hp := Function.update_of_ne hp.ne _ _
  cell := rfl
  destroyed := rfl

theorem prefix_set {α : Type} {l l' : List α} (h : l <+: l') {i : ℕ} (hi : l.length ≤ i) (x : α) :
    l <+: l'.set i x := by
  obtain ⟨rest, rfl⟩ := h
  rw [List.set_append_right _ _ hi]
  exact ⟨_, rfl⟩

/-- Writing to what was allocated since keeps what was there. -/
theorem Kept.setCommander {h h' : Heap Key} (hk : h.Kept h') {p : CommanderPtr}
    (hp : h.commanders.length ≤ p) (c : Option (Commander Key)) : h.Kept (h'.setCommander p c) where
  commanders := prefix_set hk.commanders hp c
  arrays := hk.arrays
  items := hk.items
  item := hk.item
  cell := hk.cell
  destroyed := hk.destroyed

theorem Kept.setArray {h h' : Heap Key} (hk : h.Kept h') {a : CommandersPtr}
    (ha : h.arrays.length ≤ a) (slots : List (Option CommanderPtr)) :
    h.Kept (h'.setArray a slots) where
  commanders := hk.commanders
  arrays := prefix_set hk.arrays ha slots
  items := hk.items
  item := hk.item
  cell := hk.cell
  destroyed := hk.destroyed

theorem Kept.setItemSlot {h h' : Heap Key} (hk : h.Kept h') {p : ItemPtr}
    (hp : h.nextItem ≤ p) (slot : UInt8) : h.Kept (h'.setItemSlot p slot) where
  commanders := hk.commanders
  arrays := hk.arrays
  items := hk.items
  item q hq := (Function.update_of_ne (hq.trans_le hp).ne _ _).trans (hk.item q hq)
  cell := hk.cell
  destroyed := hk.destroyed

end Heap

end R1Emu.Game
