import R1Emu.Lib.Transition
import R1Emu.Zone.EventHandler
import Mathlib.Algebra.Order.Ring.Unbundled.Rat

/-!
# Movements on a map

The clients of a map send requests. A worker handles a request: it dispatches an event, and
saves the session to Redis afterwards if the handler asks for it. The event server processes the
events one at a time, and looks for the clients around in Redis. The steps of different clients
interleave in any way.

A position has three copies: in the session of the worker, in Redis, and in the event. Positions
are exact numbers.
-/
namespace R1Emu.Zone
open R1Emu.Lib R1Emu.Lib.Stage R1Emu.Lib.Transition

/-- `PositionXZ`, with exact coordinates. -/
structure Position where
  x : ℚ
  z : ℚ
  deriving DecidableEq

/-- The conversion of a number to `int`. -/
def toInt (d : ℚ) : ℤ := d.num.tdiv d.den

/-- `abs`, which is a function of an `int`. -/
def intAbs (d : ℚ) : ℕ := (toInt d).natAbs

def mathIsWithin2DManhattanDistance (pos1 pos2 : Position) (distance : ℚ) : Bool :=
  (intAbs (pos2.x - pos1.x) : ℚ) < distance && (intAbs (pos2.z - pos1.z) : ℚ) < distance

theorem intAbs_sub_comm (a b : ℚ) : intAbs (a - b) = intAbs (b - a) := by
  rw [← neg_sub b a, intAbs, toInt, Rat.neg_num, Rat.neg_den, Int.neg_tdiv, Int.natAbs_neg]
  rfl

theorem mathIsWithin2DManhattanDistance_comm (pos1 pos2 : Position) (distance : ℚ) :
    mathIsWithin2DManhattanDistance pos1 pos2 distance =
      mathIsWithin2DManhattanDistance pos2 pos1 distance := by
  rw [mathIsWithin2DManhattanDistance, mathIsWithin2DManhattanDistance,
    intAbs_sub_comm pos2.x pos1.x, intAbs_sub_comm pos2.z pos1.z]

def commanderViewRange : ℚ := 250

inductive Request
  | gameReady
  | keyboardMove (position : Position)
  | moveStop (position : Position)
  | jump
  deriving DecidableEq

/-- The part of an event that the event server uses: `updatePosEvent.newPosition`. -/
structure MoveEvent where
  type : EventType
  newPosition : Position

/-- No handler sets `newPosition`, so that the initialiser sets it to zero. -/
def unsetPosition : Position := ⟨0, 0⟩

/-- The event that a handler dispatches. -/
def Request.event : Request → MoveEvent
  | .gameReady => ⟨.enterPc, unsetPosition⟩
  | .keyboardMove _ => ⟨.commanderMove, unsetPosition⟩
  | .moveStop _ => ⟨.moveStop, unsetPosition⟩
  | .jump => ⟨.jump, unsetPosition⟩

/-- The session to save, if the handler returns `PACKET_HANDLER_UPDATE_SESSION`. -/
def Request.updateSession (session : Position) : Request → Option Position
  | .gameReady => some session
  | .keyboardMove position => some position
  | .moveStop _ => none
  | .jump => none

/-- The position that the client reports with a request. -/
def Request.reported : Request → Option Position
  | .gameReady => none
  | .keyboardMove position => some position
  | .moveStop position => some position
  | .jump => none

structure ZoneMap (Key : Type) where
  /-- The clients with a game session in Redis under the map. -/
  connected : List Key
  redis : Key → Position
  /-- The session that a worker has yet to save. -/
  unsaved : Key → Option Position
  pending : Key → List Request
  events : Key → List MoveEvent
  entered : Key → Bool
  /-- The position that the client has reported last, or has connected with. -/
  reported : Key → Position
  eventServer : EventServer Key
  /-- A step has failed. -/
  failed : Bool

def ZoneMap.start (Key : Type) : ZoneMap Key where
  connected := []
  redis _ := unsetPosition
  unsaved _ := none
  pending _ := []
  events _ := []
  entered _ := false
  reported _ := unsetPosition
  eventServer := ⟨graphNew, []⟩
  failed := false

inductive MapAction (Key : Type)
  | connect (key : Key) (position : Position)
  | send (key : Key) (request : Request)
  | handle (key : Key) (succeeds : Bool)
  | save (key : Key) (succeeds : Bool)
  /-- The event server takes the next event of a client. The account keys that SCAN gives come in
  any order, and repeatedly; or a command fails. -/
  | process (key : Key) (scan : Option (List Key)) (answers : Answers Key)

variable {Key : Type} [DecidableEq Key]

/-- `redisGetClientsWithinDistance`, but for the key that it ignores. -/
def clientsWithinDistance (scan : List Key) (redis : Key → Position) (center : Position)
    (range : ℚ) : List Key :=
  scan.filter fun key => mathIsWithin2DManhattanDistance (redis key) center range

/-- The query of an event, which the other answers do not decide. -/
def queryAround (s : ZoneMap Key) (event : MoveEvent) (scan : Option (List Key))
    (a : Answers Key) : Answers Key :=
  { a with
    clientsWithinRange := scan.map fun keys =>
      clientsWithinDistance keys s.redis event.newPosition commanderViewRange }

/-- A handler fails before it has done anything. -/
def mapHandle (s : ZoneMap Key) (key : Key) (succeeds : Bool) : Option (ZoneMap Key) :=
  match s.pending key, s.unsaved key with
  | request :: rest, none =>
    if key ∈ s.connected then
      let s := { s with pending := Function.update s.pending key rest }
      if succeeds then
        some { s with
          unsaved := Function.update s.unsaved key (request.updateSession (s.redis key))
          events := Function.update s.events key (s.events key ++ [request.event])
          entered := Function.update s.entered key (s.entered key || request = .gameReady) }
      else some { s with failed := true }
    else none
  | _, _ => none

def mapSave (s : ZoneMap Key) (key : Key) (succeeds : Bool) : Option (ZoneMap Key) :=
  match s.unsaved key with
  | none => none
  | some position =>
    let s := { s with unsaved := Function.update s.unsaved key none }
    if succeeds then some { s with redis := Function.update s.redis key position }
    else some { s with failed := true }

/-- Every key that is there all the time is in the answers to SCAN, and no other. -/
def scanComplete (s : ZoneMap Key) : Option (List Key) → Bool
  | none => true
  | some keys => s.connected.all (· ∈ keys) && keys.all (· ∈ s.connected)

def mapProcess (s : ZoneMap Key) (key : Key) (scan : Option (List Key)) (a : Answers Key) :
    Option (ZoneMap Key) :=
  match s.events key with
  | [] => none
  | event :: rest =>
    if scanComplete s scan then
      ((zoneEventServerProcess event.type (queryAround s event scan a) key).run
        s.eventServer).map fun r =>
          { s with
            events := Function.update s.events key rest
            eventServer := r.2
            failed := s.failed || !r.1 }
    else none

def mapStep (s : ZoneMap Key) : MapAction Key → Option (ZoneMap Key)
  | .connect key position =>
    if key ∈ s.connected then none
    else some { s with
      connected := key :: s.connected
      redis := Function.update s.redis key position
      reported := Function.update s.reported key position }
  | .send key request =>
    if key ∈ s.connected then
      some { s with
        pending := Function.update s.pending key (s.pending key ++ [request])
        reported :=
          Function.update s.reported key (request.reported.getD (s.reported key)) }
    else none
  | .handle key succeeds => mapHandle s key succeeds
  | .save key succeeds => mapSave s key succeeds
  | .process key scan a => mapProcess s key scan a

def zoneMap : System (ZoneMap Key) (MapAction Key) := ⟨(· = .start Key), mapStep⟩

/-- No pending request, unsaved session or queued event. -/
def Quiescent (s : ZoneMap Key) : Prop :=
  ∀ key, s.pending key = [] ∧ s.unsaved key = none ∧ s.events key = []

end R1Emu.Zone
