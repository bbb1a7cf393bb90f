import R1Emu.Game.Session
import Mathlib.Algebra.Order.Group.Unbundled.Abs
import Mathlib.Algebra.Order.Ring.Unbundled.Rat

/-!
# Distances of positions

Positions are floats of single precision. The difference of two coordinates is rounded, and then
converted to an `int` because `abs` is a function of one.
-/
namespace R1Emu.Game

/-- Whether a float is an `int`, when what is behind the point is cut off. -/
def fitsInt (d : Float32.Model) : Bool :=
  Float32.Model.ofInt32 Int32.minValue ≤ d && d < Float32.Model.ofNat (2 ^ 31)

/-- The conversion to `int`. For what does not fit the language leaves it open; it is the least
`int` here, as the conversion instruction has it. -/
def floatToInt (d : Float32.Model) : Int32 := if fitsInt d then d.toInt32 else Int32.minValue

/-- `float dx = abs (b - a)`, of the bits of two coordinates. -/
def axisDistance (a b : UInt32) : Float32.Model :=
  Float32.Model.ofInt32
    (floatToInt (Float32.Model.ofBits b - Float32.Model.ofBits a)).abs

def mathIsWithin2DManhattanDistance (pos1 pos2 : PositionXZ) (distance : UInt32) : Bool :=
  let dx := axisDistance pos1.x pos2.x
  let dz := axisDistance pos1.z pos2.z
  dx < Float32.Model.ofBits distance && dz < Float32.Model.ofBits distance

/-- The number that the bits of a float stand for, if they stand for one. -/
def floatValue (bits : UInt32) : Option ℚ :=
  match (Float32.Model.ofBits bits).unpack with
  | .finite sign mantissa exponent _ => some (sign.apply mantissa * 2 ^ exponent)
  | .zero _ => some 0
  | .infinity _ => none
  | .notANumber => none

/-- The Manhattan distance of two positions, without rounding, is less than the distance. -/
def isWithinManhattanDistance (pos1 pos2 : PositionXZ) (distance : UInt32) : Bool :=
  match floatValue pos1.x, floatValue pos2.x, floatValue pos1.z, floatValue pos2.z,
    floatValue distance with
  | some x1, some x2, some z1, some z2, some range => |x2 - x1| + |z2 - z1| < range
  | _, _, _, _, _ => false

/-- A difference that does not fit an `int` is a negative distance, because the least `int` has
no absolute value. -/
theorem axisDistance_of_overflow {a b : UInt32}
    (h : fitsInt (Float32.Model.ofBits b - Float32.Model.ofBits a) = false) :
    axisDistance a b = Float32.Model.ofInt32 Int32.minValue := by
  rw [axisDistance, floatToInt, h, if_neg Bool.false_ne_true]
  rfl

/-- So a position that is too far away on both axes is within any distance. -/
theorem mathIsWithin2DManhattanDistance_of_overflow {pos1 pos2 : PositionXZ} {distance : UInt32}
    (hx : fitsInt (Float32.Model.ofBits pos2.x - Float32.Model.ofBits pos1.x) = false)
    (hz : fitsInt (Float32.Model.ofBits pos2.z - Float32.Model.ofBits pos1.z) = false)
    (hdistance : Float32.Model.ofInt32 Int32.minValue < Float32.Model.ofBits distance) :
    mathIsWithin2DManhattanDistance pos1 pos2 distance = true := by
  rw [mathIsWithin2DManhattanDistance, axisDistance_of_overflow hx, axisDistance_of_overflow hz]
  simp [hdistance]

end R1Emu.Game
