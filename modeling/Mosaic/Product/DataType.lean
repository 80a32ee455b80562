import Mosaic.Scalar.Basic

/-!
# Sample types

The type that the samples of a measurement are stored as. Integer types round a resampled value,
halves going away from zero, and move it into their range. A valid value must not be taken for
nodata afterwards: one that lands on the nodata value goes one step back to where it came from, or
inward from the end of the range.
-/

namespace Mosaic

inductive DataType
  | int8
  | int16
  | int32
  | uint8
  | uint16
  | uint32
  | float32
  | float64
  deriving DecidableEq, Repr

namespace DataType

def all : List DataType := [int8, int16, int32, uint8, uint16, uint32, float32, float64]

def name : DataType → String
  | int8 => "int8"
  | int16 => "int16"
  | int32 => "int32"
  | uint8 => "uint8"
  | uint16 => "uint16"
  | uint32 => "uint32"
  | float32 => "float32"
  | float64 => "float64"

/-- The type with exactly this name. -/
def ofName? (s : String) : Option DataType := all.find? (·.name == s)

theorem ofName?_name (d : DataType) : ofName? d.name = some d := by cases d <;> decide

/-- The least and the greatest value of an integer type. -/
def range? : DataType → Option (Int × Int)
  | int8 => some (-128, 127)
  | int16 => some (-32768, 32767)
  | int32 => some (-2147483648, 2147483647)
  | uint8 => some (0, 255)
  | uint16 => some (0, 65535)
  | uint32 => some (0, 4294967295)
  | float32 | float64 => none

def isInteger (d : DataType) : Bool := d.range?.isSome

variable {V K : Type} [Coordinate K] [Sample V K]

/-- A value rounded and moved into the range of the type. -/
def cast (d : DataType) (value : V) : V :=
  match d.range? with
  | some (lo, hi) =>
    Sample.narrow (Coordinate.clamp (Coordinate.ofInt lo) (Coordinate.ofInt hi)
      (Coordinate.round (Sample.widen value)))
  | none => value

/-- The cast of a valid value, kept off the nodata value where the type is an integer type. -/
def castValid (d : DataType) (value nodata : V) : V :=
  let landed := d.cast value
  if landed == nodata && d.isInteger then
    let step : V := if value < nodata then -1.0 else 1.0
    let nudged := d.cast (landed + step)
    if nudged == nodata then d.cast (landed - step) else nudged
  else landed

/-- Whether the type holds a value without changing it. -/
def canRepresent (d : DataType) (value : V) : Bool :=
  match d.range? with
  | some (lo, hi) =>
    let x : K := Sample.widen value
    Sample.isFinite value && Coordinate.floor x == x &&
      decide (Coordinate.ofInt lo ≤ x) && decide (x ≤ Coordinate.ofInt hi)
  | none => true

end DataType

end Mosaic
