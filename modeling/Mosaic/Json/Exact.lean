import Mosaic.Json.Basic

/-!
# Floats without loss

JSON has no numbers that are not finite, and its printers differ in how they write whole ones. In a
document with exact floats a whole number below 10^15 is an integer, a number that is not finite is
a word, and any other float is written so that it reads back as itself. `exactFloat?` reads what
`ofExactFloat` writes.
-/

namespace Mosaic.Json

/-- Whether a double is a whole number below 10^15. -/
def isSmallWhole (x : Float) : Bool := x.abs < 1e15 && Binary.floor x == x

/-- A double without loss, but for the sign of zero. -/
def ofExactFloat (x : Float) : Json :=
  if x.isNaN then string "NaN"
  else if !x.isFinite then string (if x < 0.0 then "-inf" else "inf")
  else if isSmallWhole x then int (Binary.toInt64 x)
  else double x

/-- The double that a number or a word stands for. -/
def exactFloat? : Json → Option Float
  | string "NaN" => some (0.0 / 0.0)
  | string "inf" => some (1.0 / 0.0)
  | string "-inf" => some (-1.0 / 0.0)
  | v => v.float?

mutual

/-- The document with a function applied to everything that is neither a list nor an object. -/
def mapScalars (f : Json → Json) : Json → Json
  | array items => array (mapScalarsItems f items)
  | object members => object (mapScalarsMembers f members)
  | v => f v

/-- `mapScalars` on every value of a list. -/
def mapScalarsItems (f : Json → Json) : List Json → List Json
  | [] => []
  | v :: rest => mapScalars f v :: mapScalarsItems f rest

/-- `mapScalars` on every member's value. -/
def mapScalarsMembers (f : Json → Json) : List (String × Json) → List (String × Json)
  | [] => []
  | (key, v) :: rest => (key, mapScalars f v) :: mapScalarsMembers f rest

end

/-- A float as an exact float, and any other value as it is. -/
def exactScalar : Json → Json
  | double x => ofExactFloat x
  | single x => ofExactFloat (Binary.widen x)
  | v => v

/-- The document with all its floats exact. -/
def withExactFloats (v : Json) : Json := mapScalars exactScalar v

end Mosaic.Json
