import Mosaic.Scalar.Basic

/-!
# Doubles as coordinates, singles as samples

The machine numbers behind every load. All operations round to the nearest value. The turn of a way
over three points is free of rounding errors all the same: where the rounded determinant is not
larger than the error it may carry, its sign is taken from exact fractions. Integers are words of 64
bits, with a sign for the numbers of tiles and without one for counts of pixels.
-/

namespace Mosaic.Machine

-- Powers of whole numbers are the built-in ones, whatever is imported with this module.
attribute [local instance (high)] instPowNat

/-- The turn of the way over three points, exactly. -/
def turnOfRat (a b c : Rat × Rat) : Turn :=
  let left := (a.1 - c.1) * (b.2 - c.2)
  let right := (a.2 - c.2) * (b.1 - c.1)
  if right < left then .left else if left < right then .right else .straight

/-- The side that the sign of a determinant names. -/
private def turnOfSign (det : Float) : Turn :=
  if 0.0 < det then .left else if det < 0.0 then .right else .straight

/-- A point of doubles as exact fractions. -/
private def exactPoint? (p : Float × Float) : Option (Rat × Rat) := do
  let x ← Binary.toRat? p.1
  let y ← Binary.toRat? p.2
  return (x, y)

/-- The largest error of the rounded determinant, relative to the sum of its two products. -/
def turnTolerance : Float := 3.3306690621773722e-16

/-- The turn of the way over three points of doubles. A determinant that overflows counts as
straight. -/
def turn (a b c : Float × Float) : Turn :=
  let left := (a.1 - c.1) * (b.2 - c.2)
  let right := (a.2 - c.2) * (b.1 - c.1)
  let det := left - right
  let size := (left + right).abs
  let bound := turnTolerance * size
  if bound ≤ det || bound ≤ -det then turnOfSign det
  else if !size.isFinite then .straight
  else
    match exactPoint? a, exactPoint? b, exactPoint? c with
    | some a, some b, some c => turnOfRat a b c
    | _, _, _ => .straight

instance : Coordinate Float where
  decLt := Float.decLt
  decLe := Float.decLe
  ofInt := Float.ofInt
  ofFloat x := x
  abs := Float.abs
  floor := Binary.floor
  ceil := Binary.ceil
  round := Binary.round
  toInt := Binary.toInt64
  toNat := Binary.toNat64
  word n := (UInt64.ofNat n).toNat
  wrap i := (Int64.ofInt i).toInt
  isFinite := Float.isFinite
  isNaN := Float.isNaN
  hypot x y := (x * x + y * y).sqrt
  turn := turn
  toRat? := Binary.toRat?
  plain := plainText
  coefficient := coefficientText
  toJson := Json.ofFloat

/-- The place of a single in the total order: negative ones by falling size, then the others. -/
def orderKey (x : Float32) : Int :=
  let bits : Int := x.toBits.toNat
  if bits < 2 ^ (31 : Nat) then bits else 2 ^ (31 : Nat) - 1 - bits

instance : Sample Float32 Float where
  decLt := Float32.decLt
  isNaN := Float32.isNaN
  isFinite := Float32.isFinite
  nan := 0.0 / 0.0
  narrow := Binary.narrow
  widen := Binary.widen
  totalLe a b := orderKey a ≤ orderKey b
  ofFloat := Binary.narrow
  ofText := NumberText.toFloat32
  plain := plainText32
  toJson := Json.ofFloat32

end Mosaic.Machine
