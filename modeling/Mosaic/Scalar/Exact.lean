import Mosaic.Scalar.Machine

/-!
# Fractions as coordinates

Exact arithmetic. Every fraction is finite, whole parts and counts are unbounded, and a division by
zero gives zero. Only the length of a diagonal, which is seldom a fraction, is replaced by the sum
of the sides.
-/

namespace Mosaic.Exact

/-- The whole number nearest to a fraction, a half going away from zero. -/
def round (x : Rat) : Int := if 0 ≤ x then (x + 1 / 2).floor else -((-x + 1 / 2).floor)

/-- The whole part of a fraction. -/
def truncate (x : Rat) : Int := if 0 ≤ x then x.floor else x.ceil

instance : Coordinate Rat where
  decLt a b := inferInstanceAs (Decidable (a < b))
  decLe a b := inferInstanceAs (Decidable (a ≤ b))
  ofInt n := n
  ofFloat x := (Binary.toRat? x).getD 0
  abs x := if x < 0 then -x else x
  floor x := (x.floor : Rat)
  ceil x := (x.ceil : Rat)
  round x := (round x : Rat)
  toInt := truncate
  toNat x := (truncate x).toNat
  word n := n
  wrap i := i
  isFinite _ := true
  isNaN _ := false
  hypot x y := (if x < 0 then -x else x) + (if y < 0 then -y else y)
  turn := Machine.turnOfRat
  toRat? := some
  plain x := toString x
  coefficient x := toString x
  toJson x := .string (toString x)

end Mosaic.Exact
