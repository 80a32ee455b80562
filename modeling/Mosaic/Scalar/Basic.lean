import Mosaic.Decimal.Layout
import Mosaic.Json.Basic

/-!
# The numbers that geometry and pixels are made of

Coordinates and pixel samples are two kinds of numbers. Everything that places rasters on a grid and
reads them is written once, over any types that have the operations below. `Float` and `Float32`
have them with the rounding of the machine. `Rat` has those of a coordinate exactly, and there the
laws of geometry hold without an error term.

A coordinate may be not finite and a sample may be not a number. `minimum` and `maximum` pass over
an operand that is not a number, and `clamp` hands it through.

With the coordinates come the integers that tiles and pixels are counted in (`toInt`, `toNat`,
`word`, `wrap`). Those of the machine have 64 bits and go round; those of exact arithmetic have no
end.
-/

namespace Mosaic

/-- The side to which the way from a first over a second to a third point turns. -/
inductive Turn
  | left
  | right
  | straight
  deriving DecidableEq, Repr

/-- The operations on coordinates. -/
class Coordinate (K : Type) extends Add K, Sub K, Mul K, Div K, Neg K, LT K, LE K, BEq K,
    OfScientific K where
  decLt (a b : K) : Decidable (a < b)
  decLe (a b : K) : Decidable (a ≤ b)
  ofInt : Int → K
  /-- The value of a number in a document. -/
  ofFloat : Float → K
  abs : K → K
  /-- The largest whole number not above. -/
  floor : K → K
  /-- The smallest whole number not below. -/
  ceil : K → K
  /-- The nearest whole number, a half going away from zero. -/
  round : K → K
  /-- The whole part, as far as the integers in use reach. -/
  toInt : K → Int
  /-- The whole part of a number that is not negative, else zero. -/
  toNat : K → Nat
  /-- A count of pixels in the words in use: whole turns through all words are lost. -/
  word : Nat → Nat
  /-- The number of a tile in the integers in use, where the count goes on at the other end. -/
  wrap : Int → Int
  isFinite : K → Bool
  isNaN : K → Bool
  /-- The length of the diagonal of a rectangle. -/
  hypot : K → K → K
  /-- The turn of the way over three points, without a rounding error. -/
  turn : K × K → K × K → K × K → Turn
  /-- The exact value of a finite coordinate. -/
  toRat? : K → Option Rat
  /-- The text in a message. -/
  plain : K → String
  /-- The text in a list of coefficients. -/
  coefficient : K → String
  /-- The value in a document; null when it is not finite. -/
  toJson : K → Json

namespace Coordinate

variable {K : Type} [Coordinate K]

instance (a b : K) : Decidable (a < b) := decLt a b

instance (a b : K) : Decidable (a ≤ b) := decLe a b

/-- A count as a coordinate. -/
def ofNat (n : Nat) : K := ofInt n

/-- The smaller of two numbers, passing over one that is not a number. -/
def minimum (a b : K) : K :=
  if isNaN a then b else if isNaN b then a else if b < a then b else a

/-- The larger of two numbers, passing over one that is not a number. -/
def maximum (a b : K) : K :=
  if isNaN a then b else if isNaN b then a else if a < b then b else a

/-- The number moved into the range from `lo` to `hi`. -/
def clamp (lo hi x : K) : K := if x < lo then lo else if hi < x then hi else x

end Coordinate

/-- The operations on pixel samples, whose sums and means are taken among the coordinates `K`. -/
class Sample (V : Type) (K : outParam Type) extends Add V, Sub V, Mul V, Neg V, LT V, BEq V,
    OfScientific V where
  decLt (a b : V) : Decidable (a < b)
  isNaN : V → Bool
  isFinite : V → Bool
  nan : V
  /-- The sample nearest to a coordinate. -/
  narrow : K → V
  /-- The value of a sample as a coordinate. -/
  widen : V → K
  /-- A total order of all samples in which equal numbers stand next to each other. -/
  totalLe : V → V → Bool
  /-- The value of a number in a document. -/
  ofFloat : Float → V
  /-- The value of a number in a text. -/
  ofText : NumberText → V
  /-- The text in a message. -/
  plain : V → String
  /-- The value in a document; null when it is not finite. -/
  toJson : V → Json

namespace Sample

variable {V K : Type} [Sample V K]

instance (a b : V) : Decidable (a < b) := decLt a b

end Sample

end Mosaic
