import Mosaic.Product.Basic

/-!
# Fusing overlapping arrays

Arrays of one length are fused pixel by pixel, the one with the lowest priority first. A pixel is
nodata until a valid value comes, and no array without data takes a value away again. A mean is a
value of its own, which can be the nodata value by chance. Its sum is taken among the coordinates,
which are wider than samples, and its values are counted in a word of 32 bits: after `2 ^ 32` of
them the count begins anew.
-/

namespace Mosaic

/-- What is known of a pixel after some arrays. -/
inductive FusedPixel (V K : Type)
  /-- The value so far. -/
  | held (value : V)
  /-- The sum and the number of the valid values so far. -/
  | total (sum : K) (count : UInt32)

namespace FusedPixel

variable {V K : Type} [Coordinate K] [Sample V K]

/-- A pixel before the first array. -/
def start (policy : Fusion) (nodata : V) : FusedPixel V K :=
  match policy with
  | .mean => total 0.0 0
  | _ => held nodata

/-- Whether a valid value replaces the one held. -/
def replaces (policy : Fusion) (nodata held value : V) : Bool :=
  match policy with
  | .min => isNodata nodata held || decide (value < held)
  | .max => isNodata nodata held || decide (held < value)
  | _ => true

/-- A pixel after one more value. -/
def add (policy : Fusion) (nodata : V) (pixel : FusedPixel V K) (value : V) : FusedPixel V K :=
  if isNodata nodata value then pixel
  else
    match pixel with
    | held v => held (if replaces policy nodata v value then value else v)
    | total sum count => total (sum + Sample.widen value) (count + 1)

/-- The value of a pixel after the last array. -/
def finish (nodata : V) : FusedPixel V K → V
  | held v => v
  | total sum count =>
    if count = 0 then nodata else Sample.narrow (sum / Coordinate.ofNat count.toNat)

end FusedPixel

/-- A fusion in progress. -/
structure FusionAccumulator (V K : Type) where
  policy : Fusion
  nodata : V
  pixels : Array (FusedPixel V K)

namespace FusionAccumulator

variable {V K : Type} [Coordinate K] [Sample V K]

/-- A fusion of arrays of `count` pixels. -/
def start (policy : Fusion) (count : Nat) (nodata : V) : FusionAccumulator V K :=
  ⟨policy, nodata, Array.replicate count (FusedPixel.start policy nodata)⟩

omit [Coordinate K] [Sample V K] in
/-- The number of pixels. -/
def size (acc : FusionAccumulator V K) : Nat := acc.pixels.size

/-- Adds an array, which has priority over all before it. -/
def push (acc : FusionAccumulator V K) (data : Array V) :
    Except LoadError (FusionAccumulator V K) :=
  if data.size = acc.size then
    .ok { acc with pixels := acc.pixels.zipWith (FusedPixel.add acc.policy acc.nodata) data }
  else .error (.configuration s!"cannot fuse array of {data.size} pixels into {acc.size}")

/-- The fused array. -/
def finish (acc : FusionAccumulator V K) : Array V := acc.pixels.map (FusedPixel.finish acc.nodata)

end FusionAccumulator

/-- Fuses arrays of `count` pixels, the one with the lowest priority first. -/
def fuse {V K : Type} [Coordinate K] [Sample V K] (policy : Fusion) (count : Nat) (nodata : V)
    (arrays : List (Array V)) : Except LoadError (Array V) := do
  let acc ← arrays.foldlM FusionAccumulator.push
    (FusionAccumulator.start policy count nodata : FusionAccumulator V K)
  return acc.finish

end Mosaic
