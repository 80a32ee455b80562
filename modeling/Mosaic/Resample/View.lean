import Mosaic.Raster.Shape
import Mosaic.Scalar.Basic

/-!
# Windows of source pixels

A window of samples in which those that are not valid are not numbers. Positions are continuous:
pixel `(row, col)` spans the square from `(col, row)` to `(col + 1, row + 1)`, so its centre lies at
a half. Every pixel outside the window is not a number as well, which lets kernels reach over its
edges.
-/

namespace Mosaic

/-- Samples of a rectangle, row by row. -/
structure WindowView (V : Type) where
  shape : PixelShape
  data : Array V

/-- The area of a target pixel in source pixels, as a box. -/
structure PixelFootprint (K : Type) where
  minU : K
  minV : K
  maxU : K
  maxV : K

namespace WindowView

variable {V K : Type} [Sample V K]

/-- The sample of a pixel; not a number outside the window. -/
def sample (view : WindowView V) (row col : Int) : V :=
  if row < 0 ∨ col < 0 ∨ (view.shape.height : Int) ≤ row ∨ (view.shape.width : Int) ≤ col then
    Sample.nan
  else view.data.getD (row.toNat * view.shape.width + col.toNat) Sample.nan

end WindowView

namespace PixelFootprint

variable {K : Type} [Coordinate K]

def isFinite (fp : PixelFootprint K) : Bool :=
  Coordinate.isFinite fp.minU && Coordinate.isFinite fp.minV && Coordinate.isFinite fp.maxU &&
    Coordinate.isFinite fp.maxV

/-- The pixels along one axis whose centres lie from `lower` on and before `upper`: the first one
and the one after the last. Centre `c + 0.5` lies there when `c` lies from `ceil (lower - 0.5)` on
and before `ceil (upper - 0.5)`. -/
def span (lower upper : K) (size : Nat) : Int × Int :=
  (Coordinate.toInt (Coordinate.maximum (Coordinate.ceil (lower - 0.5)) 0.0),
    min (Coordinate.toInt (Coordinate.ceil (upper - 0.5))) size)

/-- The whole numbers of a span. -/
def indices (span : Int × Int) : List Int :=
  (List.range (span.2 - span.1).toNat).map fun (n : Nat) => span.1 + n

variable {V : Type} [Sample V K]

/-- The valid samples whose pixel centres lie in the footprint, row by row. -/
def coveredValues (fp : PixelFootprint K) (view : WindowView V) : List V :=
  if fp.isFinite then
    (indices (span fp.minV fp.maxV view.shape.height)).flatMap fun row =>
      ((indices (span fp.minU fp.maxU view.shape.width)).map fun col => view.sample row col).filter
        fun v => !Sample.isNaN v
  else []

end PixelFootprint

end Mosaic
