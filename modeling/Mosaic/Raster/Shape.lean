import Mosaic.Scalar.Basic

/-!
# Shapes of rasters

How many rows and columns a raster has, and rectangles of its pixels. Rows come before columns, and
pixels are counted row by row. The number of all pixels is taken among the counts in use, so that on
the machine a shape with more pixels than words can tell has a smaller number of them.
-/

namespace Mosaic

/-- The height and the width of a raster. -/
structure PixelShape where
  height : Nat
  width : Nat
  deriving DecidableEq, Repr

namespace PixelShape

/-- The number of pixels, among the counts that go with the coordinates `K`. -/
def count (K : Type) [Coordinate K] (s : PixelShape) : Nat :=
  Coordinate.word K (s.height * s.width)

def text (s : PixelShape) : String := s!"({s.height}, {s.width})"

end PixelShape

/-- A rectangle of pixels of a raster. -/
structure PixelWindow where
  row : Nat
  col : Nat
  height : Nat
  width : Nat
  deriving DecidableEq, Repr

namespace PixelWindow

def isEmpty (w : PixelWindow) : Bool := w.height == 0 || w.width == 0

/-- The number of pixels, as a word. -/
def count (w : PixelWindow) : Nat := (UInt64.ofNat w.height * UInt64.ofNat w.width).toNat

/-- Whether the window lies inside a raster. -/
def fits (w : PixelWindow) (shape : PixelShape) : Bool :=
  decide (w.row + w.height ≤ shape.height) && decide (w.col + w.width ≤ shape.width)

/-- The window with its fields named, as errors quote it. -/
def text (w : PixelWindow) : String :=
  s!"PixelWindow \x7b row: {w.row}, col: {w.col}, height: {w.height}, width: {w.width} \x7d"

end PixelWindow

end Mosaic
