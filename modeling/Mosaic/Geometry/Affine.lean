import Mosaic.Geometry.Box

/-!
# Affine maps between pixels and coordinates

A raster lies in its reference system by an affine map of six coefficients: the corner of the first
pixel, the step along a row and the step along a column. Columns come before rows in a pixel
position, and the first pixel spans the unit square, so its centre is at one half. The map is kept
together with its inverse, which the cofactors give.
-/

namespace Mosaic

/-- `x = x0 + col * dx + row * rx` and `y = y0 + col * ry + row * dy`. -/
structure GeoTransform (K : Type) where
  x0 : K
  dx : K
  rx : K
  y0 : K
  ry : K
  dy : K
  deriving Repr

namespace GeoTransform

variable {K : Type} [Coordinate K]

def toList (t : GeoTransform K) : List K := [t.x0, t.dx, t.rx, t.y0, t.ry, t.dy]

/-- The image of a position. -/
def apply (t : GeoTransform K) (p : Point K) : Point K :=
  ⟨t.dx * p.x + t.rx * p.y + t.x0, t.ry * p.x + t.dy * p.y + t.y0⟩

/-- How much the map enlarges areas, with the sign of the orientation. -/
def determinant (t : GeoTransform K) : K := t.dx * t.dy - t.rx * t.ry

/-- The inverse map by cofactors, if the determinant is not zero. -/
def cofactorInverse (t : GeoTransform K) : GeoTransform K :=
  let det := t.determinant
  { x0 := (t.rx * t.y0 - t.dy * t.x0) / det
    dx := t.dy / det
    rx := -t.rx / det
    y0 := (t.x0 * t.ry - t.y0 * t.dx) / det
    ry := -t.ry / det
    dy := t.dx / det }

def isFinite (t : GeoTransform K) : Bool := t.toList.all Coordinate.isFinite

end GeoTransform

/-- An affine map together with its inverse. -/
structure Affine (K : Type) where
  forward : GeoTransform K
  inverse : GeoTransform K
  deriving Repr

namespace Affine

variable {K : Type} [Coordinate K]

/-- The map with the given coefficients. It has to have an inverse with finite coefficients. -/
def ofGeoTransform (t : GeoTransform K) : Except ProjectionError (Affine K) :=
  let det := t.determinant
  let inverse := t.cofactorInverse
  if t.isFinite && Coordinate.isFinite det && !(det == 0.0) && inverse.isFinite then
    .ok ⟨t, inverse⟩
  else .error (.notInvertible (t.toList.map Coordinate.coefficient))

/-- The coefficients that the map was made of. -/
def toGeoTransform (a : Affine K) : GeoTransform K := a.forward

/-- The coordinates of a position in pixels, which may lie between pixel corners. -/
def pixelToWorld (a : Affine K) (p : Point K) : Point K := a.forward.apply p

/-- The position in pixels of coordinates. -/
def worldToPixel (a : Affine K) (p : Point K) : Point K := a.inverse.apply p

/-- The corners of a raster of the given shape, as an open ring. -/
def outline (a : Affine K) (height width : Nat) : List (Point K) :=
  let h : K := Coordinate.ofNat height
  let w : K := Coordinate.ofNat width
  [a.pixelToWorld ⟨0.0, 0.0⟩, a.pixelToWorld ⟨w, 0.0⟩, a.pixelToWorld ⟨w, h⟩,
    a.pixelToWorld ⟨0.0, h⟩]

end Affine

end Mosaic
