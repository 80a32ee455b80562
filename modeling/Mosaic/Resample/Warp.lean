import Mosaic.Dataset.Basic
import Mosaic.Geometry.Cover
import Mosaic.Resample.Kernel

/-!
# Warping a raster onto a tile

The pixels of a tile as one dataset shows them. The centre of every pixel is carried over to the
reference system of the dataset and on to a position in its raster; a pixel whose centre lies outside
the footprint has no position. Only the window of the raster that the tile and the reach of the
kernel need is read. Values of integer measurements are rounded and moved into range, and never onto
the nodata value.

No window is read when the tile has no place in the reference system of the dataset, when no centre
has a position, or when the window would be empty.
-/

namespace Mosaic

/-- The pixels of a tile as one dataset shows them. -/
structure WarpedTile (V : Type) where
  shape : PixelShape
  /-- The value of pixels without data. -/
  nodata : V
  data : Array V
  /-- The window that was read, if any. -/
  window : Option PixelWindow

namespace WarpedTile

/-- A tile without data. -/
def blank {V K : Type} [Coordinate K] [Sample V K] (shape : PixelShape) (nodata : V) :
    WarpedTile V :=
  ⟨shape, nodata, Array.replicate (shape.count K) nodata, none⟩

/-- The number of pixels with data. -/
def validCount {V K : Type} [Sample V K] (t : WarpedTile V) : Nat :=
  t.data.countP fun v => !isNodata t.nodata v

end WarpedTile

namespace Grid

variable {K : Type} [Coordinate K]

/-- The centres of the pixels of a tile, row by row. -/
def centers (g : Grid K) (t : TileIndex) : Array (Point K) :=
  let shape := g.pixelShape
  Array.ofFn fun i : Fin (shape.count K) => g.pixelCenter t (i / shape.width) (i % shape.width)

/-- The corners of the pixels of a tile, row by row. -/
def corners (g : Grid K) (t : TileIndex) : Array (Point K) :=
  let columns := g.pixelShape.width + 1
  let gt := g.geotransform t
  Array.ofFn fun i : Fin (Coordinate.word K ((g.pixelShape.height + 1) * columns)) =>
    ⟨gt.x0 + Coordinate.ofNat (i % columns) * gt.dx, gt.y0 + Coordinate.ofNat (i / columns) * gt.dy⟩

end Grid

namespace Warp

variable {V K : Type} [Coordinate K]

open Coordinate (floor ceil clamp toNat minimum maximum)

/-- The position in the raster of a point in the reference system of the dataset. -/
def position? (d : Dataset K) (inside : Bool) (p : Point K) : Option (Point K) :=
  if p.isFinite && (inside || d.footprint.contains p) then some (d.transform.worldToPixel p)
  else none

/-- Whether the outline of a tile lies in the footprint as a whole, so that no centre has to be
tested. -/
def liesInside [Containment K] (d : Dataset K) (ring : List (Point K)) : Bool :=
  match Polygon.ofFinite? ring with
  | some g => Containment.covers d.footprint g
  | none => false

/-- Whether a target pixel has no column in the raster. -/
def hasNoColumn : Option (Point K) → Bool
  | some p => Coordinate.isNaN p.x
  | none => true

/-- A position moved onto the raster, as a whole number of pixels. -/
def clip (x : K) (size : Nat) : Nat := toNat (clamp 0.0 (Coordinate.ofNat size) x)

/-- The first pixel along one axis that is needed and the one after the last. -/
def clipSpan (lower upper : K) (radius size : Nat) : Nat × Nat :=
  (clip (floor lower - Coordinate.ofNat radius) size, clip (ceil upper + Coordinate.ofNat radius) size)

/-- The window of a raster that a box in pixels needs, with `radius` pixels round it. -/
def window? (bounds : Box K) (radius : Nat) (shape : PixelShape) : Option PixelWindow :=
  let cols := clipSpan bounds.minX bounds.maxX radius shape.width
  let rows := clipSpan bounds.minY bounds.maxY radius shape.height
  if cols.2 ≤ cols.1 ∨ rows.2 ≤ rows.1 then none
  else some ⟨rows.1, cols.1, rows.2 - rows.1, cols.2 - cols.1⟩

/-- The corners of target pixels as positions in the raster. -/
structure CornerGrid (K : Type) where
  columns : Nat
  points : Array (Point K)

namespace CornerGrid

/-- The position of a corner. -/
def corner (c : CornerGrid K) (row col : Nat) : Point K :=
  c.points.getD (row * c.columns + col) ⟨0.0, 0.0⟩

/-- The least of four numbers, passing over those that are not numbers. -/
def least (a b c d : K) : K := minimum (minimum (minimum a b) c) d

/-- The greatest of four numbers, passing over those that are not numbers. -/
def greatest (a b c d : K) : K := maximum (maximum (maximum a b) c) d

/-- The area of a target pixel, in pixels from `origin` on. -/
def footprint (c : CornerGrid K) (origin : Point K) (row col : Nat) : PixelFootprint K :=
  let p := c.corner row col
  let q := c.corner row (col + 1)
  let r := c.corner (row + 1) col
  let s := c.corner (row + 1) (col + 1)
  { minU := least (p.x - origin.x) (q.x - origin.x) (r.x - origin.x) (s.x - origin.x)
    minV := least (p.y - origin.y) (q.y - origin.y) (r.y - origin.y) (s.y - origin.y)
    maxU := greatest (p.x - origin.x) (q.x - origin.x) (r.x - origin.x) (s.x - origin.x)
    maxV := greatest (p.y - origin.y) (q.y - origin.y) (r.y - origin.y) (s.y - origin.y) }

end CornerGrid

variable [Sample V K]

/-- The samples of a window with all that hold no data as not a number. -/
def maskNodata (m : Measurement V) (read : WindowData V) : Array V :=
  read.values.map fun v =>
    if isNodata m.nodata v || read.nodata.any (v == ·) then Sample.nan else v

/-- The value of a target pixel at a position in the raster. -/
def pixelValue (m : Measurement V) (view : WindowView V) (origin : Point K)
    (area : Option (PixelFootprint K)) (position : Option (Point K)) : V :=
  match position with
  | none => m.nodata
  | some p =>
    if Coordinate.isNaN p.x || Coordinate.isNaN p.y then m.nodata
    else
      let value := m.resampling.sampleAt view (p.x - origin.x) (p.y - origin.y) area
      if Sample.isNaN value then m.nodata else m.dtype.castValid value m.nodata

/-- The values of all target pixels from a window that has been read. -/
def pixelValues (m : Measurement V) (columns : Nat) (window : PixelWindow) (read : WindowData V)
    (corners : Option (CornerGrid K)) (positions : Array (Option (Point K))) : Array V :=
  let view : WindowView V := ⟨⟨window.height, window.width⟩, maskNodata m read⟩
  let origin : Point K := ⟨Coordinate.ofNat window.col, Coordinate.ofNat window.row⟩
  positions.mapIdx fun i position =>
    pixelValue m view origin (corners.map fun c => c.footprint origin (i / columns) (i % columns))
      position

variable [Reprojection K]

/-- The positions in the raster of the corners of all target pixels. -/
def cornerGrid (grid : Grid K) (tile : TileIndex) (d : Dataset K) :
    Except Abort (CornerGrid K) := do
  let corners ← (Transformer.mk grid.crs d.crs).applyArray (grid.corners tile)
  return ⟨grid.pixelShape.width + 1, corners.map d.transform.worldToPixel⟩

end Warp

/-- What a source gives for a dataset, with its errors told as those of the dataset. -/
def Dataset.readResult {K α : Type} (d : Dataset K) (result : Except LoadError α) :
    Except (Stop LoadError) α :=
  Stop.liftError (result.mapError (LoadError.ofRead d.id.text))

open Warp in
/-- The pixels of a tile as a dataset shows them in one measurement. `count` points are put on every
edge of the tile that is carried over to another reference system. -/
def Dataset.warp {V K : Type} [Coordinate K] [Sample V K] [Reprojection K] [Containment K]
    (d : Dataset K) (source : RasterSource V) (count : Nat) (grid : Grid K) (m : Measurement V)
    (tile : TileIndex) : Except (Stop LoadError) (WarpedTile V) := do
  let shape := grid.pixelShape
  let blank := WarpedTile.blank shape m.nodata
  let some locator := d.locator? m
    | throw (.failed (.missingMeasurement d.id.text m.name))
  let toSource : Transformer := ⟨grid.crs, d.crs⟩
  let ring ← Stop.liftAbort
    (toSource.applyAll (densify (grid.paddedExtentOf tile).corners count))
  let some bounds := Box.ofPoints? (ring.map d.transform.worldToPixel)
    | return blank
  let centers ← Stop.liftAbort (toSource.applyArray (grid.centers tile))
  let positions := centers.map (position? d (liesInside d ring))
  if positions.all hasNoColumn then return blank
  let handle ← d.readResult (source.openRaster locator)
  let some window := window? bounds m.resampling.kernelRadius handle.shape
    | return blank
  let read ← d.readResult (handle.readWindow window)
  let corners ← if m.resampling.isArea then Stop.liftAbort ((cornerGrid grid tile d).map some)
    else pure none
  return {
    shape
    nodata := m.nodata
    data := pixelValues m shape.width window read corners positions
    window := some window }

end Mosaic
