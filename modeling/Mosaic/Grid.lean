import Mosaic.Crs
import Mosaic.Geometry.Affine
import Mosaic.Raster.Shape

/-!
# Tiled grids

A grid fixes the reference system, the pixel size and the tile size of a load. Tiles are numbered by
whole numbers from the origin on, northward in `y` whatever the sign of the pixel size. Every tile
owns its lower and left edges and not its upper and right ones, so each point of the plane lies in
one tile (`cellFor`).

Padding adds a border of pixels on every side of every tile. It changes the pixels of a tile
(`paddedExtentOf`, `pixelShape`, `pixelCenter`) and not which tile a point belongs to.
-/

namespace Mosaic

/-- The number of a tile along each axis. -/
structure TileIndex where
  x : Int
  y : Int
  deriving DecidableEq, Repr

namespace TileIndex

/-- Tiles compare by column, then by row. -/
def cmp (a b : TileIndex) : Ordering := (compare a.x b.x).then (compare a.y b.y)

instance : Ord TileIndex := ⟨cmp⟩

def text (t : TileIndex) : String := s!"({t.x}, {t.y})"

end TileIndex

/-- A tiled grid. -/
structure Grid (K : Type) where
  crs : Crs
  /-- The size of a pixel; `y` is negative when rows run southward. -/
  resolution : Point K
  /-- The size of a tile; both lengths are positive. -/
  tileSize : Point K
  /-- The lower left corner of the tile with the numbers zero. -/
  origin : Point K
  /-- The width of the border of pixels round every tile. -/
  padding : Nat
  deriving Repr

namespace Grid

/-- What can be wrong with a grid. -/
inductive Flaw (K : Type)
  | resolution (size : Point K)
  | tileSize (size : Point K)
  | origin
  /-- A tile does not hold a whole number of pixels along the named axis. -/
  | partialPixels (axis : String) (tile pixel : K)

variable {K : Type} [Coordinate K]

open Coordinate (floor ceil round toInt abs)

namespace Flaw

def text : Flaw K → String
  | resolution size =>
    s!"resolution must be finite and non-zero, got ({Coordinate.plain size.x}, {Coordinate.plain size.y})"
  | tileSize size =>
    s!"tile size must be positive, got ({Coordinate.plain size.x}, {Coordinate.plain size.y})"
  | origin => "origin must be finite"
  | partialPixels axis tile pixel =>
    s!"tile size {Coordinate.plain tile} along {axis} is not a whole number of {Coordinate.plain pixel} pixels"

def toError (flaw : Flaw K) : RequestError := .invalidGrid flaw.text

end Flaw

/-- How far the number of pixels of a tile may be from a whole number. -/
def pixelTolerance : K := 1e-6

/-- Whether a tile holds a whole number of pixels, and at least one. -/
def wholePixels (tile pixel : K) : Bool :=
  let pixels := tile / abs pixel
  !(decide (round pixels < 1.0) || decide (pixelTolerance < abs (pixels - round pixels)))

/-- The first flaw of a grid, looked for in the pixel size, the tile size, the origin and the number
of pixels of a tile along both axes. -/
def flaw? (g : Grid K) : Option (Flaw K) :=
  if g.resolution.x == 0.0 || g.resolution.y == 0.0 || !g.resolution.isFinite then
    some (.resolution g.resolution)
  else if !(decide (0.0 < g.tileSize.x) && decide (0.0 < g.tileSize.y) && g.tileSize.isFinite) then
    some (.tileSize g.tileSize)
  else if !g.origin.isFinite then some .origin
  else if !wholePixels g.tileSize.x g.resolution.x then
    some (.partialPixels "x" g.tileSize.x (abs g.resolution.x))
  else if !wholePixels g.tileSize.y g.resolution.y then
    some (.partialPixels "y" g.tileSize.y (abs g.resolution.y))
  else none

/-- Accepts a grid without flaws. -/
def validate (g : Grid K) : Except RequestError Unit :=
  match g.flaw? with
  | some flaw => .error flaw.toError
  | none => .ok ()

/-- The grid itself if it has no flaws. -/
def checked (g : Grid K) : Except RequestError (Grid K) := do
  g.validate
  return g

/-- A grid without padding whose origin is that of its reference system. -/
def make (crs : Crs) (resolution tileSize : Point K) : Except RequestError (Grid K) :=
  checked ⟨crs, resolution, tileSize, ⟨0.0, 0.0⟩, 0⟩

/-- The grid moved to another origin. -/
def withOrigin (g : Grid K) (origin : Point K) : Except RequestError (Grid K) :=
  checked { g with origin }

/-- The grid with another border. -/
def withPadding (g : Grid K) (padding : Nat) : Grid K := { g with padding }

/-! ## Tiles -/

/-- The tile in which a point lies. -/
def cellFor (g : Grid K) (p : Point K) : TileIndex :=
  ⟨toInt (floor ((p.x - g.origin.x) / g.tileSize.x)),
    toInt (floor ((p.y - g.origin.y) / g.tileSize.y))⟩

/-- The ground that a tile covers. -/
def extentOf (g : Grid K) (t : TileIndex) : Box K :=
  let minX := g.origin.x + Coordinate.ofInt t.x * g.tileSize.x
  let minY := g.origin.y + Coordinate.ofInt t.y * g.tileSize.y
  ⟨minX, minY, minX + g.tileSize.x, minY + g.tileSize.y⟩

/-- The width of the border along each axis. -/
def margin (g : Grid K) : Point K :=
  ⟨Coordinate.ofNat g.padding * abs g.resolution.x, Coordinate.ofNat g.padding * abs g.resolution.y⟩

/-- The ground that the pixels of a tile cover, border included. -/
def paddedExtentOf (g : Grid K) (t : TileIndex) : Box K :=
  (g.extentOf t).pad g.margin.x g.margin.y

/-- The floor of `lower / step` and the ceiling of `upper / step`, which is moved up where needed so
that at least one whole number lies from the one on and before the other. Only from the last of the
integers in use on there is none. -/
def indexBounds (lower upper step : K) : Int × Int :=
  let start := toInt (floor (lower / step))
  (start, max (toInt (ceil (upper / step))) (Coordinate.wrap K (start + 1)))

/-- The whole numbers between two bounds, the upper one excluded. -/
def indexRange (bounds : Int × Int) : List Int :=
  (List.range (bounds.2 - bounds.1).toNat).map fun (n : Nat) => bounds.1 + n

/-- The bounds of the columns of tiles that an extent needs. -/
def columnBounds (g : Grid K) (extent : Box K) : Int × Int :=
  indexBounds (extent.minX - g.origin.x) (extent.maxX - g.origin.x) g.tileSize.x

/-- The bounds of the rows of tiles that an extent needs. -/
def rowBounds (g : Grid K) (extent : Box K) : Int × Int :=
  indexBounds (extent.minY - g.origin.y) (extent.maxY - g.origin.y) g.tileSize.y

/-- The tiles that an extent needs, row by row. Its upper and right edges are not part of it, unless
it has no extent there at all. -/
def tilesForExtent (g : Grid K) (extent : Box K) : List TileIndex :=
  (indexRange (g.rowBounds extent)).flatMap fun y =>
    (indexRange (g.columnBounds extent)).map fun x => ⟨x, y⟩

/-- Whether an extent needs a tile. -/
def extentNeeds (g : Grid K) (extent : Box K) (t : TileIndex) : Bool :=
  let columns := g.columnBounds extent
  let rows := g.rowBounds extent
  decide (columns.1 ≤ t.x) && decide (t.x < columns.2) &&
    decide (rows.1 ≤ t.y) && decide (t.y < rows.2)

theorem mem_indexRange {bounds : Int × Int} {i : Int} :
    i ∈ indexRange bounds ↔ bounds.1 ≤ i ∧ i < bounds.2 := by
  simp only [indexRange, List.mem_map, List.mem_range]
  constructor
  · rintro ⟨n, hn, rfl⟩
    omega
  · intro h
    exact ⟨(i - bounds.1).toNat, by omega, by omega⟩

theorem mem_tilesForExtent {g : Grid K} {extent : Box K} {t : TileIndex} :
    t ∈ g.tilesForExtent extent ↔ g.extentNeeds extent t = true := by
  obtain ⟨x, y⟩ := t
  simp only [tilesForExtent, extentNeeds, List.mem_flatMap, List.mem_map, mem_indexRange,
    TileIndex.mk.injEq, Bool.and_eq_true, decide_eq_true_eq]
  constructor
  · rintro ⟨y', hy, x', hx, rfl, rfl⟩
    exact ⟨⟨⟨hx.1, hx.2⟩, hy.1⟩, hy.2⟩
  · rintro ⟨⟨⟨h1, h2⟩, h3⟩, h4⟩
    exact ⟨y, ⟨h3, h4⟩, x, ⟨h1, h2⟩, rfl, rfl⟩

/-! ## Pixels -/

/-- The shape of a tile without its border. -/
def innerShape (g : Grid K) : PixelShape :=
  ⟨Coordinate.toNat (round (g.tileSize.y / abs g.resolution.y)),
    Coordinate.toNat (round (g.tileSize.x / abs g.resolution.x))⟩

/-- The shape of a tile. -/
def pixelShape (g : Grid K) : PixelShape :=
  ⟨Coordinate.word K (g.innerShape.height + 2 * g.padding),
    Coordinate.word K (g.innerShape.width + 2 * g.padding)⟩

/-- The outer corner of the first pixel of a tile. -/
def pixelOrigin (g : Grid K) (t : TileIndex) : Point K :=
  let extent := g.paddedExtentOf t
  ⟨if 0.0 < g.resolution.x then extent.minX else extent.maxX,
    if g.resolution.y < 0.0 then extent.maxY else extent.minY⟩

/-- The centre of a pixel of a tile. -/
def pixelCenter (g : Grid K) (t : TileIndex) (row col : Nat) : Point K :=
  let o := g.pixelOrigin t
  ⟨o.x + (Coordinate.ofNat col + 0.5) * g.resolution.x,
    o.y + (Coordinate.ofNat row + 0.5) * g.resolution.y⟩

/-- The affine map of the pixels of a tile. -/
def geotransform (g : Grid K) (t : TileIndex) : GeoTransform K :=
  let o := g.pixelOrigin t
  ⟨o.x, g.resolution.x, 0.0, o.y, 0.0, g.resolution.y⟩

end Grid

end Mosaic
