import Mosaic.Load.Plan

/-!
# Summaries of loads

What a load will give, told without reading pixels: its times, its tiles, and the mosaic of all of
them. The mosaic leaves out the borders of the tiles, and a tile that no dataset reaches has its
place in it as well. Counts of pixels are words of 64 bits, and whole turns through all words are
lost.
-/

namespace Mosaic

/-- What a planned load will give. -/
structure LoadSummary (K : Type) where
  product : String
  crs : Crs
  resolution : Point K
  grouping : TimeGrouping
  measurements : List String
  /-- The times of the cells, ascending. -/
  times : List Instant
  /-- The tiles of the cells, ascending. -/
  tiles : List TileIndex
  /-- The shape of every tile, border included. -/
  tileShape : PixelShape
  /-- The number of times and the shape of the mosaic of all tiles without borders. -/
  mosaic : Nat × PixelShape
  /-- The ground of all tiles. -/
  bounds : Option (Box K)
  datasetCount : Nat
  warnings : List LoadWarning

namespace LoadPlan

variable {K V : Type}

/-- The elements of a list in ascending order, each once. -/
def ascending {α : Type} [Ord α] (items : List α) : List α :=
  (items.foldl (fun (set : SortedMap α Unit) a => set.insert a ()) ∅).keys

/-- The times of the cells. -/
def times (p : LoadPlan K V) : List Instant := ascending (p.keys.map TileKey.time)

/-- The tiles of the cells. -/
def tiles (p : LoadPlan K V) : List TileIndex := ascending (p.keys.map TileKey.tile)

/-- The least and the greatest of a list of numbers. -/
def extremes? : List Int → Option (Int × Int)
  | [] => none
  | x :: rest => some (rest.foldl (fun range y => (min range.1 y, max range.2 y)) (x, x))

/-- How many numbers lie from the least to the greatest of a list. -/
def spanSize (numbers : List Int) : Nat :=
  match extremes? numbers with
  | some (least, greatest) => (greatest - least + 1).toNat
  | none => 0

variable [Coordinate K]

/-- The shape of a tile in words. -/
def tileShape (grid : Grid K) : PixelShape :=
  let shape := grid.innerShape
  ⟨(UInt64.ofNat (shape.height + 2 * grid.padding)).toNat,
    (UInt64.ofNat (shape.width + 2 * grid.padding)).toNat⟩

/-- The number of pixels along tiles with so many pixels each, without their borders. -/
def pixelsAlong (grid : Grid K) (tiles pixels : Nat) : Nat :=
  (UInt64.ofNat tiles * (UInt64.ofNat pixels - UInt64.ofNat (2 * grid.padding))).toNat

/-- The number of times and the shape of the mosaic of all tiles. -/
def mosaic (p : LoadPlan K V) : Nat × PixelShape :=
  let shape := tileShape p.grid
  let rows := spanSize (p.tiles.map TileIndex.y)
  let columns := spanSize (p.tiles.map TileIndex.x)
  (p.times.length, ⟨pixelsAlong p.grid rows shape.height, pixelsAlong p.grid columns shape.width⟩)

/-- The ground of all tiles. -/
def bounds? (p : LoadPlan K V) : Option (Box K) :=
  Catalog.unionOf? (p.tiles.map p.grid.extentOf)

/-- The datasets that go into any cell, each once. -/
def datasets (p : LoadPlan K V) : List DatasetId :=
  ascending (p.cells.values.flatten.map Dataset.id)

def summary (p : LoadPlan K V) : LoadSummary K where
  product := p.product.name
  crs := p.grid.crs
  resolution := p.grid.resolution
  grouping := p.grouping
  measurements := p.measurements.map Measurement.name
  times := p.times
  tiles := p.tiles
  tileShape := tileShape p.grid
  mosaic := p.mosaic
  bounds := p.bounds?
  datasetCount := p.datasets.length
  warnings := p.warnings

end LoadPlan

/-- Plans a load and tells what it will give. -/
def LoadRequest.describe {K V : Type} [Coordinate K] [Reprojection K] (r : LoadRequest K)
    (config : LoaderConfig) (catalog : Catalog K V) : Except (Stop LoadError) (LoadSummary K) :=
  (r.plan config catalog).map LoadPlan.summary

end Mosaic
