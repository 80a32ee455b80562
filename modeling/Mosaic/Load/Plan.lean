import Mosaic.Load.Config
import Mosaic.Load.Search

/-!
# Planning a load

A request names a product and, where it likes, a time range, an extent, measurements and the output
grid. What it leaves open comes from the grid of the product, as far as that one has the same
reference system, and then from the configuration (`LoadRequest.outputGrid`). A plan finds the
datasets and stacks them by cell; no pixels are read, so that a plan does not depend on the source
they come from.
-/

namespace Mosaic

/-- What to load. Only the product is required. -/
structure LoadRequest (K : Type) where
  product : String
  timeRange : Option TimeRange := none
  extent : Option (Box K) := none
  /-- The reference system of the extent; longitude and latitude without one. -/
  extentCrs : Option Crs := none
  /-- Names of measurements; all of the product without them. -/
  measurements : Option (List String) := none
  outputCrs : Option Crs := none
  resolution : Option (Point K) := none
  tileSize : Option (Point K) := none
  groupBy : Option TimeGrouping := none
  ordering : Option DatasetOrdering := none
  padding : Option Nat := none

/-- A load that has been planned. -/
structure LoadPlan (K V : Type) where
  product : Product K V
  measurements : List (Measurement V)
  grid : Grid K
  grouping : TimeGrouping
  cells : Cells K
  warnings : List LoadWarning
  concurrency : Nat
  densifyPoints : Nat

namespace LoadPlan

variable {K V : Type}

/-- The cells, by time and then by tile. -/
def keys (p : LoadPlan K V) : List TileKey := p.cells.keys

/-- The datasets of a cell, the one with the lowest priority first. -/
def contributors (p : LoadPlan K V) (key : TileKey) : List DatasetId :=
  ((p.cells.find? key).getD []).map Dataset.id

end LoadPlan

namespace LoadRequest

variable {K V : Type} [Coordinate K]

/-- The sides of a tile of a number of pixels. -/
def defaultTileSize (config : LoaderConfig) (resolution : Point K) : Point K :=
  let n : K := Coordinate.ofNat config.defaultTilePixels
  ⟨Coordinate.abs resolution.x * n, Coordinate.abs resolution.y * n⟩

/-- The grid of a load. -/
def outputGrid (r : LoadRequest K) (config : LoaderConfig) (p : Product K V) :
    Except LoadError (Grid K) := do
  let some crs := r.outputCrs <|> p.grid.map Grid.crs
    | throw (.configuration s!"product '{p.name}' has no default grid; output_crs is required")
  let base := p.grid.filter fun g => g.crs = crs
  let some resolution := r.resolution <|> base.map Grid.resolution
    | throw (.configuration s!"resolution is required for output CRS {crs.name}")
  let sameSize := base.filter fun g => g.resolution.same resolution
  let tileSize :=
    (r.tileSize <|> sameSize.map Grid.tileSize).getD (defaultTileSize config resolution)
  let origin := (base.map Grid.origin).getD ⟨0.0, 0.0⟩
  let padding := (r.padding <|> base.map Grid.padding).getD 0
  let grid ← (Grid.make crs resolution tileSize).mapError LoadError.ofRequest
  let grid ← (grid.withOrigin origin).mapError LoadError.ofRequest
  return grid.withPadding padding

variable [Reprojection K]

/-- The extent of a request in the reference system of the output. -/
def outputExtent (r : LoadRequest K) (config : LoaderConfig) (crs : Crs) :
    Except (Stop LoadError) (Option (Box K)) :=
  match r.extent with
  | none => .ok none
  | some box =>
    Stop.mapError (fun e => .configuration s!"extent cannot be expressed in {crs.name}: {e.message}")
      (((Transformer.mk (r.extentCrs.getD .wgs84) crs).applyBox box config.densifyPoints).map some)

/-- The stacks of the datasets that a search found. -/
def cellsOf (found : SearchResult K) (grid : Grid K) (grouping : TimeGrouping)
    (ordering : DatasetOrdering) (count : Nat) : Except Abort (Cells K) :=
  match found.extent with
  | some extent =>
    if found.datasets.isEmpty then .ok ∅
    else Cells.resolve found.datasets grid extent grouping ordering count
  | none => .ok ∅

/-- Plans a load from a catalog. -/
def plan (r : LoadRequest K) (config : LoaderConfig) (catalog : Catalog K V) :
    Except (Stop LoadError) (LoadPlan K V) := do
  let product ← Stop.liftError ((catalog.product r.product).mapError LoadError.ofCatalog)
  let measurements ← Stop.liftError ((product.select r.measurements).mapError LoadError.ofRequest)
  let grid ← Stop.liftError (r.outputGrid config product)
  let grouping := r.groupBy.getD config.timeGrouping
  let ordering := r.ordering.getD config.ordering
  let extent ← r.outputExtent config grid.crs
  let found ← catalog.findDatasets config.densifyPoints product.name r.timeRange extent grid.crs
  let cells ← Stop.liftAbort (cellsOf found grid grouping ordering config.densifyPoints)
  return {
    product, measurements, grid, grouping, cells
    warnings := found.warnings
    concurrency := config.concurrency
    densifyPoints := config.densifyPoints }

end LoadRequest

end Mosaic
