import Mosaic.Load.Fuse
import Mosaic.Load.Plan
import Mosaic.Resample.Warp

/-!
# Loading a tile

One cell of a plan is loaded by warping every dataset of its stack onto the tile, in all measurements,
and fusing what they show. A dataset gives all of its measurements or, when one of them cannot be
read, none of them, and a warning says so. A measurement that a dataset lacks gives a warning as well
and leaves the others in place.
-/

namespace Mosaic

/-- The fused pixels of one measurement, row by row. -/
structure MeasurementArray (V : Type) where
  name : String
  dtype : DataType
  nodata : V
  data : Array V

namespace MeasurementArray

/-- The number of pixels with data. -/
def validCount {V K : Type} [Sample V K] (a : MeasurementArray V) : Nat :=
  a.data.countP fun v => !isNodata a.nodata v

end MeasurementArray

/-- One loaded cell. -/
structure AssembledTile (K V : Type) where
  key : TileKey
  shape : PixelShape
  crs : Crs
  /-- The ground that the pixels cover. -/
  extent : Box K
  /-- That ground in longitude and latitude, if it exists there. -/
  geographicBounds : Option (Box K)
  geotransform : GeoTransform K
  measurements : List (MeasurementArray V)
  /-- The datasets that gave pixels, the one with the lowest priority first. -/
  datasets : List DatasetId
  warnings : List LoadWarning

namespace AssembledTile

variable {K V : Type}

/-- The array of a measurement. -/
def find? (t : AssembledTile K V) (name : String) : Option (MeasurementArray V) :=
  t.measurements.find? (·.name == name)

/-- The arrays of all measurements, one after the other. -/
def stacked (t : AssembledTile K V) : Array V :=
  t.measurements.foldl (fun out m => out ++ m.data) #[]

end AssembledTile

/-- What a dataset gives to a tile. -/
inductive Contribution (V : Type)
  /-- The warped tile of every measurement, where the dataset has it. -/
  | windows (tiles : List (Option (WarpedTile V)))
  /-- A measurement cannot be read. -/
  | unreadable (error : LoadError)

/-- What has been put together of a tile. -/
structure TileProgress (K V : Type) where
  accumulators : List (FusionAccumulator V K)
  datasets : List DatasetId := []
  warnings : List LoadWarning := []

namespace TileProgress

variable {K V : Type} [Coordinate K] [Sample V K]

/-- Adds what a dataset shows in every measurement, where it has it. -/
def pushAll : List (FusionAccumulator V K) → List (Option (WarpedTile V)) →
    Except LoadError (List (FusionAccumulator V K))
  | acc :: accs, tile :: tiles => do
    let acc ← match tile with
      | some t => acc.push t.data
      | none => .ok acc
    return acc :: (← pushAll accs tiles)
  | accs, _ => .ok accs

omit [Coordinate K] [Sample V K] in
/-- The warnings for the measurements that a dataset lacks. -/
def lacking (d : Dataset K) (measurements : List (Measurement V))
    (tiles : List (Option (WarpedTile V))) : List LoadWarning :=
  (measurements.zip tiles).filterMap fun mt =>
    match mt.2 with
    | some _ => none
    | none => some (.missingMeasurement d.id s!"no source for measurement '{mt.1.name}'")

omit [Coordinate K] [Sample V K] in
/-- Whether a window was read in some measurement. -/
def contributed (tiles : List (Option (WarpedTile V))) : Bool :=
  tiles.any fun t => t.any fun t => t.window.isSome

/-- Adds what a dataset gives. -/
def add (p : TileProgress K V) (measurements : List (Measurement V)) (d : Dataset K) :
    Contribution V → Except LoadError (TileProgress K V)
  | .unreadable e => .ok { p with warnings := p.warnings ++ [.sourceRead d.id e.message] }
  | .windows tiles => do
    let accumulators ← pushAll p.accumulators tiles
    return {
      accumulators
      datasets := if contributed tiles then p.datasets ++ [d.id] else p.datasets
      warnings := p.warnings ++ lacking d measurements tiles }

end TileProgress

namespace Measurement

variable {K V : Type} [Coordinate K] [Sample V K]

/-- A fused value as the type of the measurement stores it. -/
def store (m : Measurement V) (value : V) : V :=
  if m.dtype.isInteger && !isNodata m.nodata value then m.dtype.castValid value m.nodata else value

/-- The array of fused pixels. -/
def arrayOf (m : Measurement V) (acc : FusionAccumulator V K) : MeasurementArray V :=
  ⟨m.name, m.dtype, m.nodata, acc.finish.map m.store⟩

end Measurement

namespace LoadPlan

variable {K V : Type} [Coordinate K] [Sample V K] [Reprojection K] [Containment K]

/-- What a dataset gives to a tile in a list of measurements: up to the first that cannot be read. -/
def contribution (p : LoadPlan K V) (source : RasterSource V) (tile : TileIndex) (d : Dataset K) :
    List (Measurement V) → Except (Stop LoadError) (Contribution V)
  | [] => .ok (.windows [])
  | m :: rest => do
    let warped ← Stop.liftAbort (Stop.attempt (d.warp source p.densifyPoints p.grid m tile))
    let window ← match warped with
      | .ok w => pure (some w)
      | .error (.missingMeasurement ..) => pure none
      | .error e => if e.isRecoverable then return .unreadable e else throw (.failed e)
    match ← p.contribution source tile d rest with
    | .windows tiles => return .windows (window :: tiles)
    | .unreadable e => return .unreadable e

/-- What a tile holds before the first dataset. -/
def noProgress (p : LoadPlan K V) : TileProgress K V where
  accumulators := p.measurements.map fun m =>
    FusionAccumulator.start p.product.fusion (p.grid.pixelShape.count K) m.nodata

/-- Adds one dataset of a stack. -/
def addDataset (p : LoadPlan K V) (source : RasterSource V) (tile : TileIndex)
    (progress : TileProgress K V) (d : Dataset K) : Except (Stop LoadError) (TileProgress K V) := do
  let c ← p.contribution source tile d p.measurements
  Stop.liftError (progress.add p.measurements d c)

/-- The tile of a stack that has been put together. -/
def finish (p : LoadPlan K V) (key : TileKey) (progress : TileProgress K V) :
    Except Abort (AssembledTile K V) := do
  let extent := p.grid.paddedExtentOf key.tile
  let bounds ← Stop.attempt
    ((Transformer.mk p.grid.crs .wgs84).applyBox extent p.densifyPoints)
  return {
    key, extent
    shape := p.grid.pixelShape
    crs := p.grid.crs
    geographicBounds := bounds.toOption
    geotransform := p.grid.geotransform key.tile
    measurements := p.measurements.zipWith Measurement.arrayOf progress.accumulators
    datasets := progress.datasets
    warnings := progress.warnings }

/-- Loads one cell of the plan. -/
def loadTile (p : LoadPlan K V) (source : RasterSource V) (key : TileKey) :
    Except (Stop LoadError) (AssembledTile K V) := do
  let some stack := p.cells.find? key
    | throw (.failed (.configuration s!"{key.text} is not part of this load"))
  let progress ← stack.foldlM (p.addDataset source key.tile) p.noProgress
  Stop.liftAbort (p.finish key progress)

/-- Loads all cells in order. -/
def loadAll (p : LoadPlan K V) (source : RasterSource V) :
    List (Except (Stop LoadError) (AssembledTile K V)) :=
  p.keys.map (p.loadTile source)

end LoadPlan

end Mosaic
