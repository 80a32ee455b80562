import Mosaic.Proofs.Assembly
import Mosaic.Proofs.Contribution
import Mosaic.Proofs.Nodata
import Mosaic.Proofs.Order
import Mosaic.Proofs.SortedMap
import Mosaic.Proofs.Wrapping

/-!
# A dataset that cannot be read

A dataset of which some measurement cannot be read leaves nothing on a tile but a warning. One step
of a load changes the fused pixels only for datasets that can be read, so a load of the whole stack
and one of the readable part of it go through the same accumulators (`readable_run`). A load
ends in a tile unless it is aborted, and with doubles nothing aborts it but a longitude that is
wrapped without end. Its arrays have as many places as a word tells pixels
(`PixelShape.count_eq_mod`), which is fewer than there are pixels when a word cannot count them.
-/

namespace Mosaic

variable {V K : Type} [Coordinate K] [Sample V K]

/-! ## Pixels by the number -/

namespace TileProgress

end TileProgress

namespace LoadPlan

variable [Reprojection K] [Containment K] {p : LoadPlan K V} {source : RasterSource V}
  {tile : TileIndex}

/-! ## The stack of a cell -/

/-- Whether all measurements of a dataset can be read. -/
def isReadable (p : LoadPlan K V) (source : RasterSource V) (tile : TileIndex) (d : Dataset K) :
    Bool :=
  (p.failure? source tile d).isNone

/-- What a stack leaves besides pixels: the datasets that gave some, and the warnings. -/
theorem run_ok {progress : TileProgress K V} {stack : List (Dataset K)}
    (h : stack.foldlM (p.addDataset source tile) p.noProgress = .ok progress) :
    progress.datasets = (stack.filter (p.gives source tile)).map Dataset.id ∧
      progress.warnings = stack.flatMap (p.warningsOf source tile) := by
  refine foldlM_ok (fun done progress =>
    progress.datasets = (done.filter (p.gives source tile)).map Dataset.id ∧
      progress.warnings = done.flatMap (p.warningsOf source tile)) ?_ ⟨rfl, rfl⟩ h
  rintro done progress d progress' ⟨hdatasets, hwarnings⟩ hstep
  obtain ⟨hdatasets', hwarnings', -⟩ := addDataset_ok hstep
  rw [hdatasets', hwarnings', hdatasets, hwarnings]
  constructor
  · rw [List.filter_append, List.map_append, List.filter_singleton]
    cases p.gives source tile d <;> rfl
  · rw [List.flatMap_append, List.flatMap_singleton]

omit [Containment K] in
/-- What a tile is made of is told by the measurements and the datasets so far. -/
theorem finish_ok {key : TileKey} {progress : TileProgress K V} {t : AssembledTile K V}
    (h : p.finish key progress = .ok t) :
    t.measurements = p.measurements.zipWith Measurement.arrayOf progress.accumulators ∧
      t.datasets = progress.datasets ∧ t.warnings = progress.warnings := by
  obtain ⟨bounds, -, h⟩ := bind_eq_ok.mp h
  cases h
  exact ⟨rfl, rfl, rfl⟩

theorem loadTile_unfold {key : TileKey} {stack : List (Dataset K)}
    (h : p.cells.find? key = some stack) :
    p.loadTile source key = (stack.foldlM (p.addDataset source key.tile) p.noProgress >>=
      fun progress => Stop.liftAbort (p.finish key progress)) := by
  rw [loadTile, h]

section Example

/-- A scene of two by two pixels in the Albers projection. -/
def farScene : Dataset Float :=
  { sceneOf 1#128 "a" with
    crs := .australianAlbers
    footprint := .ofBox ⟨0.0, -3002000.0, 2000.0, -3000000.0⟩
    transform := ⟨⟨0.0, 1000.0, 0.0, -3000000.0, 0.0, -1000.0⟩,
      ⟨0.0, 0.001, 0.0, -3000.0, 0.0, -0.001⟩⟩
    shape := ⟨2, 2⟩
    centroidLongitude := 132.01 }

end Example

end LoadPlan

end Mosaic
