import Mosaic.Dataset.Id
import Mosaic.Product.Basic
import Mosaic.Projection.Transformer
import Mosaic.Raster.Source
import Mosaic.Time.Grouping

/-!
# Datasets

A dataset is one observation: when it was taken, how its raster lies in its reference system, what
part of the ground it shows and where the pixels of its measurements lie. The footprint is a polygon
in the reference system of the dataset. `footprintIn` carries it over to another one, where it may
turn out not to exist.
-/

namespace Mosaic

/-- One observation. -/
structure Dataset (K : Type) where
  id : DatasetId
  product : String
  time : TimeSpan
  crs : Crs
  /-- The ground that the dataset shows, in its own reference system. -/
  footprint : Polygon K
  transform : Affine K
  shape : PixelShape
  /-- Where measurements lie, by the names under which the dataset files them. -/
  sources : SortedMap String SourceLocator
  /-- The longitude of the centroid of the footprint. -/
  centroidLongitude : K

namespace Dataset

variable {K : Type}

/-- Where a measurement lies: under the first of its source names that the dataset files. -/
def locator? {V : Type} (d : Dataset K) (m : Measurement V) : Option SourceLocator :=
  m.sourceNames.findSome? d.sources.find?

variable [Coordinate K]

/-- The time slice to which the dataset belongs. -/
def groupKey (d : Dataset K) (grouping : TimeGrouping) : Except Abort Instant :=
  grouping.key d.time d.centroidLongitude

variable [Reprojection K]

/-- The error of a footprint without three finite points in a reference system. -/
def notExpressible (d : Dataset K) (crs : Crs) : LoadError :=
  .projection s!"footprint of {d.id.text} cannot be expressed in {crs.name}"

/-- The footprint in a reference system, with `count` points put on each of its edges where the
coordinates change. -/
def footprintIn (d : Dataset K) (crs : Crs) (count : Nat) :
    Except (Stop LoadError) (Polygon K) :=
  if crs = d.crs then .ok d.footprint
  else do
    let ring ← Stop.liftAbort
      ((Transformer.mk d.crs crs).applyAll (densify d.footprint.points count))
    match Polygon.ofFinite? ring with
    | some g => return g
    | none => throw (.failed (d.notExpressible crs))

/-- The smallest box round the footprint in longitude and latitude, if the footprint exists there. -/
def geographicBox? (d : Dataset K) (count : Nat) : Except Abort (Option (Box K)) := do
  match ← Stop.attempt (d.footprintIn .wgs84 count) with
  | .ok g => return g.box?
  | .error _ => return none

end Dataset

end Mosaic
