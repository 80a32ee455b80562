import Mosaic.Crs
import Mosaic.Geometry.Polygon
import Mosaic.Projection.Albers
import Mosaic.Projection.TransverseMercator
import Mosaic.Projection.WebMercator
import Mosaic.Scalar.Machine

/-!
# From one reference system to another

Coordinates go from one reference system to another by way of longitude and latitude. Between a
system and itself, and between the two geographic ones, they stay as they are. A point outside the
domain of a projection comes out not finite, and callers drop it.

Shapes are carried over point by point, after points have been put on their edges (`densify`). The
change of coordinates itself belongs to the number type: `Float` has the projections.
-/

namespace Mosaic

/-- The change of coordinates from one reference system to another by way of longitude and
latitude. -/
class Reprojection (K : Type) where
  reproject : Crs → Crs → Point K → Except Abort (Point K)

namespace Crs

/-- Coordinates to longitude and latitude in degrees. -/
def toGeographic (crs : Crs) (p : Point Float) : Point Float :=
  match crs with
  | wgs84 | gda94 => p
  | webMercator => WebMercator.inverse p
  | australianAlbers => Albers.australian.inverse p
  | utm zone south => (TransverseMercator.utm (zone + 1) south).inverse p

/-- Longitude and latitude in degrees to coordinates. -/
def ofGeographic (crs : Crs) (p : Point Float) : Except Abort (Point Float) :=
  match crs with
  | wgs84 | gda94 => .ok p
  | webMercator => .ok (WebMercator.forward p)
  | australianAlbers => Albers.australian.forward p
  | utm zone south => .ok ((TransverseMercator.utm (zone + 1) south).forward p)

end Crs

instance : Reprojection Float where
  reproject source target p := target.ofGeographic (source.toGeographic p)

/-- A change of coordinates between two reference systems. -/
structure Transformer where
  source : Crs
  target : Crs
  deriving DecidableEq, Repr

namespace Transformer

/-- Whether coordinates stay as they are. -/
def isIdentity (t : Transformer) : Bool :=
  t.source == t.target || (t.source.isGeographic && t.target.isGeographic)

/-- The change in the opposite direction. -/
def inverse (t : Transformer) : Transformer := ⟨t.target, t.source⟩

variable {K : Type} [Reprojection K]

/-- The coordinates of one point. -/
def apply (t : Transformer) (p : Point K) : Except Abort (Point K) :=
  if t.isIdentity then .ok p else Reprojection.reproject t.source t.target p

/-- The coordinates of every point of a list. -/
def applyAll (t : Transformer) (points : List (Point K)) : Except Abort (List (Point K)) :=
  if t.isIdentity then .ok points else points.mapM (Reprojection.reproject t.source t.target)

/-- The coordinates of every point of an array. -/
def applyArray (t : Transformer) (points : Array (Point K)) : Except Abort (Array (Point K)) :=
  if t.isIdentity then .ok points else points.mapM (Reprojection.reproject t.source t.target)

end Transformer

/-- The points of an edge from its start on, at `steps` equal distances, without its end. -/
def densifyEdge {K : Type} [Coordinate K] (steps : Nat) (p q : Point K) : List (Point K) :=
  (List.range steps).map fun s =>
    let t : K := Coordinate.ofNat s / Coordinate.ofNat steps
    ⟨p.x + (q.x - p.x) * t, p.y + (q.y - p.y) * t⟩

/-- A ring with `count` points put on every edge at equal distances. The ring may be open or closed;
the result is open. The number of steps along an edge has no end here. In a word of 64 bits it goes
round where `count` is `2 ^ 64 - 1`, and no point of the ring is left; that case is left out. -/
def densify {K : Type} [Coordinate K] (ring : List (Point K)) (count : Nat) : List (Point K) :=
  match Polygon.openRing ring with
  | p :: q :: rest =>
    let points := p :: q :: rest
    (points.zip (q :: rest ++ [p])).flatMap fun e => densifyEdge (count + 1) e.1 e.2
  | points => points

namespace Transformer

variable {K : Type} [Coordinate K] [Reprojection K]

/-- The smallest box round the image of a box, with `count` points put on each of its edges. -/
def applyBox (t : Transformer) (b : Box K) (count : Nat) : Except (Stop ProjectionError) (Box K) :=
  if t.isIdentity then .ok b
  else do
    let image ← Stop.liftAbort (t.applyAll (densify b.corners count))
    match Box.ofPoints? image with
    | some box => return box
    | none => throw (.failed (.outOfDomain t.target.name))

end Transformer

end Mosaic
