import Mosaic.Geometry.Box
import Mosaic.Projection.Ellipsoid

/-!
# The square map of the world

The spherical Mercator projection on the semi-major axis of WGS84. Latitudes are moved into the
range in which the map of the world is a square.
-/

namespace Mosaic.WebMercator

/-- The latitude at which the map is cut off. -/
def maxLatitude : Float := 85.05112877980659

def radius : Float := 6378137.0

/-- Longitude and latitude in degrees to metres. -/
def forward (p : Point Float) : Point Float :=
  let lat := Angle.toRadians (Coordinate.clamp (-maxLatitude) maxLatitude p.y)
  ⟨radius * Angle.toRadians p.x, radius * (Angle.pi / 4.0 + lat / 2.0).tan.log⟩

/-- Metres to longitude and latitude in degrees. -/
def inverse (p : Point Float) : Point Float :=
  ⟨Angle.toDegrees (p.x / radius),
    Angle.toDegrees (2.0 * (p.y / radius).exp.atan - Angle.pi / 2.0)⟩

end Mosaic.WebMercator
