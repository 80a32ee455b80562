/-!
# Ellipsoids and angles

An ellipsoid of revolution is given by its semi-major axis in metres and its flattening.
-/

namespace Mosaic

structure Ellipsoid where
  a : Float
  f : Float
  deriving Repr

namespace Ellipsoid

def wgs84 : Ellipsoid := ⟨6378137.0, 1.0 / 298.257223563⟩

def grs80 : Ellipsoid := ⟨6378137.0, 1.0 / 298.257222101⟩

/-- The square of the first eccentricity. -/
def e2 (s : Ellipsoid) : Float := s.f * (2.0 - s.f)

/-- The first eccentricity. -/
def e (s : Ellipsoid) : Float := s.e2.sqrt

end Ellipsoid

namespace Angle

/-- Half a turn in radians. -/
def pi : Float := 3.141592653589793

def toRadians (degrees : Float) : Float := degrees * (pi / 180.0)

def toDegrees (radians : Float) : Float := radians * (180.0 / pi)

end Angle

end Mosaic
