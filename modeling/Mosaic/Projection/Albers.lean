import Mosaic.Geometry.Box
import Mosaic.Outcome
import Mosaic.Projection.Ellipsoid

/-!
# Albers equal-area conic projection

The ellipsoidal form with two standard parallels, or one when they are equal. The inverse finds the
latitude by at most fifteen steps of an iteration.

Going forward, the longitude relative to the central meridian is wrapped into half a turn either way
by taking off or adding whole turns. That ends only when each turn makes a difference: a longitude so
large that it swallows a turn is an `Abort`.
-/

namespace Mosaic

structure Albers where
  /-- The central meridian in radians. -/
  lon0 : Float
  falseEasting : Float
  falseNorthing : Float
  ellipsoid : Ellipsoid
  /-- The cone constant. -/
  n : Float
  c : Float
  /-- The radius of the parallel of origin. -/
  rho0 : Float
  deriving Repr

namespace Albers

/-- The radius of a parallel, relative to the semi-major axis. -/
def m (lat e2 : Float) : Float :=
  let sinLat := lat.sin
  lat.cos / (1.0 - e2 * sinLat * sinLat).sqrt

/-- The area between the equator and a parallel, relative to the ellipsoid. -/
def q (lat : Float) (s : Ellipsoid) : Float :=
  let e2 := s.e2
  let e := s.e
  let sinLat := lat.sin
  (1.0 - e2) *
    (sinLat / (1.0 - e2 * sinLat * sinLat) -
      1.0 / (2.0 * e) * ((1.0 - e * sinLat) / (1.0 + e * sinLat)).log)

/-- The projection with an origin and two standard parallels in degrees. -/
def ofDegrees (lat0 lon0 lat1 lat2 falseEasting falseNorthing : Float) (s : Ellipsoid) : Albers :=
  let toRad := Angle.pi / 180.0
  let lat0 := lat0 * toRad
  let lat1 := lat1 * toRad
  let lat2 := lat2 * toRad
  let m1 := m lat1 s.e2
  let m2 := m lat2 s.e2
  let q0 := q lat0 s
  let q1 := q lat1 s
  let q2 := q lat2 s
  let n := if (lat1 - lat2).abs < 1e-10 then lat1.sin else (m1 * m1 - m2 * m2) / (q2 - q1)
  let c := m1 * m1 + n * q1
  let rho0 := s.a * (c - n * q0).sqrt / n
  ⟨lon0 * toRad, falseEasting, falseNorthing, s, n, c, rho0⟩

/-- The projection of the Australian reference system. -/
def australian : Albers := ofDegrees 0.0 132.0 (-18.0) (-36.0) 0.0 0.0 .grs80

/-- Takes whole turns off an angle until it is at most half a turn. -/
def wrapDown (x : Float) : Except Abort Float :=
  if Angle.pi < x then
    let y := x - 2.0 * Angle.pi
    if Angle.pi < y then
      if y.toBits.toNat < x.toBits.toNat then wrapDown y else .error .endlessWrap
    else .ok y
  else .ok x
termination_by x.toBits.toNat

/-- Adds whole turns to an angle until it is at least minus half a turn. -/
def wrapUp (x : Float) : Except Abort Float :=
  if x < -Angle.pi then
    let y := x + 2.0 * Angle.pi
    if y < -Angle.pi then
      if y.toBits.toNat < x.toBits.toNat then wrapUp y else .error .endlessWrap
    else .ok y
  else .ok x
termination_by x.toBits.toNat

/-- Longitude and latitude in degrees to metres. -/
def forward (p : Albers) (geo : Point Float) : Except Abort (Point Float) := do
  let toRad := Angle.pi / 180.0
  let lat := geo.y * toRad
  let dlon ← wrapDown (geo.x * toRad - p.lon0)
  let dlon ← wrapUp dlon
  let qv := q lat p.ellipsoid
  let rho := p.ellipsoid.a * (Coordinate.maximum (p.c - p.n * qv) 0.0).sqrt / p.n
  let theta := p.n * dlon
  return ⟨p.falseEasting + rho * theta.sin, p.falseNorthing + p.rho0 - rho * theta.cos⟩

/-- The correction of a latitude whose area is `qv`. -/
private def latitudeStep (s : Ellipsoid) (qv lat : Float) : Float :=
  let e2 := s.e2
  let e := s.e
  let sinLat := lat.sin
  let oneMinus := 1.0 - e2 * sinLat * sinLat
  oneMinus * oneMinus / (2.0 * lat.cos) *
    (qv / (1.0 - e2) - sinLat / oneMinus +
      1.0 / (2.0 * e) * ((1.0 - e * sinLat) / (1.0 + e * sinLat)).log)

/-- Improves a latitude until it stands still or lies at a pole, in at most so many steps. -/
def refineLatitude (s : Ellipsoid) (qv : Float) : Nat → Float → Float
  | 0, lat => lat
  | steps + 1, lat =>
    if lat.cos.abs < 1e-12 then lat
    else
      let delta := latitudeStep s qv lat
      if delta.abs < 1e-12 then lat + delta else refineLatitude s qv steps (lat + delta)

/-- Metres to longitude and latitude in degrees. -/
def inverse (p : Albers) (map : Point Float) : Point Float :=
  let toDeg := 180.0 / Angle.pi
  let a := p.ellipsoid.a
  let x := map.x - p.falseEasting
  let dy := p.rho0 - (map.y - p.falseNorthing)
  -- For a negative cone constant both the radius and the angle change sign.
  let (rho, theta) :=
    if p.n < 0.0 then (-(x * x + dy * dy).sqrt, Float.atan2 (-x) (-dy))
    else ((x * x + dy * dy).sqrt, Float.atan2 x dy)
  let qv := (p.c - rho * rho * p.n * p.n / (a * a)) / p.n
  let lat := refineLatitude p.ellipsoid qv 15 (Coordinate.clamp (-1.0) 1.0 (qv / 2.0)).asin
  let lon := p.lon0 + theta / p.n
  ⟨lon * toDeg, lat * toDeg⟩

end Albers

end Mosaic
