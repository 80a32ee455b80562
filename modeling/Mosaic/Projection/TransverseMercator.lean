import Mosaic.Geometry.Box
import Mosaic.Projection.Ellipsoid

/-!
# Transverse Mercator projection

The series of third order in the third flattening, which is accurate to well under a millimetre
within a zone.
-/

namespace Mosaic

structure TransverseMercator where
  /-- The central meridian in radians. -/
  lon0 : Float
  scale : Float
  falseEasting : Float
  falseNorthing : Float
  /-- The rectifying radius times the scale. -/
  k0a : Float
  alpha : List Float
  beta : List Float
  delta : List Float
  /-- The third flattening. -/
  n : Float
  deriving Repr

namespace TransverseMercator

/-- The projection round a central meridian in degrees. -/
def ofDegrees (lon0 scale falseEasting falseNorthing : Float) (s : Ellipsoid) :
    TransverseMercator :=
  let n := s.f / (2.0 - s.f)
  let n2 := n * n
  let n3 := n2 * n
  let rectifying := s.a / (1.0 + n) * (1.0 + n2 / 4.0 + n2 * n2 / 64.0)
  { lon0 := Angle.toRadians lon0
    scale
    falseEasting
    falseNorthing
    k0a := scale * rectifying
    alpha := [n / 2.0 - 2.0 * n2 / 3.0 + 5.0 * n3 / 16.0, 13.0 * n2 / 48.0 - 3.0 * n3 / 5.0,
      61.0 * n3 / 240.0]
    beta := [n / 2.0 - 2.0 * n2 / 3.0 + 37.0 * n3 / 96.0, n2 / 48.0 + n3 / 15.0,
      17.0 * n3 / 480.0]
    delta := [2.0 * n - 2.0 * n2 / 3.0 - 2.0 * n3, 7.0 * n2 / 3.0 - 8.0 * n3 / 5.0,
      56.0 * n3 / 15.0]
    n }

/-- A zone of six degrees, numbered eastward from the date line, in one hemisphere. -/
def utm (zone : Nat) (south : Bool) : TransverseMercator :=
  let lon0 := Float.ofNat zone * 6.0 - 183.0
  ofDegrees lon0 0.9996 500000.0 (if south then 10000000.0 else 0.0) .wgs84

/-- Adds the terms of a series one by one; `j` counts them from one. -/
def series (term : Float → Float → Point Float) : Float → List Float → Point Float → Point Float
  | _, [], sum => sum
  | j, c :: rest, sum =>
    let t := term c (2.0 * j)
    series term (j + 1.0) rest ⟨sum.x + t.x, sum.y + t.y⟩

/-- Longitude and latitude in degrees to metres. -/
def forward (p : TransverseMercator) (geo : Point Float) : Point Float :=
  let lat := Angle.toRadians geo.y
  let dlon := Angle.toRadians geo.x - p.lon0
  let c := 2.0 * p.n.sqrt / (1.0 + p.n)
  let t := (lat.sin.atanh - c * (c * lat.sin).atanh).sinh
  let xi := Float.atan2 t dlon.cos
  let eta := (dlon.sin / (1.0 + t * t).sqrt).atanh
  let sum := series
    (fun a k => ⟨a * (k * xi).cos * (k * eta).sinh, a * (k * xi).sin * (k * eta).cosh⟩)
    1.0 p.alpha ⟨eta, xi⟩
  ⟨p.falseEasting + p.k0a * sum.x, p.falseNorthing + p.k0a * sum.y⟩

/-- Metres to longitude and latitude in degrees. -/
def inverse (p : TransverseMercator) (map : Point Float) : Point Float :=
  let xi := (map.y - p.falseNorthing) / p.k0a
  let eta := (map.x - p.falseEasting) / p.k0a
  let sum := series
    (fun b k => ⟨-(b * (k * xi).cos * (k * eta).sinh), -(b * (k * xi).sin * (k * eta).cosh)⟩)
    1.0 p.beta ⟨eta, xi⟩
  let chi := (sum.y.sin / sum.x.cosh).asin
  let lat := (series (fun d k => ⟨d * (k * chi).sin, 0.0⟩) 1.0 p.delta ⟨chi, 0.0⟩).x
  let lon := p.lon0 + Float.atan2 sum.x.sinh sum.y.cos
  ⟨Angle.toDegrees lon, Angle.toDegrees lat⟩

end TransverseMercator

end Mosaic
