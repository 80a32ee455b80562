import Mosaic.Product.Policy
import Mosaic.Resample.View

/-!
# Resampling kernels

The value of a window at a position, by each of the five methods. Bilinear interpolation needs four
valid neighbours and cubic interpolation sixteen; without them they step back to the next simpler
method, so all three are valid where the pixel under the position is. The methods that look at an
area take the pixels whose centres lie in it, and the pixel under the position when there are none.
A kernel without a valid value gives one that is not a number.
-/

namespace Mosaic.Resampling

variable {V K : Type} [Coordinate K] [Sample V K]

open Coordinate (floor toInt)

/-- The sample of the pixel in which a position lies. -/
def nearestAt (view : WindowView V) (u v : K) : V :=
  if Coordinate.isFinite u && Coordinate.isFinite v then view.sample (toInt (floor v)) (toInt (floor u))
  else Sample.nan

/-- The first of the pixel centres between which a number lies, and how far it is from there to the
next one. -/
def cellOf (x : K) : Int × V := (toInt (floor x), Sample.narrow (x - floor x))

/-- Between four pixel centres, or the nearest pixel when one of them is not valid. -/
def bilinearAt (view : WindowView V) (u v : K) : V :=
  if Coordinate.isFinite u && Coordinate.isFinite v then
    let (x0, xf) : Int × V := cellOf (u - 0.5)
    let (y0, yf) : Int × V := cellOf (v - 0.5)
    let v00 := view.sample y0 x0
    let v10 := view.sample y0 (x0 + 1)
    let v01 := view.sample (y0 + 1) x0
    let v11 := view.sample (y0 + 1) (x0 + 1)
    if Sample.isNaN v00 || Sample.isNaN v10 || Sample.isNaN v01 || Sample.isNaN v11 then
      nearestAt view u v
    else
      let top := v00 * (1.0 - xf) + v10 * xf
      let bottom := v01 * (1.0 - xf) + v11 * xf
      top * (1.0 - yf) + bottom * yf
  else Sample.nan

/-- The Catmull-Rom spline through four values, between the second and the third. -/
def spline (p0 p1 p2 p3 t : V) : V :=
  let t2 := t * t
  let t3 := t2 * t
  let a := -0.5 * p0 + 1.5 * p1 - 1.5 * p2 + 0.5 * p3
  let b := p0 - 2.5 * p1 + 2.0 * p2 - 0.5 * p3
  let c := -0.5 * p0 + 0.5 * p2
  a * t3 + b * t2 + c * t + p1

/-- Four samples of a row, from the column before `col` on. -/
def rowOfFour (view : WindowView V) (row col : Int) : V × V × V × V :=
  (view.sample row (col - 1), view.sample row col, view.sample row (col + 1), view.sample row (col + 2))

/-- Whether one of four samples is not a number. -/
def anyNaN (r : V × V × V × V) : Bool :=
  Sample.isNaN r.1 || Sample.isNaN r.2.1 || Sample.isNaN r.2.2.1 || Sample.isNaN r.2.2.2

/-- The spline through four samples. -/
def splineOf (r : V × V × V × V) (t : V) : V := spline r.1 r.2.1 r.2.2.1 r.2.2.2 t

/-- Between sixteen pixel centres, or between four when one of them is not valid. -/
def cubicAt (view : WindowView V) (u v : K) : V :=
  if Coordinate.isFinite u && Coordinate.isFinite v then
    let (x0, xf) : Int × V := cellOf (u - 0.5)
    let (y0, yf) : Int × V := cellOf (v - 0.5)
    let r0 := rowOfFour view (y0 - 1) x0
    let r1 := rowOfFour view y0 x0
    let r2 := rowOfFour view (y0 + 1) x0
    let r3 := rowOfFour view (y0 + 2) x0
    if anyNaN r0 || anyNaN r1 || anyNaN r2 || anyNaN r3 then bilinearAt view u v
    else spline (splineOf r0 xf) (splineOf r1 xf) (splineOf r2 xf) (splineOf r3 xf) yf
  else Sample.nan

/-- Runs of equal values in a list: the first value of each and how often it comes. -/
def runs : List V → List (V × Nat)
  | [] => []
  | v :: rest =>
    match runs rest with
    | (w, n) :: more => if w == v then (v, n + 1) :: more else (v, 1) :: (w, n) :: more
    | [] => [(v, 1)]

/-- The first of the longest runs. -/
def longestRun? : List (V × Nat) → Option (V × Nat)
  | [] => none
  | r :: rest => some (rest.foldl (fun best r => if best.2 < r.2 then r else best) r)

/-- The most frequent valid value in an area, the smallest of several. -/
def modeIn? (view : WindowView V) (fp : PixelFootprint K) : Option V :=
  (longestRun? (runs ((fp.coveredValues view).mergeSort Sample.totalLe))).map Prod.fst

/-- The mean of a list of samples. -/
def meanOf (values : List V) : V :=
  Sample.narrow
    (values.foldl (fun sum v => sum + Sample.widen v) 0.0 / Coordinate.ofNat values.length)

/-- The mean of the valid values in an area. -/
def averageIn? (view : WindowView V) (fp : PixelFootprint K) : Option V :=
  match fp.coveredValues view with
  | [] => none
  | values => some (meanOf values)

/-- The value of a window at a position. The area methods need the area of the target pixel; without
it they take the nearest pixel. -/
def sampleAt (method : Resampling) (view : WindowView V) (u v : K)
    (footprint : Option (PixelFootprint K)) : V :=
  match method with
  | nearest => nearestAt view u v
  | bilinear => bilinearAt view u v
  | cubic => cubicAt view u v
  | mode => (footprint.bind (modeIn? view)).getD (nearestAt view u v)
  | average => (footprint.bind (averageIn? view)).getD (nearestAt view u v)

end Mosaic.Resampling
