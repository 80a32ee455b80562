import Mosaic.Geometry.Polygon
import Mosaic.Scalar.Exact

/-!
# Polygons inside polygons

Whether a whole polygon lies in another one is for a geometry library to say, so the answer is a
parameter (`Containment`). What a load relies on is that a polygon which contains another one
contains the points inside it (`Containment.Sound`).

Loads with doubles run with `Polygon.covers`, which asks for an inner polygon with area, boundaries
included. No edge of the inner ring may cross an edge of the outer one, no point of the inner ring
may lie outside the outer ring, and no point of the outer ring may lie inside the inner one. Where
edges run along each other or touch, the pieces between the touching points are tested in their
middle. A ring can fill a hole of the outer polygon and pass all that, so a point inside the inner
ring is tested as well. Middles and points inside are exact fractions.
-/

namespace Mosaic

/-- A test whether a polygon contains another one. -/
class Containment (K : Type) where
  /-- Whether the first polygon contains the second one. -/
  covers : Polygon K → Polygon K → Bool

/-- A polygon that contains another one contains the points inside it. -/
def Containment.Sound (K : Type) [Coordinate K] [Containment K] : Prop :=
  ∀ (outer inner : Polygon K) (p : Point K), covers outer inner = true →
    inner.contains p = true → outer.contains p = true

namespace Polygon

open Mosaic.Exact

/-- A point in exact fractions. -/
def exactPoint? {K : Type} [Coordinate K] (p : Point K) : Option (Point Rat) := do
  let x ← Coordinate.toRat? p.x
  let y ← Coordinate.toRat? p.y
  return ⟨x, y⟩

/-- A polygon in exact fractions. -/
def toExact? {K : Type} [Coordinate K] (g : Polygon K) : Option (Polygon Rat) :=
  (g.ring.mapM exactPoint?).map Polygon.mk

/-- How far along an edge a point on it lies, measured along one axis. -/
private def along (e : Edge Rat) (p : Point Rat) : Rat :=
  if e.start.x = e.stop.x then
    if e.start.y ≤ e.stop.y then p.y - e.start.y else e.start.y - p.y
  else if e.start.x ≤ e.stop.x then p.x - e.start.x else e.start.x - p.x

/-- The pieces of an edge between its ends and those of the points that lie on it. -/
def pieces (e : Edge Rat) (points : List (Point Rat)) : List (Edge Rat) :=
  let cuts := (points.filter e.holds).mergeSort fun p q => along e p ≤ along e q
  (edgesOf (e.start :: cuts ++ [e.stop])).filter fun f => !f.start.same f.stop

/-- The middle of an edge. -/
private def middle (e : Edge Rat) : Point Rat :=
  ⟨(e.start.x + e.stop.x) / 2, (e.start.y + e.stop.y) / 2⟩

/-- Whether an edge that crosses no edge of a polygon may touch it, so that its pieces have to be
tested. -/
private def mayTouch {K : Type} [Coordinate K] (g : Polygon K) (e : Edge K) : Bool :=
  (g.locate e.start == .boundary && g.locate e.stop == .boundary) || g.points.any e.holds

/-- The middles of the pieces of those edges of one polygon that touch another one. -/
private def touchingMiddles (g : Polygon Rat) (edges : List (Edge Rat)) : List (Point Rat) :=
  edges.flatMap fun e => (pieces e g.points).map middle

/-- The edges in exact fractions. -/
private def exactEdges? {K : Type} [Coordinate K] (edges : List (Edge K)) :
    Option (List (Edge Rat)) :=
  edges.mapM fun e => do
    let start ← exactPoint? e.start
    let stop ← exactPoint? e.stop
    return ⟨start, stop⟩

/-- Whether the pieces of touching edges lie on the right sides. -/
private def piecesFit {K : Type} [Coordinate K] (outer inner : Polygon K) : Bool :=
  match toExact? outer, toExact? inner, exactEdges? (inner.edges.filter (mayTouch outer)),
      exactEdges? (outer.edges.filter (mayTouch inner)) with
  | some o, some i, some innerEdges, some outerEdges =>
    (touchingMiddles o innerEdges).all (fun p => o.locate p != .outside) &&
      (touchingMiddles i outerEdges).all fun p => i.locate p != .inside
  | _, _, _, _ => false

/-- Where an edge crosses a row, if it does. -/
private def crossing? (y : Rat) (e : Edge Rat) : Option Rat :=
  if decide (e.start.y < y) = decide (e.stop.y < y) then none
  else some (e.start.x + (y - e.start.y) / (e.stop.y - e.start.y) * (e.stop.x - e.start.x))

/-- A point inside a polygon, halfway between two edges that cross the row between its lowest and
its next lowest point. -/
private def innerPoint? (g : Polygon Rat) : Option (Point Rat) := do
  let ys := (g.points.map Point.y).mergeSort
  let lowest ← ys.head?
  let next ← ys.find? (lowest < ·)
  let y := (lowest + next) / 2
  let xs := (g.edges.filterMap (crossing? y)).mergeSort
  ((xs.zip xs.tail).map fun gap => (⟨(gap.1 + gap.2) / 2, y⟩ : Point Rat)).find?
    (g.locate · == .inside)

/-- Whether a point inside the inner polygon does not lie outside the outer one. -/
private def innerPointFits {K : Type} [Coordinate K] (outer inner : Polygon K) : Bool :=
  match toExact? outer, (toExact? inner).bind innerPoint? with
  | some o, some p => o.locate p != .outside
  | _, _ => false

/-- Whether the inner polygon has area and all of it lies in the outer one, boundaries included. -/
def covers {K : Type} [Coordinate K] (outer inner : Polygon K) : Bool :=
  !(inner.signedArea == 0.0) &&
    inner.points.all (fun p => outer.locate p != .outside) &&
    outer.points.all (fun p => inner.locate p != .inside) &&
    inner.edges.all (fun e => outer.edges.all fun f => !e.crosses f) &&
    piecesFit outer inner && innerPointFits outer inner

end Polygon

instance : Containment Float := ⟨Polygon.covers⟩

end Mosaic
