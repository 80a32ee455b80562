import Mosaic.Geometry.Box

/-!
# Polygons

A polygon is a closed ring of points; what lies inside is what the ring winds round. `locate` tells
inside, boundary and outside apart by winding numbers over exact turns, so no rounding error moves a
point across an edge. `meets` counts a shared boundary point and `contains` does not. `overlaps` asks
whether a polygon and a box share interior, and leaves out what they share by touching.

The centroid of a ring without area is that of its edges, and that of a ring without length its
point.
-/

namespace Mosaic

/-- A ring that ends where it begins. -/
structure Polygon (K : Type) where
  ring : List (Point K)
  deriving DecidableEq

/-- A way from one point straight to another. -/
structure Edge (K : Type) where
  start : Point K
  stop : Point K

namespace Edge

variable {K : Type} [Coordinate K]

/-- The turn on the way along the edge and on to a point. -/
def turn (e : Edge K) (p : Point K) : Turn :=
  Coordinate.turn (e.start.x, e.start.y) (e.stop.x, e.stop.y) (p.x, p.y)

/-- Whether a number lies between two others that come in either order, ends included. -/
def between (x a b : K) : Bool :=
  if a < b then decide (a ≤ x) && decide (x ≤ b) else decide (b ≤ x) && decide (x ≤ a)

/-- Whether a point lies in the smallest box round the edge. -/
def boxHolds (e : Edge K) (p : Point K) : Bool :=
  between p.x e.start.x e.stop.x && between p.y e.start.y e.stop.y

/-- Whether a point lies on the edge, ends included. -/
def holds (e : Edge K) (p : Point K) : Bool := e.turn p == .straight && e.boxHolds p

/-- Whether two edges have a point in common. -/
def meets (e f : Edge K) : Bool :=
  if e.start.same e.stop then f.holds e.start
  else
    let a := e.turn f.start
    let b := e.turn f.stop
    if a ≠ b then f.turn e.start != f.turn e.stop
    else if a = .straight then
      e.boxHolds f.start || e.boxHolds f.stop || f.boxHolds e.stop
    else false

/-- Whether two turns are to different sides. -/
private def opposite : Turn → Turn → Bool
  | .left, .right | .right, .left => true
  | _, _ => false

/-- Whether two edges cross in a single point inside both. -/
def crosses (e f : Edge K) : Bool :=
  opposite (e.turn f.start) (e.turn f.stop) && opposite (f.turn e.start) (f.turn e.stop)

end Edge

/-- Where a point lies with regard to a polygon. -/
inductive Place
  | inside
  | boundary
  | outside
  deriving DecidableEq, Repr

namespace Polygon

variable {K : Type} [Coordinate K]

/-- The polygon of a ring that may be open. -/
def ofRing : List (Point K) → Polygon K
  | [] => ⟨[]⟩
  | p :: rest =>
    match rest.getLast? with
    | none => ⟨[p]⟩
    | some q => if p.same q then ⟨p :: rest⟩ else ⟨p :: rest ++ [p]⟩

/-- The points of a ring without the last one where it repeats the first. -/
def openRing (ring : List (Point K)) : List (Point K) :=
  match ring, ring.getLast? with
  | p :: _ :: _, some q => if p.same q then ring.dropLast else ring
  | _, _ => ring

/-- The points of the polygon, each once. -/
def points (g : Polygon K) : List (Point K) := openRing g.ring

/-- The polygon of the finite points of a ring; `none` when fewer than three are left. -/
def ofFinite? (ring : List (Point K)) : Option (Polygon K) :=
  let finite := ring.filter Point.isFinite
  if finite.length < 3 then none else some (ofRing finite)

/-- The edges between the points of a list in turn. -/
def edgesOf : List (Point K) → List (Edge K)
  | p :: q :: rest => ⟨p, q⟩ :: edgesOf (q :: rest)
  | _ => []

def edges (g : Polygon K) : List (Edge K) := edgesOf g.ring

/-- A range of numbers widened to hold one more. -/
def widenRange (range : K × K) (x : K) : K × K :=
  if range.2 < x then (range.1, x) else if x < range.1 then (x, range.2) else range

/-- The smallest box round the polygon. -/
def box? (g : Polygon K) : Option (Box K) :=
  match g.ring with
  | [] => none
  | p :: rest =>
    let xs := rest.foldl (fun range q => widenRange range q.x) (p.x, p.x)
    let ys := rest.foldl (fun range q => widenRange range q.y) (p.y, p.y)
    some ⟨xs.1, ys.1, xs.2, ys.2⟩

/-- The polygon of a box, whichever of its coordinates are the smaller ones. -/
def ofBox (b : Box K) : Polygon K :=
  let (x0, x1) := if b.minX < b.maxX then (b.minX, b.maxX) else (b.maxX, b.minX)
  let (y0, y1) := if b.minY < b.maxY then (b.minY, b.maxY) else (b.maxY, b.minY)
  ⟨[⟨x0, y0⟩, ⟨x0, y1⟩, ⟨x1, y1⟩, ⟨x1, y0⟩, ⟨x0, y0⟩]⟩

/-- What one edge adds to the winding number of a ring round a point; `none` on the boundary. An
upward edge counts with its lower end and a downward edge with its lower end too, so that a corner
counts once. -/
def winding? (p : Point K) (e : Edge K) : Option Int :=
  if e.start.y ≤ p.y then
    if p.y ≤ e.stop.y then
      match e.turn p with
      | .left => some (if e.stop.y == p.y then 0 else 1)
      | .straight => if Edge.between p.x e.start.x e.stop.x then none else some 0
      | .right => some 0
    else some 0
  else if e.stop.y ≤ p.y then
    match e.turn p with
    | .right => some (-1)
    | .straight => if Edge.between p.x e.start.x e.stop.x then none else some 0
    | .left => some 0
  else some 0

/-- The winding number of a list of edges round a point; `none` on the boundary. -/
def windingOf? (p : Point K) : List (Edge K) → Option Int
  | [] => some 0
  | e :: rest => do
    let n ← winding? p e
    let m ← windingOf? p rest
    return n + m

/-- Where a point lies. -/
def locate (g : Polygon K) (p : Point K) : Place :=
  match g.ring with
  | [] => .outside
  | [q] => if p.same q then .boundary else .outside
  | _ =>
    match windingOf? p g.edges with
    | none => .boundary
    | some 0 => .outside
    | some _ => .inside

/-- Whether a point lies inside and not on the boundary. -/
def contains (g : Polygon K) (p : Point K) : Bool := g.locate p == .inside

/-- Whether a polygon and an edge have a point in common. -/
def meetsEdge (g : Polygon K) (e : Edge K) : Bool :=
  g.edges.any (·.meets e) || g.locate e.start != .outside || g.locate e.stop != .outside

/-- Whether two boxes have no point in common. -/
private def apart (a b : Box K) : Bool :=
  decide (a.maxX < b.minX) || decide (a.maxY < b.minY) || decide (b.maxX < a.minX) ||
    decide (b.maxY < a.minY)

/-- Whether two polygons have a point in common. -/
def meets (a b : Polygon K) : Bool :=
  match a.box?, b.box? with
  | some p, some q => !apart p q && (b.edges.any a.meetsEdge || a.edges.any b.meetsEdge)
  | _, _ => false

/-- The width of the margin by which shapes have to overlap to count as overlapping. -/
def overlapMargin (b : Box K) : K :=
  1e-9 * Coordinate.maximum
    (Coordinate.maximum (Coordinate.abs b.width) (Coordinate.abs b.height)) 1.0

/-- Whether a polygon and a box share interior. Shapes that only touch along an edge or at a corner
do not. -/
def overlaps (g : Polygon K) (b : Box K) : Bool :=
  let margin := overlapMargin b
  if b.width ≤ 2.0 * margin || b.height ≤ 2.0 * margin then false
  else
    match g.box? with
    | none => false
    | some bounds => bounds.intersects b && g.meets (ofBox (b.expand (-margin)))

/-! ## Centroid -/

/-- The determinant of the two ends of an edge, seen from an origin. -/
private def determinant (origin : Point K) (e : Edge K) : K :=
  (e.start.x - origin.x) * (e.stop.y - origin.y) - (e.start.y - origin.y) * (e.stop.x - origin.x)

/-- The signed area of a ring, positive when it runs counter-clockwise. -/
def signedArea (g : Polygon K) : K :=
  match g.ring with
  | p :: _ :: _ :: _ => g.edges.foldl (fun sum e => sum + determinant p e) 0.0 / 2.0
  | _ => 0.0

/-- A sum of positions with their weights. -/
private structure Weighted (K : Type) where
  sum : Point K
  weight : K

private def Weighted.add (a b : Weighted K) : Weighted K :=
  ⟨⟨a.sum.x + b.sum.x, a.sum.y + b.sum.y⟩, a.weight + b.weight⟩

private def Weighted.at (p : Point K) (weight : K) : Weighted K :=
  ⟨⟨p.x * weight, p.y * weight⟩, weight⟩

private def Weighted.sumOf? : List (Weighted K) → Option (Weighted K)
  | [] => none
  | w :: rest => some (rest.foldl Weighted.add w)

private def Weighted.mean (w : Weighted K) : Point K := ⟨w.sum.x / w.weight, w.sum.y / w.weight⟩

/-- The centre of a ring with the given area. -/
private def areaCentroid (g : Polygon K) (origin : Point K) (area : K) : Point K :=
  let sum := g.edges.foldl (fun (acc : Point K) e =>
    let d := determinant origin e
    let x := (e.stop.x - origin.x) + (e.start.x - origin.x)
    let y := (e.stop.y - origin.y) + (e.start.y - origin.y)
    ⟨acc.x + x * d, acc.y + y * d⟩) ⟨0.0, 0.0⟩
  ⟨sum.x / (6.0 * area) + origin.x, sum.y / (6.0 * area) + origin.y⟩

/-- The middle of an edge with its length as weight. -/
private def edgeWeight (e : Edge K) : Weighted K :=
  Weighted.at ⟨(e.start.x + e.stop.x) / 2.0, (e.start.y + e.stop.y) / 2.0⟩
    (Coordinate.hypot (e.stop.x - e.start.x) (e.stop.y - e.start.y))

/-- The centroid of the polygon. -/
def centroid? (g : Polygon K) : Option (Point K) :=
  match g.ring with
  | [] => none
  | p :: rest =>
    let area := g.signedArea
    if area == 0.0 then
      if rest.all p.same then some (Weighted.at p 1.0).mean
      else
        let lengths := (g.edges.filter fun e => !e.start.same e.stop).map edgeWeight
        (Weighted.sumOf? lengths).map Weighted.mean
    else some (Weighted.at (areaCentroid g p area) (Coordinate.abs area)).mean

end Polygon

end Mosaic
