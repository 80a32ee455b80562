import Mosaic.Error
import Mosaic.Scalar.Machine
import Mosaic.Text.Blank

/-!
# Points and boxes

Positions in a plane and boxes with sides along its axes. A box is given by its least and its
greatest coordinates and need not be valid: `isValid` says whether it is. Boxes that only share an
edge or a corner do not intersect, while a point on an edge is contained.
-/

namespace Mosaic

/-- A position, or a pair of lengths along the two axes. -/
structure Point (K : Type) where
  x : K
  y : K
  deriving DecidableEq, Repr

namespace Point

variable {K : Type} [Coordinate K]

/-- Whether both coordinates are equal as numbers. -/
def same (p q : Point K) : Bool := p.x == q.x && p.y == q.y

def isFinite (p : Point K) : Bool := Coordinate.isFinite p.x && Coordinate.isFinite p.y

end Point

structure Box (K : Type) where
  minX : K
  minY : K
  maxX : K
  maxY : K
  deriving DecidableEq, Repr

namespace Box

variable {K : Type} [Coordinate K]

open Coordinate (minimum maximum)

/-- The smallest box that holds both of two boxes. -/
def union (a b : Box K) : Box K :=
  ⟨minimum a.minX b.minX, minimum a.minY b.minY, maximum a.maxX b.maxX, maximum a.maxY b.maxY⟩

/-- The box without area around a point. -/
def ofPoint (p : Point K) : Box K := ⟨p.x, p.y, p.x, p.y⟩

/-- The box grown so far, grown by one more point. -/
def addPoint : Option (Box K) → Point K → Option (Box K)
  | none, p => some (ofPoint p)
  | some b, p => some (b.union (ofPoint p))

/-- The smallest box that holds all finite points; `none` when there are none. -/
def ofPoints? (points : List (Point K)) : Option (Box K) :=
  (points.filter Point.isFinite).foldl addPoint none

def width (b : Box K) : K := b.maxX - b.minX

def height (b : Box K) : K := b.maxY - b.minY

/-- Whether all four coordinates are finite and in order. -/
def isValid (b : Box K) : Bool :=
  Coordinate.isFinite b.minX && Coordinate.isFinite b.minY && Coordinate.isFinite b.maxX &&
    Coordinate.isFinite b.maxY && decide (b.minX ≤ b.maxX) && decide (b.minY ≤ b.maxY)

/-- Whether two boxes share more than an edge or a corner. -/
def intersects (a b : Box K) : Bool :=
  decide (a.minX < b.maxX) && decide (b.minX < a.maxX) &&
    decide (a.minY < b.maxY) && decide (b.minY < a.maxY)

/-- What two boxes share, if it is more than an edge or a corner. -/
def intersection? (a b : Box K) : Option (Box K) :=
  if a.intersects b then
    some ⟨maximum a.minX b.minX, maximum a.minY b.minY, minimum a.maxX b.maxX, minimum a.maxY b.maxY⟩
  else none

/-- Whether a point lies in the box, edges included. -/
def contains (b : Box K) (p : Point K) : Bool :=
  decide (b.minX ≤ p.x) && decide (p.x ≤ b.maxX) && decide (b.minY ≤ p.y) && decide (p.y ≤ b.maxY)

def center (b : Box K) : Point K := ⟨(b.minX + b.maxX) / 2.0, (b.minY + b.maxY) / 2.0⟩

/-- The box with different margins left and right and below and above. -/
def pad (b : Box K) (dx dy : K) : Box K := ⟨b.minX - dx, b.minY - dy, b.maxX + dx, b.maxY + dy⟩

/-- The box with one margin on all sides; a negative margin makes it smaller. -/
def expand (b : Box K) (margin : K) : Box K := b.pad margin margin

/-- The corners in ring order from the lower left. -/
def corners (b : Box K) : List (Point K) :=
  [⟨b.minX, b.minY⟩, ⟨b.maxX, b.minY⟩, ⟨b.maxX, b.maxY⟩, ⟨b.minX, b.maxY⟩]

end Box

namespace Box

/-- The numbers of the fields of an extent, or the first field that is no number. -/
def parseNumbers : List String → Except RequestError (List Float)
  | [] => .ok []
  | field :: rest => do
    match parseFloat? field with
    | some x => return x :: (← parseNumbers rest)
    | none => throw (.configuration s!"invalid number in extent: {field}")

/-- Reads an extent, `minx,miny,maxx,maxy`. -/
def parse (s : String) : Except RequestError (Box Float) :=
  let fields := Text.commaFields s
  if fields.length ≠ 4 then
    .error (.configuration s!"invalid extent '{s}', expected 'minx,miny,maxx,maxy'")
  else do
    match ← parseNumbers fields with
    | [minX, minY, maxX, maxY] =>
      let b : Box Float := ⟨minX, minY, maxX, maxY⟩
      if b.isValid then return b
      else throw (.configuration s!"extent has min greater than max: {s}")
    | _ => throw (.configuration s!"invalid extent '{s}', expected 'minx,miny,maxx,maxy'")

end Box

end Mosaic
