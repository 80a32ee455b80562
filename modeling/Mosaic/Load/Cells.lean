import Mosaic.Dataset.Basic

/-!
# Which datasets go into which cell

A cell of a load is a time slice and a tile. A dataset belongs to the time slice of its group key
and to every tile that the extent needs and whose pixels, border included, show ground of its
footprint. The datasets of a cell are stacked by the centre of their time and then by identifier;
where they overlap, the later one in the stack has priority.
-/

namespace Mosaic

/-- Which of two datasets of a stack comes first. -/
inductive DatasetOrdering
  /-- Oldest first. -/
  | timeAscending
  /-- Newest first. -/
  | timeDescending
  deriving DecidableEq, Repr, Inhabited

namespace DatasetOrdering

def all : List DatasetOrdering := [timeAscending, timeDescending]

def name : DatasetOrdering → String
  | timeAscending => "time_ascending"
  | timeDescending => "time_descending"

/-- The ordering with exactly this name. -/
def ofName? (s : String) : Option DatasetOrdering := all.find? (·.name == s)

/-- Reads an ordering in either case with blanks around it, second names included. -/
def parse (s : String) : Except RequestError DatasetOrdering :=
  match Text.lower (Text.trim s) with
  | "time_ascending" | "ascending" | "asc" => .ok timeAscending
  | "time_descending" | "descending" | "desc" => .ok timeDescending
  | word => .error (.configuration s!"unknown dataset ordering '{word}'")

/-- The order of two instants, or the opposite one. -/
def compareTimes : DatasetOrdering → Instant → Instant → Ordering
  | timeAscending, a, b => compare a b
  | timeDescending, a, b => compare b a

/-- The order of two datasets of a stack. -/
def compareDatasets {K : Type} (ordering : DatasetOrdering) (a b : Dataset K) : Ordering :=
  (ordering.compareTimes a.time.middle b.time.middle).then (compare a.id b.id)

/-- The stack of a list of datasets. -/
def stack {K : Type} (ordering : DatasetOrdering) (datasets : List (Dataset K)) :
    List (Dataset K) :=
  datasets.mergeSort fun a b => (ordering.compareDatasets a b).isLE

end DatasetOrdering

/-- A cell of a load. -/
structure TileKey where
  time : Instant
  tile : TileIndex
  deriving DecidableEq, Repr

namespace TileKey

/-- Cells compare by time, then by tile. -/
def cmp (a b : TileKey) : Ordering := (compare a.time b.time).then (compare a.tile b.tile)

instance : Ord TileKey := ⟨cmp⟩

def text (k : TileKey) : String := s!"{k.time.rfc3339} {k.tile.text}"

end TileKey

/-- The stack of every cell. -/
abbrev Cells (K : Type) := SortedMap TileKey (List (Dataset K))

namespace Cells

variable {K : Type} [Coordinate K] [Reprojection K]

/-- The ground that the pixels of the tiles of an extent cover. -/
def bounds? (grid : Grid K) (extent : Box K) : Option (Box K) :=
  match (grid.tilesForExtent extent).map grid.paddedExtentOf with
  | [] => none
  | b :: rest => some (rest.foldl Box.union b)

/-- Where the tiles of a footprint are looked for. A tile with a border reaches beyond its own ground,
so the box round the footprint is widened by the border. -/
def searchBox? (grid : Grid K) (bounds : Box K) (footprint : Polygon K) : Option (Box K) := do
  let box ← footprint.box?
  (box.pad grid.margin.x grid.margin.y).intersection? bounds

/-- The tiles of an extent whose pixels show ground of a footprint. -/
def tilesOf (grid : Grid K) (extent search : Box K) (footprint : Polygon K) : List TileIndex :=
  (grid.tilesForExtent search).filter fun t =>
    grid.extentNeeds extent t && footprint.overlaps (grid.paddedExtentOf t)

/-- Puts a dataset into its cells. -/
def addDataset (grid : Grid K) (extent bounds : Box K) (grouping : TimeGrouping) (count : Nat)
    (cells : Cells K) (d : Dataset K) : Except Abort (Cells K) := do
  match ← Stop.attempt (d.footprintIn grid.crs count) with
  | .error _ => return cells
  | .ok footprint =>
    match searchBox? grid bounds footprint with
    | none => return cells
    | some search =>
      let time ← d.groupKey grouping
      return (tilesOf grid extent search footprint).foldl
        (fun cells tile => cells.push ⟨time, tile⟩ d) cells

/-- The cells of a list of datasets. -/
def resolve (datasets : List (Dataset K)) (grid : Grid K) (extent : Box K)
    (grouping : TimeGrouping) (ordering : DatasetOrdering) (count : Nat) :
    Except Abort (Cells K) :=
  match bounds? grid extent with
  | none => .ok ∅
  | some bounds => do
    let cells ← datasets.foldlM (addDataset grid extent bounds grouping count) (∅ : Cells K)
    return cells.mapValues ordering.stack

end Cells

end Mosaic
