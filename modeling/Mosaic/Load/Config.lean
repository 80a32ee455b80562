import Mosaic.Document
import Mosaic.Load.Cells

/-!
# Configuration of a loader

What a load does where its request says nothing. The environment sets single fields; a value that
cannot be read leaves the default.
-/

namespace Mosaic

-- Powers of whole numbers are the built-in ones, whatever is imported with this module.
attribute [local instance (high)] instPowNat

structure LoaderConfig where
  /-- How many tiles may be loaded at a time. -/
  concurrency : Nat := 4
  timeGrouping : TimeGrouping := .exact
  /-- The number of points put on every edge that changes its reference system. -/
  densifyPoints : Nat := 20
  ordering : DatasetOrdering := .timeAscending
  /-- The number of pixels along the side of a tile of no other size. -/
  defaultTilePixels : Nat := 256
  deriving DecidableEq, Repr

namespace LoaderConfig

/-- A whole number in an environment variable. -/
private def countOf? (s : String) : Option Nat := parseNat? (2 ^ (64 : Nat)) s

/-- The configuration that the variables of an environment ask for. -/
def ofEnvironment (get? : String → Option String) : LoaderConfig :=
  let base : LoaderConfig := {}
  let read {α : Type} (name : String) (parse? : String → Option α) (default : α) : α :=
    ((get? name).bind parse?).getD default
  { concurrency := read "CUBE_LOAD_CONCURRENCY" countOf? base.concurrency
    timeGrouping :=
      read "CUBE_TIME_GROUPING" (fun s => (TimeGrouping.parse s).toOption) base.timeGrouping
    densifyPoints := read "CUBE_DENSIFY_POINTS" countOf? base.densifyPoints
    ordering :=
      read "CUBE_DEFAULT_ORDERING" (fun s => (DatasetOrdering.parse s).toOption) base.ordering
    defaultTilePixels := read "CUBE_DEFAULT_TILE_PIXELS" countOf? base.defaultTilePixels }

/-- What is wrong with a configuration, if anything. -/
def flaw? (c : LoaderConfig) : Option String :=
  if c.concurrency = 0 then some "concurrency must be > 0"
  else if c.defaultTilePixels = 0 then some "default_tile_pixels must be > 0"
  else none

def toJson (c : LoaderConfig) : Json :=
  .object [("concurrency", .int c.concurrency), ("time_grouping", .string c.timeGrouping.name),
    ("densify_points", .int c.densifyPoints), ("ordering", .string c.ordering.name),
    ("default_tile_pixels", .int c.defaultTilePixels)]

end LoaderConfig

end Mosaic
