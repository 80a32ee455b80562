import Mosaic.Document
import Mosaic.Product.Basic

/-!
# Products in documents

How grids, measurements and products are read from documents and written to JSON. A nodata value may
be a number or a text, since JSON has no number that is not a number: that one is written `"nan"`.
-/

namespace Mosaic

-- Powers of whole numbers are the built-in ones, whatever is imported with this module.
attribute [local instance (high)] instPowNat

variable {T K V : Type} [DataTree T] [Coordinate K] [Sample V K]

namespace Crs

/-- A reference system by its name. -/
def ofTree (t : T) : Except ReadError Crs := do
  match parse (← DataTree.text t) with
  | .ok crs => return crs
  | .error e => throw (.refused e.message)

end Crs

namespace Point

/-- Two numbers in a list. -/
def ofTree (t : T) : Except ReadError (Point K) := do
  let (x, y) ← DataTree.pair DataTree.real t
  return ⟨Coordinate.ofFloat x, Coordinate.ofFloat y⟩

def toJson (p : Point K) : Json := .array [Coordinate.toJson p.x, Coordinate.toJson p.y]

end Point

namespace Box

def toJson (b : Box K) : Json :=
  .object [("min_x", Coordinate.toJson b.minX), ("min_y", Coordinate.toJson b.minY),
    ("max_x", Coordinate.toJson b.maxX), ("max_y", Coordinate.toJson b.maxY)]

/-- A box by its four coordinates. -/
def ofTree (t : T) : Except ReadError (Box K) := do
  let fields ← RecordFields.ofTree 4 t
  let minX ← fields.required 0 ["min_x"] DataTree.real
  let minY ← fields.required 1 ["min_y"] DataTree.real
  let maxX ← fields.required 2 ["max_x"] DataTree.real
  let maxY ← fields.required 3 ["max_y"] DataTree.real
  return ⟨Coordinate.ofFloat minX, Coordinate.ofFloat minY, Coordinate.ofFloat maxX,
    Coordinate.ofFloat maxY⟩

end Box

namespace Grid

/-- A grid as it stands, without a check. -/
def ofTree (t : T) : Except ReadError (Grid K) := do
  let fields ← RecordFields.ofTree 5 t
  let crs ← fields.required 0 ["crs"] Crs.ofTree
  let resolution ← fields.required 1 ["resolution"] Point.ofTree
  let tileSize ← fields.required 2 ["tile_size"] Point.ofTree
  let origin ← fields.orElse 3 ["origin"] ⟨0.0, 0.0⟩ Point.ofTree
  let padding ← fields.orElse 4 ["padding"] 0 (DataTree.natural (2 ^ (32 : Nat)))
  return ⟨crs, resolution, tileSize, origin, padding⟩

def toJson (g : Grid K) : Json :=
  .object [("crs", .string g.crs.name), ("resolution", g.resolution.toJson),
    ("tile_size", g.tileSize.toJson), ("origin", g.origin.toJson), ("padding", .int g.padding)]

end Grid

namespace DataType

def ofTree (t : T) : Except ReadError DataType := DataTree.oneOf "a sample type" ofName? t

end DataType

namespace Resampling

def ofTree (t : T) : Except ReadError Resampling := DataTree.oneOf "a resampling method" ofName? t

end Resampling

namespace Fusion

def ofTree (t : T) : Except ReadError Fusion := DataTree.oneOf "a fusion policy" ofName? t

end Fusion

namespace Measurement

/-- A nodata value: a number, or a text that names one. -/
def nodataOfTree (t : T) : Except ReadError V :=
  match DataTree.numberOrText? t with
  | some (.inl x) => .ok (Sample.ofFloat x)
  | some (.inr s) =>
    match Text.lower (Text.trim s) with
    | "nan" | ".nan" => .ok Sample.nan
    | word =>
      match NumberText.parse? word with
      | some n => .ok (Sample.ofText n)
      | none => .error (.refused s!"invalid nodata value '{s}'")
  | none => .error (.unexpected "a number or a text")

def ofTree (t : T) : Except ReadError (Measurement V) := do
  let fields ← RecordFields.ofTree 7 t
  let name ← fields.required 0 ["name"] DataTree.text
  let dtype ← fields.required 1 ["dtype"] DataType.ofTree
  let nodata ← fields.required 2 ["nodata"] nodataOfTree
  let units ← fields.orElse 3 ["units"] "" DataTree.text
  let resampling ← fields.orElse 4 ["resampling", "resampling_method"] .nearest Resampling.ofTree
  let sourceName ← fields.optional 5 ["src_varname", "varname"] DataTree.text
  let aliases ← fields.orElse 6 ["aliases"] [] (DataTree.list DataTree.text)
  return { name, dtype, nodata, units, resampling, sourceName, aliases }

def nodataToJson (nodata : V) : Json :=
  if Sample.isNaN nodata then .string "nan" else Sample.toJson nodata

/-- A text that may be absent. -/
def optionalText (s : Option String) : Json := (s.map Json.string).getD .null

def toJson (m : Measurement V) : Json :=
  .object [("name", .string m.name), ("dtype", .string m.dtype.name),
    ("nodata", nodataToJson m.nodata), ("units", .string m.units),
    ("resampling", .string m.resampling.name), ("src_varname", optionalText m.sourceName),
    ("aliases", Json.ofStrings m.aliases)]

end Measurement

namespace StorageLayout

/-- Chunk sizes by dimension. -/
def chunkingOfTree (t : T) : Except ReadError (SortedMap String Nat) :=
  DataTree.map (DataTree.natural (2 ^ (64 : Nat))) t

def ofTree (t : T) : Except ReadError StorageLayout := do
  let fields ← RecordFields.ofTree 2 t
  let chunking ← fields.orElse 0 ["chunking"] ∅ chunkingOfTree
  let dimensionOrder ← fields.orElse 1 ["dimension_order"] defaultOrder (DataTree.list DataTree.text)
  return ⟨chunking, dimensionOrder⟩

def chunkingToJson (chunking : SortedMap String Nat) : Json :=
  .object (chunking.entries.map fun c => (c.1, .int c.2))

def toJson (s : StorageLayout) : Json :=
  .object [("chunking", chunkingToJson s.chunking),
    ("dimension_order", Json.ofStrings s.dimensionOrder)]

end StorageLayout

namespace Product

/-- A product as it stands, without a check. -/
def ofTree (t : T) : Except ReadError (Product K V) := do
  let fields ← RecordFields.ofTree 6 t
  let name ← fields.required 0 ["name"] DataTree.text
  let description ← fields.orElse 1 ["description"] "" DataTree.text
  let measurements ← fields.required 2 ["measurements"] (DataTree.list Measurement.ofTree)
  let fusion ← fields.orElse 3 ["fusion"] .overwrite Fusion.ofTree
  let grid ← fields.optional 4 ["grid"] Grid.ofTree
  let storage ← fields.optional 5 ["storage"] StorageLayout.ofTree
  return { name, description, measurements, fusion, grid, storage }

def toJson (p : Product K V) : Json :=
  .object [("name", .string p.name), ("description", .string p.description),
    ("measurements", .array (p.measurements.map Measurement.toJson)),
    ("fusion", .string p.fusion.name), ("grid", (p.grid.map Grid.toJson).getD .null),
    ("storage", (p.storage.map StorageLayout.toJson).getD .null)]

end Product

end Mosaic
