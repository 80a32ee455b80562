import Mosaic.FileTree
import Mosaic.Product.Document
import Mosaic.Yaml.Read

/-!
# Ingestion configurations

The document by which rasters are written as tiles defines a product as well: its storage section
fixes the grid on which the product is read by default. Tile sizes may be written with the sign of
the resolution; the grid takes their size. The product of a configuration is checked before it is
given out.
-/

namespace Mosaic

/-- How the tiles of a product are stored. -/
structure StorageSection (K : Type) where
  crs : String
  tileSize : Point K
  resolution : Point K
  origin : Option (Point K)
  chunking : SortedMap String Nat
  dimensionOrder : Option (List String)
  driver : Option String

/-- What ingestion writes. -/
structure IngestionConfig (K V : Type) where
  outputType : String
  sourceType : Option String
  description : String
  fusion : Fusion
  storage : StorageSection K
  measurements : List (Measurement V)

variable {T K V : Type} [DataTree T] [Coordinate K] [Sample V K]

namespace Point

/-- Two numbers by the names of their axes. -/
def ofAxes (t : T) : Except ReadError (Point K) := do
  let fields ← RecordFields.ofTree 2 t
  let x ← fields.required 0 ["x"] DataTree.real
  let y ← fields.required 1 ["y"] DataTree.real
  return ⟨Coordinate.ofFloat x, Coordinate.ofFloat y⟩

def axesToJson (p : Point K) : Json :=
  .object [("x", Coordinate.toJson p.x), ("y", Coordinate.toJson p.y)]

end Point

namespace StorageSection

def ofTree (t : T) : Except ReadError (StorageSection K) := do
  let fields ← RecordFields.ofTree 7 t
  let crs ← fields.required 0 ["crs"] DataTree.text
  let tileSize ← fields.required 1 ["tile_size"] Point.ofAxes
  let resolution ← fields.required 2 ["resolution"] Point.ofAxes
  let origin ← fields.optional 3 ["origin"] Point.ofAxes
  let chunking ← fields.orElse 4 ["chunking"] ∅ StorageLayout.chunkingOfTree
  let dimensionOrder ← fields.optional 5 ["dimension_order"] (DataTree.list DataTree.text)
  let driver ← fields.optional 6 ["driver"] DataTree.text
  return { crs, tileSize, resolution, origin, chunking, dimensionOrder, driver }

def toJson (s : StorageSection K) : Json :=
  .object [("crs", .string s.crs), ("tile_size", s.tileSize.axesToJson),
    ("resolution", s.resolution.axesToJson), ("origin", (s.origin.map Point.axesToJson).getD .null),
    ("chunking", StorageLayout.chunkingToJson s.chunking),
    ("dimension_order", (s.dimensionOrder.map Json.ofStrings).getD .null),
    ("driver", Measurement.optionalText s.driver)]

/-- The layout of the chunks. -/
def layout (s : StorageSection K) : StorageLayout :=
  ⟨s.chunking, s.dimensionOrder.getD StorageLayout.defaultOrder⟩

end StorageSection

namespace IngestionConfig

/-- A configuration as it stands, without a check. -/
def ofTree (t : T) : Except ReadError (IngestionConfig K V) := do
  let fields ← RecordFields.ofTree 6 t
  let outputType ← fields.required 0 ["output_type", "name"] DataTree.text
  let sourceType ← fields.optional 1 ["source_type"] DataTree.text
  let description ← fields.orElse 2 ["description"] "" DataTree.text
  let fusion ← fields.orElse 3 ["fusion"] .overwrite Fusion.ofTree
  let storage ← fields.required 4 ["storage"] StorageSection.ofTree
  let measurements ← fields.required 5 ["measurements"] (DataTree.list Measurement.ofTree)
  return { outputType, sourceType, description, fusion, storage, measurements }

def toJson (c : IngestionConfig K V) : Json :=
  .object [("output_type", .string c.outputType),
    ("source_type", Measurement.optionalText c.sourceType),
    ("description", .string c.description), ("fusion", .string c.fusion.name),
    ("storage", c.storage.toJson), ("measurements", .array (c.measurements.map Measurement.toJson))]

/-- Reads a configuration from the text of a YAML document. -/
def ofYaml (text : String) : Except RequestError (IngestionConfig K V) :=
  match Yaml.parse? text with
  | none => .error (.ofYamlText "the document cannot be read")
  | some node => (ofTree node).mapError fun e => .ofYamlText e.message

/-- Reads a configuration from what a file gave. -/
def ofFile (path : String) (content : Except FileProblem String) :
    Except RequestError (IngestionConfig K V) :=
  match content with
  | .ok text => ofYaml text
  | .error problem => .error (.configuration s!"failed to read {path}: {problem.message}")

omit [Sample V K] in
/-- The grid that the storage section describes. -/
def grid (c : IngestionConfig K V) : Except RequestError (Grid K) := do
  let s := c.storage
  let crs ← Crs.parse s.crs
  let size : Point K := ⟨Coordinate.abs s.tileSize.x, Coordinate.abs s.tileSize.y⟩
  let grid ← Grid.make crs s.resolution size
  match s.origin with
  | some origin => grid.withOrigin origin
  | none => return grid

/-- The product that the configuration defines. -/
def product (c : IngestionConfig K V) : Except RequestError (Product K V) := do
  let grid ← c.grid
  let product : Product K V := {
    name := c.outputType
    description := c.description
    measurements := c.measurements
    fusion := c.fusion
    grid := some grid
    storage := some c.storage.layout }
  product.validate
  return product

end IngestionConfig

end Mosaic
