import Mosaic.Load.Summary
import Mosaic.Load.Tile
import Mosaic.Product.Document

/-!
# Reports

What the commands print, as JSON: a list of products, the measurements of one, the summary of a load,
and the tiles of a load one by one. Pixels without data are null, because JSON has no number that is
not a number.
-/

namespace Mosaic

variable {K V : Type} [Coordinate K] [Sample V K]

/-- One line of the list of products. -/
def Product.listing (p : Product K V) : Json :=
  .object [("name", .string p.name), ("description", .string p.description),
    ("fusion", .string p.fusion.name),
    ("crs", (p.grid.map fun g => Json.string g.crs.name).getD .null),
    ("measurements", Json.ofStrings (p.measurements.map Measurement.name))]

def TileIndex.toJson (t : TileIndex) : Json := .object [("x", .int t.x), ("y", .int t.y)]

def PixelShape.toJson (s : PixelShape) : Json := .array [.int s.height, .int s.width]

def LoadWarning.toJson (w : LoadWarning) : Json :=
  .object [("kind", .string w.kind.name),
    ("dataset", (w.dataset.map fun id => Json.string id.text).getD .null),
    ("message", .string w.message)]

def LoadSummary.toJson (s : LoadSummary K) : Json :=
  .object [("product", .string s.product), ("crs", .string s.crs.name),
    ("resolution", s.resolution.toJson), ("time_grouping", .string s.grouping.name),
    ("measurements", Json.ofStrings s.measurements),
    ("times", Json.ofStrings (s.times.map Instant.zulu)),
    ("tiles", .array (s.tiles.map TileIndex.toJson)), ("tile_shape", s.tileShape.toJson),
    ("shape", .array [.int s.mosaic.1, .int s.mosaic.2.height, .int s.mosaic.2.width]),
    ("bounds", (s.bounds.map Box.toJson).getD .null), ("dataset_count", .int s.datasetCount),
    ("warnings", .array (s.warnings.map LoadWarning.toJson))]

namespace MeasurementArray

/-- A sample with all its digits. -/
def sampleToJson (value : V) : Json := Coordinate.toJson (Sample.widen value)

/-- The pixels, those without data as null. -/
def dataToJson (a : MeasurementArray V) : Json :=
  .array (a.data.toList.map fun v => if isNodata a.nodata v then .null else sampleToJson v)

def toJson (withData : Bool) (a : MeasurementArray V) : Json :=
  let data := if withData then [("data", a.dataToJson)] else []
  .object ([("name", .string a.name), ("dtype", .string a.dtype.name),
    ("nodata", sampleToJson a.nodata), ("valid", .int a.validCount)] ++ data)

end MeasurementArray

/-- The report on a loaded tile, with the pixels if they are asked for. -/
def AssembledTile.toJson (withData : Bool) (t : AssembledTile K V) : Json :=
  .object [("time", .string t.key.time.rfc3339),
    ("tile", .array [.int t.key.tile.x, .int t.key.tile.y]), ("shape", t.shape.toJson),
    ("crs", .string t.crs.name), ("extent", t.extent.toJson),
    ("geotransform", .array (t.geotransform.toList.map Coordinate.toJson)),
    ("datasets", Json.ofStrings (t.datasets.map DatasetId.text)),
    ("measurements", .array (t.measurements.map (MeasurementArray.toJson withData))),
    ("warnings", .array (t.warnings.map LoadWarning.toJson))]

end Mosaic
