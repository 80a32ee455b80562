import Mosaic.Dataset.Basic
import Mosaic.Product.Document

/-!
# Dataset documents

The document that describes a dataset. Every field is optional for the reader and most are not for
a dataset, so a document is read first (`DatasetDocument.ofTree`) and made into a dataset then
(`Dataset.ofDocument`). The first missing or unsound field names the error: time, reference system,
affine map, shape, measurements, footprint. A document without a footprint has the outline of its
raster for one.
-/

namespace Mosaic

-- Powers of whole numbers are the built-in ones, whatever is imported with this module.
attribute [local instance (high)] instPowNat

/-- When a dataset was taken, as its document says it. -/
inductive DocumentTime
  | instant (text : String)
  | interval (first last : String)
  deriving DecidableEq, Repr

/-- What a dataset document says. -/
structure DatasetDocument where
  id : Option DatasetId
  product : Option String
  time : Option DocumentTime
  crs : Option String
  footprint : Option (List (Point Float))
  geotransform : Option (GeoTransform Float)
  shape : Option PixelShape
  measurements : SortedMap String SourceLocator

variable {T : Type} [DataTree T]

namespace DatasetId

def ofTree (t : T) : Except ReadError DatasetId := DataTree.named "an identifier" parse? t

end DatasetId

namespace SourceLocator

def ofTree (t : T) : Except ReadError SourceLocator := do
  let fields ← RecordFields.ofTree 2 t
  let path ← fields.required 0 ["path"] DataTree.text
  let variableName ← fields.optional 1 ["variable"] DataTree.text
  return { path, variableName }

end SourceLocator

namespace DocumentTime

/-- An instant as a text, or a record with a beginning and an end. -/
def ofTree (t : T) : Except ReadError DocumentTime := do
  match DataTree.text? t, DataTree.record? t with
  | some s, _ => return instant s
  | none, some (.named members) =>
    let fields := RecordFields.named members
    let first ← fields.required 0 ["begin"] DataTree.text
    let last ← fields.required 1 ["end"] DataTree.text
    return interval first last
  | none, _ => throw (.unexpected "a time or an interval")

/-- The span that the texts name. -/
def span : DocumentTime → Except RequestError TimeSpan
  | instant s => do return TimeSpan.instant (← Instant.parse s)
  | interval first last => do return TimeSpan.between (← Instant.parse first) (← Instant.parse last)

end DocumentTime

namespace GeoTransform

/-- The six coefficients of an affine map in a list. -/
def ofTree (t : T) : Except ReadError (GeoTransform Float) := do
  match ← DataTree.list DataTree.real t with
  | [x0, dx, rx, y0, ry, dy] => return ⟨x0, dx, rx, y0, ry, dy⟩
  | _ => throw (.wrongLength 6)

/-- The coefficients as coordinates. -/
def ofFloats {K : Type} [Coordinate K] (t : GeoTransform Float) : GeoTransform K :=
  let c : Float → K := Coordinate.ofFloat
  ⟨c t.x0, c t.dx, c t.rx, c t.y0, c t.ry, c t.dy⟩

end GeoTransform

namespace PixelShape

/-- A height and a width in a list. -/
def ofTree (t : T) : Except ReadError PixelShape := do
  let (height, width) ← DataTree.pair (DataTree.natural (2 ^ (64 : Nat))) t
  return ⟨height, width⟩

end PixelShape

namespace DatasetDocument

def ofTree (t : T) : Except ReadError DatasetDocument := do
  let fields ← RecordFields.ofTree 8 t
  let id ← fields.optional 0 ["id"] DatasetId.ofTree
  let product ← fields.optional 1 ["product"] DataTree.text
  let time ← fields.optionalNamed 2 ["time"] DocumentTime.ofTree
  let crs ← fields.optionalNamed 3 ["crs"] DataTree.text
  let footprint ← fields.optional 4 ["footprint"] (DataTree.list Point.ofTree)
  let geotransform ← fields.optionalNamed 5 ["geotransform"] GeoTransform.ofTree
  let shape ← fields.optionalNamed 6 ["shape"] PixelShape.ofTree
  let measurements ← fields.orElse 7 ["measurements"] ∅ (DataTree.map SourceLocator.ofTree)
  return { id, product, time, crs, footprint, geotransform, shape, measurements }

variable {K : Type} [Coordinate K]

/-- A field that a dataset cannot do without. -/
def require {α : Type} (name : String) : Option α → Except LoadError α
  | some a => .ok a
  | none => .error (.invalidMetadata s!"missing {name}")

def span (doc : DatasetDocument) : Except LoadError TimeSpan := do
  (← require "time" doc.time).span.mapError LoadError.ofRequest

def referenceSystem (doc : DatasetDocument) : Except LoadError Crs := do
  (Crs.parse (← require "crs" doc.crs)).mapError LoadError.ofRequest

def affine (doc : DatasetDocument) : Except LoadError (Affine K) := do
  (Affine.ofGeoTransform (← require "geotransform" doc.geotransform).ofFloats).mapError
    LoadError.ofProjection

def pixelShape (doc : DatasetDocument) : Except LoadError PixelShape := do
  let shape ← require "shape" doc.shape
  if shape.height = 0 ∨ shape.width = 0 then throw (.invalidMetadata "shape must be non-empty")
  return shape

/-- The corners that the document names, or else those of the raster. -/
def outline (doc : DatasetDocument) (affine : Affine K) (shape : PixelShape) : List (Point K) :=
  match doc.footprint with
  | some points => points.map fun p => ⟨Coordinate.ofFloat p.x, Coordinate.ofFloat p.y⟩
  | none => affine.outline shape.height shape.width

/-- The footprint with the given corners. -/
def footprintOf (ring : List (Point K)) : Except LoadError (Polygon K) :=
  match Polygon.ofFinite? ring with
  | some g => .ok g
  | none => .error (.invalidMetadata "footprint needs at least 3 finite points")

end DatasetDocument

namespace Dataset

variable {K : Type} [Coordinate K] [Reprojection K]

/-- The longitude of the centroid of a footprint. -/
def longitudeOf (footprint : Polygon K) (crs : Crs) : Except (Stop LoadError) K := do
  let missing : Stop LoadError := .failed (.invalidMetadata "footprint has no centroid")
  match footprint.centroid? with
  | none => throw missing
  | some c =>
    let p ← Stop.liftAbort ((Transformer.mk crs .wgs84).apply c)
    if Coordinate.isFinite p.x then return p.x else throw missing

/-- The dataset of a document that has been read. -/
def ofFields (id : DatasetId) (product : String) (doc : DatasetDocument) :
    Except (Stop LoadError) (Dataset K) := do
  let time ← Stop.liftError doc.span
  let crs ← Stop.liftError doc.referenceSystem
  let transform ← Stop.liftError doc.affine
  let shape ← Stop.liftError doc.pixelShape
  if doc.measurements.isEmpty then throw (.failed (.invalidMetadata "no measurements"))
  let footprint ← Stop.liftError (DatasetDocument.footprintOf (doc.outline transform shape))
  let centroidLongitude ← longitudeOf footprint crs
  return {
    id := doc.id.getD id
    product := doc.product.getD product
    time, crs, footprint, transform, shape
    sources := doc.measurements
    centroidLongitude }

/-- The dataset of a document. The identifier and the product count where the document names none. -/
def ofDocument (id : DatasetId) (product : String) (doc : Json) :
    Except (Stop LoadError) (Dataset K) :=
  match DatasetDocument.ofTree doc with
  | .ok fields => ofFields id product fields
  | .error e => .error (.failed (.invalidMetadata e.message))

end Dataset

end Mosaic
