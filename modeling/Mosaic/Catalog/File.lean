import Mosaic.Catalog.Basic
import Mosaic.Ingestion

/-!
# Catalog files

A YAML document of ingestion configurations and dataset documents, loaded into a catalog. Every
configuration has to define a sound product. A dataset document that names no product or cannot be
indexed is left out.
-/

namespace Mosaic

/-- What a catalog file says. -/
structure CatalogFile (K V : Type) where
  products : List (IngestionConfig K V)
  datasets : List Json

/-- Why a catalog file cannot be loaded. -/
inductive CatalogFileError
  /-- The text is not a catalog file. -/
  | unreadable
  /-- A product is not sound. -/
  | invalidProduct (name : String) (cause : RequestError)
  deriving DecidableEq, Repr

namespace CatalogFileError

def message : CatalogFileError → String
  | unreadable => "invalid catalog file"
  | invalidProduct name _ => s!"invalid product '{name}'"

end CatalogFileError

namespace CatalogFile

variable {K V : Type} [Coordinate K] [Sample V K]

/-- A dataset document as JSON. -/
private def documentOf (node : Yaml) : Except ReadError Json :=
  match node.toJson? with
  | some v => .ok v
  | none => .error (.unexpected "a plain document")

def ofYaml (node : Yaml) : Except ReadError (CatalogFile K V) := do
  let fields ← RecordFields.ofTree 2 node
  let products ← fields.orElse 0 ["products"] [] (DataTree.list IngestionConfig.ofTree)
  let datasets ← fields.orElse 1 ["datasets"] [] (DataTree.list documentOf)
  return { products, datasets }

/-- The catalog of a list of products. -/
def addProducts (catalog : Catalog K V) : List (IngestionConfig K V) →
    Except CatalogFileError (Catalog K V)
  | [] => .ok catalog
  | config :: rest => do
    let product ← config.product.mapError (CatalogFileError.invalidProduct config.outputType)
    addProducts { catalog with products := catalog.products.insert product.name product } rest

variable [Reprojection K]

/-- The catalog with a dataset document indexed, or as it was when the document is left out. -/
def addDocument (fresh : DatasetId) (catalog : Catalog K V) (doc : Json) :
    Except Abort (Catalog K V) :=
  match (doc.get? "product").bind Json.string? with
  | none => .ok catalog
  | some product => do
    match ← Stop.attempt (DatasetRecord.index fresh product doc) with
    | .ok record => return { catalog with records := catalog.records.insert record.id record }
    | .error _ => return catalog

/-- Loads a catalog file. Dataset documents without an identifier get a fresh one by their place. -/
def load (fresh : Nat → DatasetId) (text : String) :
    Except (Stop CatalogFileError) (Catalog K V) := do
  let some node := Yaml.parse? text | throw (.failed .unreadable)
  let .ok file := CatalogFile.ofYaml (K := K) (V := V) node | throw (.failed .unreadable)
  let catalog ← Stop.liftError (addProducts {} file.products)
  Stop.liftAbort
    (file.datasets.zipIdx.foldlM (fun c (doc, i) => addDocument (fresh i) c doc) catalog)

end CatalogFile

end Mosaic
