import Mosaic.Dataset.Document

/-!
# Catalog records

A catalog keeps the document of every dataset with two columns to search by: the span of time and
the box in longitude and latitude. A record that lacks a column is never left out by it, so the
search of a catalog is coarse; `DatasetQuery.matches` says what it keeps. `index` makes the record of
a document and gives the document an identifier when it has none.
-/

namespace Mosaic

/-- A dataset as a catalog keeps it. -/
structure DatasetRecord (K : Type) where
  id : DatasetId
  product : String
  time : Option TimeSpan
  /-- The box round the footprint in longitude and latitude. -/
  box : Option (Box K)
  metadata : Json

namespace TimeSpan

/-- An end of a span in a document. -/
def endOfTree {T : Type} [DataTree T] (t : T) : Except ReadError Instant :=
  DataTree.named "a timestamp" (fun s => Instant.relaxed? s.toList) t

/-- A span by its ends, which stand as they are. -/
def ofTree {T : Type} [DataTree T] (t : T) : Except ReadError TimeSpan := do
  let fields ← RecordFields.ofTree 2 t
  let first ← fields.required 0 ["begin"] endOfTree
  let last ← fields.required 1 ["end"] endOfTree
  return ⟨first, last⟩

end TimeSpan

/-- A record in a document. -/
def DatasetRecord.ofTree {K : Type} [Coordinate K] (t : Json) :
    Except ReadError (DatasetRecord K) := do
  let fields ← RecordFields.ofTree 5 t
  let id ← fields.required 0 ["id"] DatasetId.ofTree
  let product ← fields.required 1 ["product"] DataTree.text
  let time ← fields.optional 2 ["time"] TimeSpan.ofTree
  let box ← fields.optional 3 ["bbox"] Box.ofTree
  let metadata ← fields.required 4 ["metadata"] pure
  return { id, product, time, box, metadata }

/-- What a catalog is asked for. -/
structure DatasetQuery (K : Type) where
  product : String
  timeRange : Option TimeRange := none
  /-- A box in longitude and latitude. -/
  box : Option (Box K) := none

namespace DatasetQuery

variable {K : Type} [Coordinate K]

/-- Whether two boxes have no point in common, edges included. -/
def apart (wanted box : Box K) : Bool :=
  decide (box.maxX < wanted.minX) || decide (wanted.maxX < box.minX) ||
    decide (box.maxY < wanted.minY) || decide (wanted.maxY < box.minY)

/-- Whether the time of a record may overlap the range asked for. -/
def timeMatches (q : DatasetQuery K) (r : DatasetRecord K) : Bool :=
  match q.timeRange, r.time with
  | some range, some span => range.overlaps span
  | _, _ => true

/-- Whether the box of a record may overlap the box asked for. -/
def boxMatches (q : DatasetQuery K) (r : DatasetRecord K) : Bool :=
  match q.box, r.box with
  | some wanted, some box => !apart wanted box
  | _, _ => true

/-- Whether a catalog finds a record. -/
def finds (q : DatasetQuery K) (r : DatasetRecord K) : Bool :=
  r.product == q.product && q.timeMatches r && q.boxMatches r

end DatasetQuery

namespace DatasetRecord

variable {K : Type}

/-- Compares optional values, absent ones first. -/
def compareOption {α : Type} [Ord α] : Option α → Option α → Ordering
  | none, none => .eq
  | none, some _ => .lt
  | some _, none => .gt
  | some a, some b => compare a b

/-- The order of search results: by the beginning of the time span, then by identifier. -/
def cmp (a b : DatasetRecord K) : Ordering :=
  (compareOption (a.time.map TimeSpan.first) (b.time.map TimeSpan.first)).then (compare a.id b.id)

/-- The identifier in a document. -/
def idOf? (doc : Json) : Option DatasetId := do
  DatasetId.parse? (← (← doc.get? "id").string?)

/-- The document with its identifier set. -/
def withId (id : DatasetId) : Json → Json
  | .object members => .object (Json.setMember "id" (.string id.text) members)
  | doc => doc

variable [Coordinate K] [Reprojection K]

/-- The dataset that the record describes. -/
def dataset (r : DatasetRecord K) : Except (Stop LoadError) (Dataset K) :=
  Dataset.ofDocument r.id r.product r.metadata

/-- The number of points put on every edge of a footprint to find its box. -/
def boxPoints : Nat := 20

/-- The record of a document of a product. A document without an identifier gets the fresh one. -/
def index (fresh : DatasetId) (product : String) (doc : Json) :
    Except (Stop LoadError) (DatasetRecord K) := do
  let id := (idOf? doc).getD fresh
  let metadata := withId id doc
  let dataset : Dataset K ← Dataset.ofDocument id product metadata
  if dataset.product ≠ product then
    throw (.failed (.invalidMetadata
      s!"document belongs to product '{dataset.product}', not '{product}'"))
  let box ← Stop.liftAbort (dataset.geographicBox? boxPoints)
  return { id, product, time := some dataset.time, box, metadata }

end DatasetRecord

end Mosaic
