import Mosaic.Catalog.Record

/-!
# Catalogs

A catalog holds the definitions of products by name and the records of datasets by identifier. It
may be offline: then every question and every change fails, and what it holds stays. Taking a record
out is not a question to the catalog and works offline as well.
-/

namespace Mosaic

/-- A catalog held in memory. -/
structure Catalog (K V : Type) where
  products : SortedMap String (Product K V) := ∅
  records : SortedMap DatasetId (DatasetRecord K) := ∅
  isOnline : Bool := true

namespace Catalog

variable {K V : Type}

/-- Lets an answer through while the catalog is online. -/
def whileOnline {α : Type} (c : Catalog K V) (answer : Except CatalogError α) :
    Except CatalogError α :=
  if c.isOnline then answer else .error (.unavailable "in-memory catalog is offline")

/-- The definition of a product. -/
def product (c : Catalog K V) (name : String) : Except CatalogError (Product K V) :=
  c.whileOnline
    (match c.products.find? name with
    | some p => .ok p
    | none => .error (.productNotFound name))

/-- The definitions of all products in the order of their names. -/
def listProducts (c : Catalog K V) : Except CatalogError (List (Product K V)) :=
  c.whileOnline (.ok c.products.values)

/-- Puts a product in, in place of one with the same name. -/
def addProduct (c : Catalog K V) (p : Product K V) : Except CatalogError (Catalog K V) :=
  c.whileOnline (.ok { c with products := c.products.insert p.name p })

/-- Puts a record in, in place of one with the same identifier. -/
def addRecord (c : Catalog K V) (r : DatasetRecord K) : Except CatalogError (Catalog K V) :=
  c.whileOnline (.ok { c with records := c.records.insert r.id r })

/-- Takes a record out. -/
def removeRecord (c : Catalog K V) (id : DatasetId) : Catalog K V :=
  { c with records := c.records.erase id }

def setOnline (c : Catalog K V) (isOnline : Bool) : Catalog K V := { c with isOnline }

variable [Coordinate K]

/-- The records that a query finds, by the beginning of their time, then by identifier. -/
def found (c : Catalog K V) (q : DatasetQuery K) : List (DatasetRecord K) :=
  (c.records.values.filter q.finds).mergeSort fun a b => (a.cmp b).isLE

/-- The answer to a query. -/
def search (c : Catalog K V) (q : DatasetQuery K) : Except CatalogError (List (DatasetRecord K)) :=
  c.whileOnline (.ok (c.found q))

end Catalog

end Mosaic
