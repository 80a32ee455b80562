import Mosaic.Grid
import Mosaic.Product.DataType
import Mosaic.Product.Policy
import Mosaic.SortedMap
import Mosaic.Text.Quoted

/-!
# Products

A product is a named collection of measurements that share a default grid and a fusion policy. A
measurement goes by its name and its aliases; a dataset may also file it under the name of the
variable it comes from. `validate` makes sure that no name is used twice and that every nodata value
fits its type, so that a name means one measurement.
-/

namespace Mosaic

/-- One band of a product. -/
structure Measurement (V : Type) where
  name : String
  dtype : DataType
  nodata : V
  units : String := ""
  resampling : Resampling := .nearest
  /-- The name of the variable in the source files, where it differs. -/
  sourceName : Option String := none
  aliases : List String := []

namespace Measurement

variable {V : Type}

/-- The names by which a request may ask for the measurement. -/
def names (m : Measurement V) : List String := m.name :: m.aliases

/-- Whether a name refers to the measurement. -/
def answersTo (m : Measurement V) (name : String) : Bool := m.name == name || m.aliases.contains name

/-- The names under which a dataset may file the measurement, the first ones first. -/
def sourceNames (m : Measurement V) : List String := m.name :: m.sourceName.toList ++ m.aliases

end Measurement

/-- Whether a sample holds no data: it is not a number or equals the nodata value. -/
def isNodata {V K : Type} [Sample V K] (nodata value : V) : Bool :=
  Sample.isNaN value || value == nodata

/-- How the storage of a product is cut into chunks. -/
structure StorageLayout where
  /-- The chunk size of each dimension. -/
  chunking : SortedMap String Nat
  dimensionOrder : List String
  deriving DecidableEq, Repr

namespace StorageLayout

def defaultOrder : List String := ["time", "y", "x"]

/-- Whether a chunk size belongs to a dimension and is not zero. -/
def checkChunk (order : List String) (chunk : String × Nat) : Except RequestError Unit :=
  if !order.contains chunk.1 then
    .error (.configuration s!"chunking names unknown dimension '{chunk.1}'")
  else if chunk.2 = 0 then
    .error (.configuration s!"chunk size for '{chunk.1}' must be > 0")
  else .ok ()

/-- Accepts a layout that orders the three dimensions and cuts no others. -/
def validate (s : StorageLayout) : Except RequestError Unit :=
  if s.dimensionOrder.mergeSort (fun a b => a ≤ b) ≠ ["time", "x", "y"] then
    .error (.configuration
      s!"dimension_order must name time, y and x once each, got {Text.quotedList s.dimensionOrder}")
  else s.chunking.entries.forM (checkChunk s.dimensionOrder)

end StorageLayout

/-- A named collection of measurements. -/
structure Product (K V : Type) where
  name : String
  description : String := ""
  measurements : List (Measurement V)
  fusion : Fusion := .overwrite
  /-- The grid of a load that names none. -/
  grid : Option (Grid K) := none
  storage : Option StorageLayout := none

namespace Product

variable {K V : Type} [Coordinate K] [Sample V K]

/-- Adds the names of a measurement to those already in use. -/
def addNames (product : String) (seen : List String) :
    List String → Except RequestError (List String)
  | [] => .ok seen
  | name :: rest =>
    if seen.contains name then
      .error (.configuration s!"product '{product}' uses measurement name '{name}' twice")
    else addNames product (name :: seen) rest

/-- Accepts measurements whose names are not in use and differ, and whose nodata values fit. -/
def checkMeasurements (product : String) (seen : List String) :
    List (Measurement V) → Except RequestError Unit
  | [] => .ok ()
  | m :: rest => do
    let seen ← addNames product seen m.names
    if !m.dtype.canRepresent m.nodata then
      throw (.configuration
        s!"nodata {Sample.plain m.nodata} of measurement '{m.name}' does not fit {m.dtype.name}")
    checkMeasurements product seen rest

/-- Accepts a product whose name, measurements, grid and storage are sound. -/
def validate (p : Product K V) : Except RequestError Unit := do
  if (Text.trim p.name).isEmpty then
    throw (.configuration "product name must not be empty")
  if p.measurements.isEmpty then
    throw (.configuration s!"product '{p.name}' declares no measurements")
  checkMeasurements p.name [] p.measurements
  p.grid.forM Grid.validate
  p.storage.forM StorageLayout.validate

omit [Coordinate K] [Sample V K] in
/-- The measurement that a name refers to. -/
def measurement? (p : Product K V) (name : String) : Option (Measurement V) :=
  p.measurements.find? (·.answersTo name)

omit [Coordinate K] [Sample V K] in
/-- The measurement that a name refers to, or the error that names it. -/
def measurement (p : Product K V) (name : String) : Except RequestError (Measurement V) :=
  match p.measurement? name with
  | some m => .ok m
  | none => .error (.unknownMeasurement p.name name)

omit [Coordinate K] [Sample V K] in
/-- The measurements that names refer to, in the order of the names; all without names. -/
def select (p : Product K V) : Option (List String) → Except RequestError (List (Measurement V))
  | none => .ok p.measurements
  | some names => names.mapM p.measurement

end Product

end Mosaic
