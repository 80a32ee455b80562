/-!
# Errors

Each layer has its own errors: those of a request and of the definitions it names, those of the
catalog, those of a projection and those of a load. A lower layer's error turns into one of the
layer above without losing its text. Callers see the kind of an error, whether the load can go on
without the dataset concerned, and the message.
-/

namespace Mosaic

/-- What is wrong with a request, or with the grid, the product or the time it names. -/
inductive RequestError
  | configuration (text : String)
  | invalidCrs (text : String)
  | invalidGrid (text : String)
  | invalidTime (text : String)
  | productNotFound (name : String)
  | unknownMeasurement (product measurement : String)
  | catalogUnavailable (text : String)
  | sourceRead (dataset text : String)
  deriving DecidableEq, Repr

namespace RequestError

/-- The kind reported to callers. -/
def kind : RequestError → String
  | catalogUnavailable _ => "CatalogUnavailableError"
  | sourceRead .. => "SourceReadError"
  | _ => "ConfigurationError"

/-- Whether a query can go on without the dataset concerned. -/
def isRecoverable : RequestError → Bool
  | sourceRead .. => true
  | _ => false

def message : RequestError → String
  | configuration text => s!"Configuration error: {text}"
  | invalidCrs text => s!"Invalid CRS: {text}"
  | invalidGrid text => s!"Invalid grid: {text}"
  | invalidTime text => s!"Invalid time specification: {text}"
  | productNotFound name => s!"Product not found: {name}"
  | unknownMeasurement product measurement =>
    s!"Unknown measurement '{measurement}' for product '{product}'"
  | catalogUnavailable text => s!"Catalog unavailable: {text}"
  | sourceRead dataset text => s!"Failed to read source for dataset {dataset}: {text}"

/-- A JSON document that cannot be read as what it should be. -/
def ofJsonText (text : String) : RequestError := configuration s!"JSON error: {text}"

/-- A YAML document that cannot be read as what it should be. -/
def ofYamlText (text : String) : RequestError := configuration s!"YAML error: {text}"

end RequestError

/-- What a catalog can fail with. -/
inductive CatalogError
  | unavailable (text : String)
  | invalidRecord (text : String)
  | productNotFound (name : String)
  deriving DecidableEq, Repr

namespace CatalogError

def message : CatalogError → String
  | unavailable text => s!"Catalog unavailable: {text}"
  | invalidRecord text => s!"Invalid catalog record: {text}"
  | productNotFound name => s!"Product not found: {name}"

/-- The error that a request made of the catalog fails with. -/
def toRequestError : CatalogError → RequestError
  | unavailable text => .catalogUnavailable text
  | invalidRecord text => .configuration text
  | productNotFound name => .productNotFound name

end CatalogError

/-- What a change of coordinates can fail with. -/
inductive ProjectionError
  /-- An affine map with the given coefficients has no inverse. -/
  | notInvertible (coefficients : List String)
  /-- Nothing of a shape is left in the coordinate reference system with the given name. -/
  | outOfDomain (crs : String)
  deriving DecidableEq, Repr

namespace ProjectionError

def message : ProjectionError → String
  | notInvertible coefficients =>
    "geotransform is not invertible: [" ++ ", ".intercalate coefficients ++ "]"
  | outOfDomain crs => s!"no finite coordinates after transforming to {crs}"

end ProjectionError

/-- What planning or running a load can fail with. -/
inductive LoadError
  | configuration (text : String)
  | catalogUnavailable (text : String)
  | sourceRead (dataset text : String)
  | missingMeasurement (dataset measurement : String)
  | openFailed (text : String)
  | readFailed (text : String)
  | invalidMetadata (text : String)
  | zarr (text : String)
  | projection (text : String)
  | task (text : String)
  deriving DecidableEq, Repr

namespace LoadError

/-- The kind reported to callers. -/
def kind : LoadError → String
  | configuration _ | invalidMetadata _ => "ConfigurationError"
  | catalogUnavailable _ => "CatalogUnavailableError"
  | task _ => "TaskError"
  | _ => "SourceReadError"

/-- Whether the load can go on without the dataset concerned. -/
def isRecoverable : LoadError → Bool
  | sourceRead .. | missingMeasurement .. => true
  | _ => false

def message : LoadError → String
  | configuration text => s!"configuration error: {text}"
  | catalogUnavailable text => s!"catalog unavailable: {text}"
  | sourceRead dataset text => s!"failed to read dataset {dataset}: {text}"
  | missingMeasurement dataset measurement =>
    s!"dataset {dataset} has no source for measurement '{measurement}'"
  | openFailed text => s!"failed to open raster: {text}"
  | readFailed text => s!"failed to read raster data: {text}"
  | invalidMetadata text => s!"invalid dataset metadata: {text}"
  | zarr text => s!"Zarr format error: {text}"
  | projection text => s!"projection error: {text}"
  | task text => s!"load task failed: {text}"

/-- The error of a load whose request fails. -/
def ofRequest : RequestError → LoadError
  | .catalogUnavailable text => catalogUnavailable text
  | .sourceRead dataset text => sourceRead dataset text
  | e => configuration e.message

/-- The error of a load whose catalog fails. -/
def ofCatalog (e : CatalogError) : LoadError := ofRequest e.toRequestError

/-- The error of a load in which a change of coordinates fails. -/
def ofProjection (e : ProjectionError) : LoadError := projection e.message

/-- A failure of a raster source, told as a failure to read one dataset. -/
def ofRead (dataset : String) (e : LoadError) : LoadError := sourceRead dataset e.message

end LoadError

end Mosaic
