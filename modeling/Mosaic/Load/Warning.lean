import Mosaic.Dataset.Id

/-!
# Warnings

What went wrong in a load without ending it: a record that cannot be read, a dataset that was left
out, a measurement that a dataset lacks, or nothing found at all.
-/

namespace Mosaic

inductive WarningKind
  /-- No dataset matches the query. -/
  | emptyResult
  /-- A catalog record does not describe a dataset. -/
  | malformedMetadata
  /-- The pixels of a dataset cannot be read. -/
  | sourceRead
  /-- A dataset has no source for a measurement. -/
  | missingMeasurement
  deriving DecidableEq, Repr

namespace WarningKind

/-- The name in documents. -/
def name : WarningKind → String
  | emptyResult => "empty_result"
  | malformedMetadata => "malformed_metadata"
  | sourceRead => "source_read"
  | missingMeasurement => "missing_measurement"

/-- The name in messages. -/
def title : WarningKind → String
  | emptyResult => "EmptyResult"
  | malformedMetadata => "MalformedMetadata"
  | sourceRead => "SourceReadError"
  | missingMeasurement => "MissingMeasurement"

end WarningKind

/-- A problem that did not end the load, and the dataset concerned. -/
structure LoadWarning where
  kind : WarningKind
  dataset : Option DatasetId
  message : String
  deriving DecidableEq, Repr

namespace LoadWarning

def emptyResult (message : String) : LoadWarning := ⟨.emptyResult, none, message⟩

def malformed (dataset : Option DatasetId) (message : String) : LoadWarning :=
  ⟨.malformedMetadata, dataset, message⟩

def sourceRead (dataset : DatasetId) (message : String) : LoadWarning :=
  ⟨.sourceRead, some dataset, message⟩

def missingMeasurement (dataset : DatasetId) (message : String) : LoadWarning :=
  ⟨.missingMeasurement, some dataset, message⟩

def text (w : LoadWarning) : String :=
  match w.dataset with
  | some id => s!"{w.kind.title} [{id.text}]: {w.message}"
  | none => s!"{w.kind.title}: {w.message}"

end LoadWarning

end Mosaic
