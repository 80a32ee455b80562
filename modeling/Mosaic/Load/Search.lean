import Mosaic.Catalog.Basic
import Mosaic.Load.Warning

/-!
# Finding the datasets of a load

The catalog gives the records that may match; each is then read and tested exactly. A dataset
matches when its time overlaps the range and its footprint, carried over to the reference system of
the load, shares interior with the extent. Without an extent every footprint matches that exists
there, and the extent of the result is the box round them all.

A record that cannot be read gives a warning, and so does a search that finds nothing.
-/

namespace Mosaic

/-- The datasets that match and what went wrong while looking for them. -/
structure SearchResult (K : Type) where
  datasets : List (Dataset K) := []
  warnings : List LoadWarning := []
  /-- The extent asked for, or else the box round the footprints. -/
  extent : Option (Box K) := none

/-- What a search makes of one record. -/
inductive Candidate (K : Type)
  /-- The record is not a dataset. -/
  | malformed (warning : LoadWarning)
  /-- The dataset does not match. -/
  | rejected
  /-- The dataset matches and has the given footprint. -/
  | accepted (dataset : Dataset K) (footprint : Polygon K)

namespace Catalog

variable {K : Type} [Coordinate K] [Reprojection K]

/-- Whether a footprint matches the extent, if there is one. -/
def extentMatches (extent : Option (Box K)) (footprint : Polygon K) : Bool :=
  match extent with
  | some box => footprint.overlaps box
  | none => true

/-- Whether the time of a dataset matches the range, if there is one. -/
def rangeMatches (range : Option TimeRange) (d : Dataset K) : Bool :=
  match range with
  | some range => range.overlaps d.time
  | none => true

/-- Reads a record and tests its dataset. -/
def candidate (count : Nat) (range : Option TimeRange) (extent : Option (Box K)) (crs : Crs)
    (r : DatasetRecord K) : Except Abort (Candidate K) := do
  match ← Stop.attempt (r.dataset (K := K)) with
  | .error e => return .malformed (.malformed (some r.id) e.message)
  | .ok d =>
    if !rangeMatches range d then return .rejected
    else
      match ← Stop.attempt (d.footprintIn crs count) with
      | .error _ => return .rejected
      | .ok footprint =>
        return if extentMatches extent footprint then .accepted d footprint else .rejected

/-- The warnings of a list of candidates. -/
def candidateWarnings (candidates : List (Candidate K)) : List LoadWarning :=
  candidates.filterMap fun
    | .malformed w => some w
    | _ => none

/-- The datasets among a list of candidates. -/
def candidateDatasets (candidates : List (Candidate K)) : List (Dataset K) :=
  candidates.filterMap fun
    | .accepted d _ => some d
    | _ => none

/-- The boxes round the footprints among a list of candidates. -/
def candidateBoxes (candidates : List (Candidate K)) : List (Box K) :=
  candidates.filterMap fun
    | .accepted _ footprint => footprint.box?
    | _ => none

/-- The smallest box that holds all boxes of a list. -/
def unionOf? : List (Box K) → Option (Box K)
  | [] => none
  | b :: rest => some (rest.foldl Box.union b)

/-- What a search has found. -/
def collect (product : String) (extent : Option (Box K)) (candidates : List (Candidate K)) :
    SearchResult K :=
  let datasets := candidateDatasets candidates
  let nothing :=
    if datasets.isEmpty then
      [LoadWarning.emptyResult s!"no datasets of '{product}' match the query"]
    else []
  { datasets
    warnings := candidateWarnings candidates ++ nothing
    extent := extent <|> unionOf? (candidateBoxes candidates) }

/-- The box in longitude and latitude in which an extent lies. -/
def searchBox (extent : Option (Box K)) (crs : Crs) (count : Nat) :
    Except (Stop LoadError) (Option (Box K)) :=
  match extent with
  | none => .ok none
  | some box =>
    Stop.mapError
      (fun e => .configuration s!"query extent cannot be expressed in EPSG:4326: {e.message}")
      (((Transformer.mk crs .wgs84).applyBox box count).map some)

/-- The datasets of a product that overlap a time range and an extent given in a reference system.
`count` points are put on every edge that is carried over to another system. -/
def findDatasets {V : Type} (c : Catalog K V) (count : Nat) (product : String)
    (timeRange : Option TimeRange) (extent : Option (Box K)) (crs : Crs) :
    Except (Stop LoadError) (SearchResult K) := do
  let box ← searchBox extent crs count
  let records ← Stop.mapError LoadError.ofCatalog
    (Stop.liftError (c.search { product, timeRange, box }))
  let candidates ← Stop.liftAbort (records.mapM (candidate count timeRange extent crs))
  return collect product extent candidates

end Catalog

end Mosaic
