import Mosaic.Load.Search
import Mosaic.Proofs.Outcome

/-!
# What a search finds

The datasets of a search are those of the records that the columns of the catalog let through, whose
document describes a dataset, whose time overlaps the range and whose footprint exists in the
reference system of the load and matches the extent (`admits`). The order in which the catalog lists
its records does not matter for which of them are found.
-/

namespace Mosaic

namespace DatasetRecord

variable {K : Type} [Coordinate K] [Reprojection K]

/-- The dataset of a record, if its document describes one. -/
def readable? (r : DatasetRecord K) : Option (Dataset K) :=
  match r.dataset with
  | .ok d => some d
  | .error _ => none

/-- The columns of a record, where it has them, are those of its dataset. -/
structure Describes (r : DatasetRecord K) (d : Dataset K) : Prop where
  time : ∀ span, r.time = some span → span = d.time
  box : ∀ b, r.box = some b → d.geographicBox? boxPoints = .ok (some b)

end DatasetRecord

namespace Catalog

variable {K V : Type} [Coordinate K] [Reprojection K]

/-- Whether the time of a dataset matches the range, and its footprint the extent. -/
def admits (count : Nat) (range : Option TimeRange) (extent : Option (Box K)) (crs : Crs)
    (d : Dataset K) : Bool :=
  rangeMatches range d &&
    match d.footprintIn crs count with
    | .ok footprint => extentMatches extent footprint
    | .error _ => false

/-- The datasets of the records that some test of the columns lets through. -/
def datasetsOf (c : Catalog K V) (finds : DatasetRecord K → Bool) : List (Dataset K) :=
  (c.records.values.filter finds).filterMap DatasetRecord.readable?

theorem datasetsOf_subset (c : Catalog K V) {finds : DatasetRecord K → Bool} {d : Dataset K}
    (h : d ∈ c.datasetsOf finds) : d ∈ c.datasetsOf fun _ => true := by
  obtain ⟨r, hr, hd⟩ := List.mem_filterMap.mp h
  exact List.mem_filterMap.mpr ⟨r, List.mem_filter.mpr ⟨(List.mem_filter.mp hr).1, rfl⟩, hd⟩

omit [Coordinate K] [Reprojection K] in
theorem candidateDatasets_cons (c : Candidate K) (rest : List (Candidate K)) :
    candidateDatasets (c :: rest) = candidateDatasets [c] ++ candidateDatasets rest := by
  cases c <;> rfl

/-- What one record gives to a search. -/
theorem candidateDatasets_candidate {count : Nat} {range : Option TimeRange}
    {extent : Option (Box K)} {crs : Crs} {r : DatasetRecord K} {c : Candidate K}
    (h : candidate count range extent crs r = .ok c) :
    candidateDatasets [c] = (r.readable?.toList).filter (admits count range extent crs) := by
  unfold candidate at h
  unfold DatasetRecord.readable?
  cases hdata : r.dataset with
  | error stop =>
    rw [hdata] at h
    cases stop <;> cases h
    rfl
  | ok d =>
    simp only [hdata, Stop.attempt_ok, bind, Except.bind] at h
    cases hrange : rangeMatches range d with
    | false =>
      rw [hrange] at h
      cases h
      simp [candidateDatasets, admits, hrange]
    | true =>
      rw [hrange] at h
      cases hfoot : d.footprintIn crs count with
      | error stop =>
        rw [hfoot] at h
        cases stop <;> cases h
        simp [candidateDatasets, admits, hfoot]
      | ok footprint =>
        simp only [hfoot, Stop.attempt_ok] at h
        cases hextent : extentMatches extent footprint <;>
          rw [hextent] at h <;> cases h <;>
          simp [candidateDatasets, admits, hrange, hfoot, hextent]

/-- What a list of records gives to a search. -/
theorem candidateDatasets_mapM {count : Nat} {range : Option TimeRange}
    {extent : Option (Box K)} {crs : Crs} {records : List (DatasetRecord K)}
    {candidates : List (Candidate K)}
    (h : records.mapM (candidate count range extent crs) = .ok candidates) :
    candidateDatasets candidates =
      (records.filterMap DatasetRecord.readable?).filter (admits count range extent crs) := by
  induction records generalizing candidates with
  | nil =>
    cases h
    rfl
  | cons r rest ih =>
    obtain ⟨c, cs, hc, hcs, rfl⟩ := mapM_cons_ok.mp h
    rw [candidateDatasets_cons, candidateDatasets_candidate hc, ih hcs]
    cases hread : r.readable? with
    | none => simp [hread]
    | some d => rw [List.filterMap_cons_some hread, Option.toList_some, ← List.filter_append]; rfl

omit [Reprojection K] in
/-- A query finds the records that pass its test, in the order of the search results. -/
theorem found_perm (c : Catalog K V) (q : DatasetQuery K) :
    (c.found q).Perm (c.records.values.filter q.finds) := List.mergeSort_perm _ _

omit [Reprojection K] in
/-- Where the records are in order already, what a query finds is only filtered. -/
theorem found_of_ordered {c : Catalog K V}
    (h : c.records.values.Pairwise fun a b => (a.cmp b).isLE = true) (q : DatasetQuery K) :
    c.found q = c.records.values.filter q.finds := List.mergeSort_of_pairwise (h.filter _)

/-- A search gives the admitted datasets of the records that the columns let through. The extent of
its result is the one asked for, if there is one. -/
theorem findDatasets_ok {c : Catalog K V} {count : Nat} {product : String}
    {range : Option TimeRange} {extent : Option (Box K)} {crs : Crs} {result : SearchResult K}
    (h : c.findDatasets count product range extent crs = .ok result) :
    ∃ box, searchBox extent crs count = .ok box ∧
      result.datasets.Perm
        ((c.datasetsOf (DatasetQuery.finds ⟨product, range, box⟩)).filter
          (admits count range extent crs)) ∧
      ∀ asked, extent = some asked → result.extent = some asked := by
  unfold findDatasets at h
  obtain ⟨box, hbox, h⟩ := bind_eq_ok.mp h
  obtain ⟨records, hrecords, h⟩ := bind_eq_ok.mp h
  obtain ⟨candidates, hcandidates, h⟩ := bind_eq_ok.mp h
  cases h
  refine ⟨box, hbox, ?_, ?_⟩
  -- the catalog sorts what it finds, so that the datasets come in another order
  · have hsearch := Stop.liftError_eq_ok.mp (Stop.mapError_eq_ok.mp hrecords)
    have hfound : records = c.found ⟨product, range, box⟩ := by
      unfold search whileOnline at hsearch
      split at hsearch <;> cases hsearch
      rfl
    show (candidateDatasets candidates).Perm _
    rw [candidateDatasets_mapM (Stop.liftAbort_eq_ok.mp hcandidates), hfound]
    exact ((found_perm c _).filterMap _).filter _
  · rintro asked rfl
    rfl

end Catalog

end Mosaic
