import Mosaic.Proofs.Cells

/-!
# Stacks and the order in which datasets are found

A stack is sorted by the centre of time, either way, and then by identifier. Datasets with different
identifiers never compare as equal, so a stack has one form only, whatever the order was in which its
datasets came (`stack_eq_of_perm`). Whether a dataset can be put into the cells at all has nothing to
do with the datasets before it (`exists_resolve_iff`). Both together make the cells of a list of
datasets those of every reordering of it (`resolve_reordered`).
-/

namespace Mosaic

open Std (TransCmp)

variable {K : Type}

namespace DatasetOrdering

/-- Whether a dataset comes before another one in a stack: its centre time is earlier, or later when
the newest come first, or the centre times are the same and its identifier is smaller. -/
def Precedes (ordering : DatasetOrdering) (a b : Dataset K) : Prop :=
  (match ordering with
    | timeAscending => a.time.middle < b.time.middle
    | timeDescending => b.time.middle < a.time.middle) ∨
  a.time.middle = b.time.middle ∧ compare a.id b.id = .lt

instance (ordering : DatasetOrdering) : TransCmp (ordering.compareDatasets (K := K)) := by
  cases ordering with
  | timeAscending =>
    exact inferInstanceAs (TransCmp (compareLex
      (compareOn fun d : Dataset K => d.time.middle) (compareOn Dataset.id)))
  | timeDescending =>
    exact inferInstanceAs (TransCmp (compareLex
      (fun a b : Dataset K => compareOn (fun d : Dataset K => d.time.middle) b a)
      (compareOn Dataset.id)))

theorem compareDatasets_eq_lt_iff (ordering : DatasetOrdering) (a b : Dataset K) :
    ordering.compareDatasets a b = .lt ↔ ordering.Precedes a b := by
  unfold compareDatasets Precedes
  rw [Ordering.then_eq_lt]
  cases ordering with
  | timeAscending =>
    show _ ∨ compare a.time.middle b.time.middle = .eq ∧ _ ↔ _
    rw [Std.LawfulEqOrd.compare_eq_iff_eq]
    rfl
  | timeDescending =>
    have hcomm : compare b.time.middle a.time.middle = .eq ↔ a.time.middle = b.time.middle := by
      rw [Std.LawfulEqOrd.compare_eq_iff_eq, eq_comm]
    show _ ∨ compare b.time.middle a.time.middle = .eq ∧ _ ↔ _
    rw [hcomm]
    rfl

/-- Datasets with different identifiers do not compare as equal. -/
theorem compareDatasets_ne_eq (ordering : DatasetOrdering) {datasets : List (Dataset K)}
    (hids : (datasets.map Dataset.id).Nodup) :
    datasets.Pairwise fun a b => ordering.compareDatasets a b ≠ .eq := by
  refine (List.pairwise_map.mp hids).imp ?_
  intro a b hid heq
  exact hid (Std.LawfulEqOrd.eq_of_compare (Ordering.then_eq_eq.mp heq).2)

/-- A stack of datasets with different identifiers is in strict order. -/
theorem pairwise_stack (ordering : DatasetOrdering) {datasets : List (Dataset K)}
    (hids : (datasets.map Dataset.id).Nodup) :
    (ordering.stack datasets).Pairwise ordering.Precedes := by
  have hsorted := pairwise_lt_mergeSort (ordering.compareDatasets_ne_eq hids)
  exact hsorted.imp fun {a b} hlt => (ordering.compareDatasets_eq_lt_iff a b).mp hlt

/-- The stack of datasets with different identifiers does not depend on their order. -/
theorem stack_eq_of_perm (ordering : DatasetOrdering) {datasets datasets' : List (Dataset K)}
    (hperm : datasets.Perm datasets') (hids : (datasets.map Dataset.id).Nodup) :
    ordering.stack datasets = ordering.stack datasets' :=
  mergeSort_eq_of_perm hperm (ordering.compareDatasets_ne_eq hids)

end DatasetOrdering

/-- A dataset with a group key has a centre time. -/
theorem Dataset.center_of_groupKey [Coordinate K] {d : Dataset K} {grouping : TimeGrouping}
    {time : Instant} (h : d.groupKey grouping = .ok time) : d.time.center = .ok d.time.middle := by
  obtain ⟨center, hcenter, -⟩ := bind_eq_ok.mp h
  unfold TimeSpan.center at hcenter ⊢
  split at hcenter
  · next hrange => exact if_pos hrange
  · cases hcenter

namespace Cells

variable [Coordinate K] [Reprojection K] {grid : Grid K} {extent bounds : Box K}
  {grouping : TimeGrouping} {ordering : DatasetOrdering} {count : Nat}

theorem exists_groupKey_of_placed {key : TileKey} {d : Dataset K}
    (h : placed grid extent grouping count key d = true) : ∃ time, d.groupKey grouping = .ok time := by
  have hbelongs := (Bool.and_eq_true_iff.mp h).1
  unfold belongs at hbelongs
  split at hbelongs
  · next time _ htime => exact ⟨time, htime⟩
  · exact absurd hbelongs Bool.false_ne_true

/-- A list of datasets has cells exactly when none of them ends the search. -/
theorem exists_resolve_iff (hbounds : bounds? grid extent = some bounds)
    (datasets : List (Dataset K)) :
    (∃ cells, resolve datasets grid extent grouping ordering count = .ok cells) ↔
      ∀ d ∈ datasets, abort? grid extent grouping count d = none := by
  rw [← List.findSome?_eq_none_iff]
  cases hresolve : resolve datasets grid extent grouping ordering count with
  | error cause =>
    rw [(resolve_eq_error_iff hbounds).mp hresolve]
    exact iff_of_false nofun nofun
  | ok cells =>
    refine iff_of_true ⟨cells, rfl⟩ (Option.eq_none_iff_forall_ne_some.mpr fun cause hstops => ?_)
    rw [(resolve_eq_error_iff hbounds).mpr hstops] at hresolve
    cases hresolve

theorem exists_resolve_of_perm {datasets datasets' : List (Dataset K)}
    (hperm : datasets.Perm datasets')
    (h : ∃ cells, resolve datasets grid extent grouping ordering count = .ok cells) :
    ∃ cells, resolve datasets' grid extent grouping ordering count = .ok cells := by
  cases hbounds : bounds? grid extent with
  | none => exact ⟨∅, by rw [resolve, hbounds]⟩
  | some bounds =>
    have hall := (exists_resolve_iff hbounds datasets).mp h
    exact (exists_resolve_iff hbounds datasets').mpr fun d hd => hall d (hperm.mem_iff.mpr hd)

/-- The cells that a list of datasets gets are in order. -/
theorem sorted_resolve {datasets : List (Dataset K)} {cells : Cells K}
    (h : resolve datasets grid extent grouping ordering count = .ok cells) : cells.Sorted := by
  obtain ⟨unordered, hholds, rfl⟩ := holds_resolve h
  exact SortedMap.sorted_mapValues ordering.stack hholds.sorted

/-- The cells of a list of datasets with different identifiers are those of every reordering. -/
theorem resolve_of_perm {datasets datasets' : List (Dataset K)} (hperm : datasets.Perm datasets')
    (hids : (datasets.map Dataset.id).Nodup) {cells : Cells K}
    (h : resolve datasets grid extent grouping ordering count = .ok cells) :
    resolve datasets' grid extent grouping ordering count = .ok cells := by
  obtain ⟨cells', h'⟩ := exists_resolve_of_perm hperm ⟨cells, h⟩
  have hfind : ∀ key, cells'.find? key = cells.find? key := by
    intro key
    have hstack := ordering.stack_eq_of_perm (hperm.filter (placed grid extent grouping count key))
      (hids.sublist (List.filter_sublist.map Dataset.id))
    rw [find?_resolve h key, find?_resolve h' key, hstack]
  rw [h', SortedMap.eq_of_find? (sorted_resolve h') (sorted_resolve h) hfind]

/-- Datasets with different identifiers get the same cells in whatever order they are found, or
none in any order. Every stack is in strict order: by the centre of time, the way that was asked for,
and by ascending identifiers where the centres are the same. -/
theorem resolve_reordered {datasets datasets' : List (Dataset K)} (hperm : datasets.Perm datasets')
    (hids : (datasets.map Dataset.id).Nodup) (grid : Grid K) (extent : Box K)
    (grouping : TimeGrouping) (ordering : DatasetOrdering) (count : Nat) :
    (∀ cells, resolve datasets grid extent grouping ordering count = .ok cells ↔
      resolve datasets' grid extent grouping ordering count = .ok cells) ∧
    ∀ cells, resolve datasets grid extent grouping ordering count = .ok cells →
      ∀ key stack, cells.find? key = some stack →
        (∀ d ∈ stack, d.time.center = .ok d.time.middle) ∧
          stack.Pairwise ordering.Precedes := by
  have hids' : (datasets'.map Dataset.id).Nodup := (hperm.map Dataset.id).nodup_iff.mp hids
  refine ⟨fun cells => ⟨resolve_of_perm hperm hids, resolve_of_perm hperm.symm hids'⟩, ?_⟩
  intro cells h key stack hstack
  have hfind := find?_resolve h key
  have hmembers : stack = ordering.stack (datasets.filter (placed grid extent grouping count key)) := by
    rw [← getD_filed (ordering.stack _), ← hfind, hstack]
    rfl
  subst hmembers
  constructor
  · intro d hd
    have hplaced := (List.mem_filter.mp ((stack_perm ordering _).mem_iff.mp hd)).2
    obtain ⟨time, htime⟩ := exists_groupKey_of_placed hplaced
    exact Dataset.center_of_groupKey htime
  · exact ordering.pairwise_stack (hids.sublist (List.filter_sublist.map Dataset.id))

section Example

attribute [local instance] Exact.unmoved

/-- A scene at a tile with a number and a second. -/
def sceneOfTime (number : BitVec 128) (seconds : Int) : Dataset Rat :=
  { sceneAt 0 0 with id := ⟨number⟩, time := .instant ⟨seconds, 0⟩ }

/-- Three scenes of a day, two of them of one time. -/
def threeScenes : List (Dataset Rat) := [sceneOfTime 2 5, sceneOfTime 3 9, sceneOfTime 1 5]

/-- The newest of the three scenes comes first when it should, and the two of one time come by their
numbers, whichever of them was found first. -/
theorem resolve_three_scenes :
    (threeScenes.map Dataset.id).Nodup ∧ threeScenes.Perm threeScenes.reverse ∧ ∃ cells,
      resolve threeScenes borderedGrid ⟨0, 0, 4, 4⟩ .day .timeDescending 0 = .ok cells ∧
      resolve threeScenes.reverse borderedGrid ⟨0, 0, 4, 4⟩ .day .timeDescending 0 = .ok cells ∧
      ∃ stack, cells.find? ⟨⟨0, 0⟩, ⟨0, 0⟩⟩ = some stack ∧
        stack.Pairwise DatasetOrdering.timeDescending.Precedes ∧
        stack.map Dataset.id = [⟨3⟩, ⟨1⟩, ⟨2⟩] := by
  have hids : (threeScenes.map Dataset.id).Nodup := by decide
  have hperm : threeScenes.Perm threeScenes.reverse := (List.reverse_perm threeScenes).symm
  obtain ⟨hsame, hsorted⟩ := resolve_reordered hperm hids borderedGrid ⟨0, 0, 4, 4⟩ .day
    .timeDescending 0
  obtain ⟨cells, hcells, -⟩ := exists_ok_of_test
    (resolve threeScenes borderedGrid ⟨0, 0, 4, 4⟩ .day .timeDescending 0) (fun _ => true)
    (by decide +kernel)
  have hplaced : ∀ d ∈ threeScenes,
      placed borderedGrid ⟨0, 0, 4, 4⟩ .day 0 ⟨⟨0, 0⟩, ⟨0, 0⟩⟩ d = true := by decide +kernel
  have hstack := find?_resolve hcells ⟨⟨0, 0⟩, ⟨0, 0⟩⟩
  rw [List.filter_eq_self.mpr hplaced] at hstack
  -- the only strictly ordered list of the three
  have hordered : DatasetOrdering.timeDescending.stack threeScenes =
      [sceneOfTime 3 9, sceneOfTime 1 5, sceneOfTime 2 5] := by
    refine eq_of_pairwise_lt ((stack_perm _ _).trans ?_) (pairwise_lt_mergeSort
      (DatasetOrdering.timeDescending.compareDatasets_ne_eq hids)) (by decide)
    exact (List.Perm.swap _ _ _).trans ((List.Perm.swap _ _ _).cons _)
  rw [hordered] at hstack
  exact ⟨hids, hperm, cells, hcells, (hsame cells).mp hcells, _, hstack,
    (hsorted cells hcells _ _ hstack).2, rfl⟩

end Example

end Cells

end Mosaic
