import Mosaic.Proofs.Order
import Mosaic.Proofs.Outcome
import Mosaic.Proofs.SortedMap
import Mosaic.Proofs.Tiling

/-!
# What the cells of a load hold

`belongs` says which datasets a cell should hold, tile by tile and without any search: those that
have the footprint in the reference system of the grid, the group key of the cell, and a tile of the
extent on whose ground, border included, the footprint has a share. `resolve` searches instead. The
run over the datasets keeps one invariant, `Holds`: for the datasets done so far the cells list,
under every key, the ones that belong there and that the search comes by, in the order in which they
came. In exact arithmetic the search comes by every tile that matters, and the two agree
(`resolve_agrees`), unless a dataset ends the search: `abort?` says which ones do, and with what.
-/

namespace Mosaic

namespace Grid

variable {K : Type} [Coordinate K]

theorem nodup_indexRange (bounds : Int × Int) : (indexRange bounds).Nodup := by
  unfold indexRange
  refine List.Nodup.map ?_ List.nodup_range
  intro n m h
  have : bounds.1 + (n : Int) = bounds.1 + (m : Int) := h
  omega

/-- The tiles of an extent are listed once each. -/
theorem nodup_tilesForExtent (g : Grid K) (extent : Box K) : (g.tilesForExtent extent).Nodup := by
  unfold tilesForExtent
  rw [List.nodup_flatMap]
  constructor
  · intro y _
    refine List.Nodup.map ?_ (nodup_indexRange _)
    intro x x' h
    exact congrArg TileIndex.x h
  · refine (nodup_indexRange (g.rowBounds extent)).imp ?_
    intro y y' hne t ht ht'
    obtain ⟨x, -, rfl⟩ := List.mem_map.mp ht
    obtain ⟨x', -, hx'⟩ := List.mem_map.mp ht'
    exact hne (congrArg TileIndex.y hx').symm

end Grid

namespace Cells

variable {K : Type} [Coordinate K] [Reprojection K]

/-- Whether a dataset belongs to a cell of an extent. -/
def belongs (grid : Grid K) (extent : Box K) (grouping : TimeGrouping) (count : Nat)
    (key : TileKey) (d : Dataset K) : Bool :=
  match d.footprintIn grid.crs count, d.groupKey grouping with
  | .ok footprint, .ok time =>
    decide (time = key.time) && decide (key.tile ∈ grid.tilesForExtent extent) &&
      footprint.overlaps (grid.paddedExtentOf key.tile)
  | _, _ => false

/-- Whether the search for the tiles of a dataset comes by a tile. -/
def comesBy (grid : Grid K) (extent : Box K) (count : Nat) (tile : TileIndex) (d : Dataset K) :
    Bool :=
  match d.footprintIn grid.crs count with
  | .ok footprint => reaches grid extent footprint tile
  | .error _ => false

/-- Whether a dataset gets into a cell: it belongs there and the search comes by the tile. -/
def placed (grid : Grid K) (extent : Box K) (grouping : TimeGrouping) (count : Nat)
    (key : TileKey) (d : Dataset K) : Bool :=
  belongs grid extent grouping count key d && comesBy grid extent count key.tile d

/-- What a dataset ends the search for cells with, whatever the cells hold: the reprojection of its
footprint, or else its group key, which is asked for when the box round the footprint, widened by
the border, meets the ground of the tiles of the extent. -/
def abort? (grid : Grid K) (extent : Box K) (grouping : TimeGrouping) (count : Nat)
    (d : Dataset K) : Option Abort :=
  match d.footprintIn grid.crs count with
  | .error (.aborted cause) => some cause
  | .error (.failed _) => none
  | .ok footprint =>
    match search? grid extent footprint with
    | none => none
    | some _ =>
      match d.groupKey grouping with
      | .error cause => some cause
      | .ok _ => none

/-- What a map holds for a key under which a list is filed; nothing when the list is empty. -/
def filed {α : Type} : List α → Option (List α)
  | [] => none
  | values => some values

/-- The cells hold under every key the members of a list of datasets, in their order. -/
structure Holds (cells : Cells K) (member : TileKey → Dataset K → Bool)
    (datasets : List (Dataset K)) : Prop where
  sorted : cells.Sorted
  find : ∀ key, cells.find? key = filed (datasets.filter (member key))

theorem filed_append_singleton {α : Type} (values : List α) (value : α) :
    filed (values ++ [value]) = some ((filed values).getD [] ++ [value]) := by
  cases values <;> rfl

theorem getD_filed {α : Type} (values : List α) : (filed values).getD [] = values := by
  cases values <;> rfl

theorem isSome_filed {α : Type} (values : List α) :
    (filed values).isSome ↔ ∃ value, value ∈ values := by
  cases values with
  | nil => simp [filed]
  | cons value rest => exact ⟨fun _ => ⟨value, List.mem_cons_self⟩, fun _ => rfl⟩

omit [Coordinate K] [Reprojection K] in
theorem stack_perm (ordering : DatasetOrdering) (datasets : List (Dataset K)) :
    (ordering.stack datasets).Perm datasets := List.mergeSort_perm datasets _

omit [Coordinate K] [Reprojection K] in
theorem map_stack_filed (ordering : DatasetOrdering) (datasets : List (Dataset K)) :
    (filed datasets).map ordering.stack = filed (ordering.stack datasets) := by
  cases datasets with
  | nil =>
    rw [List.Perm.eq_nil (stack_perm ordering [])]
    rfl
  | cons d rest =>
    cases hstack : ordering.stack (d :: rest) with
    | nil =>
      have hperm := stack_perm ordering (d :: rest)
      rw [hstack] at hperm
      exact absurd hperm.nil_eq.symm (List.cons_ne_nil d rest)
    | cons d' rest' =>
      show some (ordering.stack (d :: rest)) = some (d' :: rest')
      rw [hstack]

/-! ## One dataset -/

omit [Coordinate K] [Reprojection K] in
/-- A dataset put into several tiles of one time slice is in each of them, and nothing else
changes. -/
theorem find?_foldl_push {tiles : List TileIndex} (hnodup : tiles.Nodup) {cells : Cells K}
    (hsorted : cells.Sorted) (time : Instant) (d : Dataset K) :
    let after := tiles.foldl (fun cells tile => cells.push ⟨time, tile⟩ d) cells
    after.Sorted ∧ ∀ key, after.find? key =
      if key.time = time ∧ key.tile ∈ tiles then some ((cells.find? key).getD [] ++ [d])
      else cells.find? key := by
  induction tiles generalizing cells with
  | nil => exact ⟨hsorted, fun key => by simp⟩
  | cons tile rest ih =>
    obtain ⟨hnew, hrest⟩ := List.nodup_cons.mp hnodup
    obtain ⟨hafter, hfind⟩ := ih hrest (SortedMap.sorted_push hsorted ⟨time, tile⟩ d)
    refine ⟨hafter, fun key => (hfind key).trans ?_⟩
    -- the tiles are all different, so that each key takes the dataset at most once
    by_cases hkey : key = ⟨time, tile⟩
    · subst hkey
      rw [if_neg (fun h => hnew h.2), if_pos ⟨rfl, List.mem_cons_self⟩,
        SortedMap.find?_push_self hsorted]
    · rw [SortedMap.find?_push_of_ne _ hkey]
      have hmem : (key.time = time ∧ key.tile ∈ rest) ↔
          (key.time = time ∧ key.tile ∈ tile :: rest) := by
        constructor
        · rintro ⟨ht, hr⟩
          exact ⟨ht, List.mem_cons_of_mem tile hr⟩
        · rintro ⟨rfl, hr⟩
          rcases List.mem_cons.mp hr with rfl | hr
          · exact absurd rfl hkey
          · exact ⟨rfl, hr⟩
      simp only [hmem]

/-- What adding a dataset does to the cells, in all ways it may go. -/
theorem addDataset_ok {grid : Grid K} {extent bounds : Box K} {grouping : TimeGrouping}
    {count : Nat} {cells cells' : Cells K} {d : Dataset K}
    (h : addDataset grid extent bounds grouping count cells d = .ok cells') :
    (∃ e, d.footprintIn grid.crs count = .error (.failed e) ∧ cells' = cells) ∨
    (∃ footprint, d.footprintIn grid.crs count = .ok footprint ∧
      searchBox? grid bounds footprint = none ∧ cells' = cells) ∨
    (∃ footprint search time, d.footprintIn grid.crs count = .ok footprint ∧
      searchBox? grid bounds footprint = some search ∧ d.groupKey grouping = .ok time ∧
      cells' = (tilesOf grid extent search footprint).foldl
        (fun cells tile => cells.push ⟨time, tile⟩ d) cells) := by
  unfold addDataset at h
  cases hfoot : d.footprintIn grid.crs count with
  | error stop =>
    rw [hfoot] at h
    cases stop with
    | aborted cause => cases h
    | failed e =>
      cases h
      exact .inl ⟨e, rfl, rfl⟩
  | ok footprint =>
    simp only [hfoot, Stop.attempt_ok, bind, Except.bind] at h
    cases hsearch : searchBox? grid bounds footprint with
    | none =>
      rw [hsearch] at h
      cases h
      exact .inr (.inl ⟨footprint, rfl, hsearch, rfl⟩)
    | some search =>
      cases htime : d.groupKey grouping with
      | error cause =>
        simp only [hsearch, htime] at h
        cases h
      | ok time =>
        simp only [hsearch, htime] at h
        cases h
        exact .inr (.inr ⟨footprint, search, time, rfl, hsearch, rfl, rfl⟩)

theorem addDataset_eq_error_iff {grid : Grid K} {extent bounds : Box K}
    (hbounds : bounds? grid extent = some bounds) {grouping : TimeGrouping} {count : Nat}
    (cells : Cells K) (d : Dataset K) (cause : Abort) :
    addDataset grid extent bounds grouping count cells d = .error cause ↔
      abort? grid extent grouping count d = some cause := by
  unfold addDataset abort?
  simp only [search?_eq hbounds]
  cases d.footprintIn grid.crs count with
  | error stop =>
    cases stop with
    | aborted cause' => exact ⟨fun h => by cases h; rfl, fun h => by cases h; rfl⟩
    | failed e => constructor <;> intro h <;> cases h
  | ok footprint =>
    simp only [Stop.attempt_ok, bind, Except.bind]
    cases searchBox? grid bounds footprint with
    | none => constructor <;> intro h <;> cases h
    | some search =>
      cases d.groupKey grouping with
      | error cause' => exact ⟨fun h => by cases h; rfl, fun h => by cases h; rfl⟩
      | ok time => constructor <;> intro h <;> cases h

/-- Adding a dataset keeps the invariant. -/
theorem holds_addDataset {grid : Grid K} {extent bounds : Box K}
    (hbounds : bounds? grid extent = some bounds) {grouping : TimeGrouping} {count : Nat}
    {cells cells' : Cells K} {done : List (Dataset K)} {d : Dataset K}
    (hholds : Holds cells (placed grid extent grouping count) done)
    (h : addDataset grid extent bounds grouping count cells d = .ok cells') :
    Holds cells' (placed grid extent grouping count) (done ++ [d]) := by
  obtain ⟨hsorted, hfind⟩ := hholds
  rcases addDataset_ok h with ⟨e, hfoot, rfl⟩ | ⟨footprint, hfoot, hsearch, rfl⟩ |
    ⟨footprint, search, time, hfoot, hsearch, htime, rfl⟩
  · refine ⟨hsorted, fun key => ?_⟩
    simp [List.filter_append, placed, belongs, hfoot, hfind key]
  · refine ⟨hsorted, fun key => ?_⟩
    simp [List.filter_append, placed, comesBy, reaches, hfoot, search?_eq hbounds, hsearch,
      hfind key]
  -- only here is the dataset put anywhere: into the tiles that the search comes by
  · have hnodup : (tilesOf grid extent search footprint).Nodup :=
      (Grid.nodup_tilesForExtent grid search).filter _
    obtain ⟨hsorted', hfind'⟩ := find?_foldl_push hnodup hsorted time d
    refine ⟨hsorted', fun key => (hfind' key).trans ?_⟩
    have hmember : placed grid extent grouping count key d = true ↔
        key.time = time ∧ key.tile ∈ tilesOf grid extent search footprint := by
      simp only [placed, belongs, comesBy, reaches, tilesOf, hfoot, htime, search?_eq hbounds,
        hsearch, List.mem_filter, Grid.mem_tilesForExtent, Bool.and_eq_true,
        decide_eq_true_eq]
      constructor
      · rintro ⟨⟨⟨rfl, hneeds⟩, hoverlaps⟩, hreached⟩
        exact ⟨rfl, hreached, hneeds, hoverlaps⟩
      · rintro ⟨rfl, hreached, hneeds, hoverlaps⟩
        exact ⟨⟨⟨rfl, hneeds⟩, hoverlaps⟩, hreached⟩
    rw [List.filter_append]
    -- the new dataset goes to the end of the stacks of its cells, and of no others
    by_cases hkey : key.time = time ∧ key.tile ∈ tilesOf grid extent search footprint
    · rw [if_pos hkey, List.filter_cons_of_pos (hmember.mpr hkey), List.filter_nil,
        filed_append_singleton, hfind key]
    · rw [if_neg hkey, List.filter_cons_of_neg (mt hmember.mp hkey), List.filter_nil,
        List.append_nil, hfind key]

/-! ## A list of datasets -/

/-- The cells that `resolve` gives are those of a run that keeps the invariant, stacked. -/
theorem holds_resolve {datasets : List (Dataset K)} {grid : Grid K} {extent : Box K}
    {grouping : TimeGrouping} {ordering : DatasetOrdering} {count : Nat} {cells : Cells K}
    (h : resolve datasets grid extent grouping ordering count = .ok cells) :
    ∃ unordered, Holds unordered (placed grid extent grouping count) datasets ∧
      cells = unordered.mapValues ordering.stack := by
  unfold resolve at h
  cases hbounds : bounds? grid extent with
  | none =>
    -- without tiles the search comes by none
    rw [hbounds] at h
    cases h
    have hnone : ∀ key d, placed grid extent grouping count key d = false := by
      intro key d
      have hcomes : comesBy grid extent count key.tile d = false := by
        unfold comesBy reaches search?
        rw [hbounds]
        cases d.footprintIn grid.crs count <;> rfl
      rw [placed, hcomes, Bool.and_false]
    refine ⟨∅, ⟨SortedMap.sorted_empty, fun key => ?_⟩, rfl⟩
    rw [List.filter_eq_nil_iff.mpr fun d _ => by simp [hnone key d]]
    rfl
  | some bounds =>
    rw [hbounds] at h
    obtain ⟨unordered, hrun, h⟩ := bind_eq_ok.mp h
    cases h
    have hstart : Holds (∅ : Cells K) (placed grid extent grouping count) [] :=
      ⟨SortedMap.sorted_empty, fun _ => rfl⟩
    -- the run over the datasets, with the datasets done so far as the index of the invariant
    have hholds := foldlM_ok
      (fun done cells => Holds cells (placed grid extent grouping count) done)
      (fun _ _ _ _ hcells hd => holds_addDataset hbounds hcells hd) hstart hrun
    exact ⟨unordered, hholds, rfl⟩

/-- The stacks that `resolve` gives, for rounded coordinates as well. -/
theorem find?_resolve {datasets : List (Dataset K)} {grid : Grid K} {extent : Box K}
    {grouping : TimeGrouping} {ordering : DatasetOrdering} {count : Nat} {cells : Cells K}
    (h : resolve datasets grid extent grouping ordering count = .ok cells) (key : TileKey) :
    cells.find? key =
      filed (ordering.stack (datasets.filter (placed grid extent grouping count key))) := by
  obtain ⟨unordered, hholds, rfl⟩ := holds_resolve h
  rw [SortedMap.find?_mapValues, hholds.find key, map_stack_filed]

/-- Where there are tiles the search ends with what the first dataset to end it does so with, and
has cells otherwise. -/
theorem resolve_eq_error_iff {grid : Grid K} {extent bounds : Box K}
    (hbounds : bounds? grid extent = some bounds) {datasets : List (Dataset K)}
    {grouping : TimeGrouping} {ordering : DatasetOrdering} {count : Nat} {cause : Abort} :
    resolve datasets grid extent grouping ordering count = .error cause ↔
      datasets.findSome? (abort? grid extent grouping count) = some cause := by
  unfold resolve
  rw [hbounds]
  show _ >>= _ = _ ↔ _
  rw [bind_eq_error, foldlM_eq_error_iff (addDataset_eq_error_iff hbounds)]
  exact or_iff_left (by rintro ⟨_, -, h⟩; cases h)

/-! ## Exact arithmetic -/

section Exact

variable [Reprojection Rat] {grid : Grid Rat}

/-- In exact arithmetic the search comes by every cell to which a dataset belongs. -/
theorem placed_eq_belongs (hgrid : grid.flaw? = none) (extent : Box Rat) (grouping : TimeGrouping)
    (count : Nat) (key : TileKey) (d : Dataset Rat) :
    placed grid extent grouping count key d = belongs grid extent grouping count key d := by
  rw [placed, Bool.and_eq_left_iff_imp]
  intro hbelongs
  unfold belongs at hbelongs
  unfold comesBy
  cases hfoot : d.footprintIn grid.crs count with
  | error stop => simp [hfoot] at hbelongs
  | ok footprint =>
    cases htime : d.groupKey grouping with
    | error cause => simp [hfoot, htime] at hbelongs
    | ok time =>
      simp only [hfoot, htime, Bool.and_eq_true, decide_eq_true_eq] at hbelongs
      obtain ⟨⟨-, htile⟩, hoverlaps⟩ := hbelongs
      exact reaches_of_overlaps hgrid (Grid.mem_tilesForExtent.mp htile) hoverlaps

/-- The search for cells agrees with looking at every tile of the extent. A map is missing exactly
when some dataset ends the search, with what the first one to do so ends it with. Otherwise the map
has the cells to which datasets belong, and the stack of a cell is made of the datasets that belong
there, each as often as it comes in the list. -/
theorem resolve_agrees (hgrid : grid.flaw? = none) (datasets : List (Dataset Rat))
    (extent : Box Rat) (grouping : TimeGrouping) (ordering : DatasetOrdering) (count : Nat) :
    (∀ cause, resolve datasets grid extent grouping ordering count = .error cause ↔
      datasets.findSome? (abort? grid extent grouping count) = some cause) ∧
    ∀ cells, resolve datasets grid extent grouping ordering count = .ok cells → ∀ key,
      (key ∈ cells.keys ↔ ∃ d ∈ datasets, belongs grid extent grouping count key d = true) ∧
      (cells.find? key).getD [] =
        ordering.stack (datasets.filter (belongs grid extent grouping count key)) ∧
      ((cells.find? key).getD []).Perm
        (datasets.filter (belongs grid extent grouping count key)) := by
  obtain ⟨bounds, hbounds⟩ := exists_bounds grid extent
  refine ⟨fun cause => resolve_eq_error_iff hbounds, fun cells h key => ?_⟩
  have hfind := find?_resolve h key
  rw [funext (placed_eq_belongs hgrid extent grouping count key)] at hfind
  have hperm := stack_perm ordering (datasets.filter (belongs grid extent grouping count key))
  rw [SortedMap.mem_keys_iff, hfind, isSome_filed, getD_filed]
  refine ⟨?_, rfl, hperm⟩
  simp only [hperm.mem_iff, List.mem_filter]

end Exact

section Example

attribute [local instance] Exact.unmoved

/-- Tiles of four by four pixels with a border of one pixel. -/
def borderedGrid : Grid Rat := ⟨.wgs84, ⟨1, -1⟩, ⟨4, 4⟩, ⟨0, 0⟩, 1⟩

/-- A scene of four by four pixels at the beginning of time. -/
def sceneAt (west south : Rat) : Dataset Rat where
  id := ⟨0⟩
  product := "scenes"
  time := TimeSpan.instant ⟨0, 0⟩
  crs := .wgs84
  footprint := .ofBox ⟨west, south, west + 4, south + 4⟩
  transform := ⟨⟨west, 1, 0, south + 4, 0, -1⟩, ⟨-west, 1, 0, south + 4, 0, -1⟩⟩
  shape := ⟨4, 4⟩
  sources := ∅
  centroidLongitude := west + 2

/-- Of two scenes east of a tile the one that begins at its edge is in its cell, by the border, and
the one that begins where the border ends is not. -/
theorem resolve_agrees_east_of_tile :
    borderedGrid.flaw? = none ∧
    ∃ cells, resolve [sceneAt 4 0, sceneAt 5 0, sceneAt 4 0] borderedGrid ⟨0, 0, 4, 4⟩ .exact
        .timeAscending 0 = .ok cells ∧
      ((cells.find? ⟨⟨0, 0⟩, ⟨0, 0⟩⟩).getD []).Perm [sceneAt 4 0, sceneAt 4 0] := by
  have hgrid : borderedGrid.flaw? = none := by decide +kernel
  obtain ⟨hstops, hcells⟩ := resolve_agrees hgrid [sceneAt 4 0, sceneAt 5 0, sceneAt 4 0]
    ⟨0, 0, 4, 4⟩ .exact .timeAscending 0
  refine ⟨hgrid, ?_⟩
  cases hresolve : resolve [sceneAt 4 0, sceneAt 5 0, sceneAt 4 0] borderedGrid ⟨0, 0, 4, 4⟩ .exact
    .timeAscending 0 with
  | error cause =>
    have hnone : [sceneAt 4 0, sceneAt 5 0, sceneAt 4 0].findSome?
        (abort? borderedGrid ⟨0, 0, 4, 4⟩ .exact 0) = none := by decide +kernel
    rw [(hstops cause).mp hresolve] at hnone
    cases hnone
  | ok cells =>
    refine ⟨cells, rfl, ?_⟩
    have hnear : belongs borderedGrid ⟨0, 0, 4, 4⟩ .exact 0 ⟨⟨0, 0⟩, ⟨0, 0⟩⟩
        (sceneAt 4 0) = true := by decide +kernel
    have hfar : belongs borderedGrid ⟨0, 0, 4, 4⟩ .exact 0 ⟨⟨0, 0⟩, ⟨0, 0⟩⟩
        (sceneAt 5 0) = false := by decide +kernel
    have hperm := (hcells cells hresolve ⟨⟨0, 0⟩, ⟨0, 0⟩⟩).2.2
    simpa [hnear, hfar] using hperm

/-- A scene that begins east of a tile, half a pixel beyond its border, and the middle of which is a
thousand million turns to the east. -/
def longScene : Dataset Rat :=
  { sceneAt 0 0 with
    footprint := .ofBox ⟨11 / 2, 0, 720000000000, 4⟩
    centroidLongitude := 360000000000 }

/-- The solar day of a place a thousand million turns to the east is not on the calendar. For a
scene there, which belongs to no cell, there is no map instead of an empty one, and a scene that
reaches there from next to the border of a tile leaves an ordinary one on the tile without its cell.
-/
theorem resolve_of_far_scene :
    borderedGrid.flaw? = none ∧
    resolve [sceneAt 360000000000 0] borderedGrid ⟨360000000000, 0, 360000000004, 4⟩ .solarDay
      .timeAscending 0 = .error .timeOutOfRange ∧
    borderedGrid.tilesForExtent ⟨0, 0, 4, 4⟩ = [⟨0, 0⟩] ∧
    belongs borderedGrid ⟨0, 0, 4, 4⟩ .solarDay 0 ⟨⟨0, 0⟩, ⟨0, 0⟩⟩ (sceneAt 0 0) = true ∧
    longScene.footprint.overlaps (borderedGrid.paddedExtentOf ⟨0, 0⟩) = false ∧
    resolve [sceneAt 0 0, longScene] borderedGrid ⟨0, 0, 4, 4⟩ .solarDay .timeAscending 0 =
      .error .timeOutOfRange := by
  obtain ⟨bounds, hbounds⟩ := exists_bounds borderedGrid ⟨0, 0, 4, 4⟩
  obtain ⟨far, hfar⟩ := exists_bounds borderedGrid ⟨360000000000, 0, 360000000004, 4⟩
  exact ⟨by decide +kernel, (resolve_eq_error_iff hfar).mpr (by decide +kernel), by decide +kernel,
    by decide +kernel, by decide +kernel, (resolve_eq_error_iff hbounds).mpr (by decide +kernel)⟩

end Example

end Cells

end Mosaic
