import Mosaic.Proofs.Cells
import Mosaic.Proofs.OutputGrid
import Mosaic.Proofs.Search

/-!
# The contributors of a planned cell

A plan filters three times: the catalog by its columns, the search by the extent of the request, and
the cells by the ground of their tiles. The contributors of a cell are what is left of the datasets
of the product after all three (`contributors_placed`). The extent is no formality: a dataset that
shows ground of a tile, but none of it inside the extent, is not among the contributors, so the
contributors of a cell can change with the extent. They do not when both extents match the same
datasets of the cell.

Where all coordinates are longitudes and latitudes and the columns are the ones that indexing
writes, the catalog leaves out nothing that the later tests would keep.
-/

namespace Mosaic

namespace Cells

variable {K : Type} [Coordinate K] [Reprojection K]

/-- Whether a dataset is of the time slice of a cell and its footprint has a share of the ground of
the tile, border included. -/
def shows (grid : Grid K) (grouping : TimeGrouping) (count : Nat) (key : TileKey) (d : Dataset K) :
    Bool :=
  match d.footprintIn grid.crs count, d.groupKey grouping with
  | .ok footprint, .ok time =>
    decide (time = key.time) && footprint.overlaps (grid.paddedExtentOf key.tile)
  | _, _ => false

theorem belongs_eq_shows {grid : Grid K} {extent : Box K} {key : TileKey}
    (htile : key.tile ∈ grid.tilesForExtent extent) (grouping : TimeGrouping) (count : Nat)
    (d : Dataset K) :
    belongs grid extent grouping count key d = shows grid grouping count key d := by
  unfold belongs shows
  cases d.footprintIn grid.crs count with
  | error stop => rfl
  | ok footprint =>
    cases d.groupKey grouping with
    | error cause => rfl
    | ok time => simp [htile]

/-- A cell that a dataset gets into lies in the extent. -/
theorem mem_tiles_of_placed {grid : Grid K} {extent : Box K} {grouping : TimeGrouping}
    {count : Nat} {key : TileKey} {d : Dataset K}
    (h : placed grid extent grouping count key d = true) :
    key.tile ∈ grid.tilesForExtent extent := by
  have hbelongs := (Bool.and_eq_true_iff.mp h).1
  unfold belongs at hbelongs
  split at hbelongs
  · simp only [Bool.and_eq_true, decide_eq_true_eq] at hbelongs
    exact hbelongs.1.2
  · exact absurd hbelongs Bool.false_ne_true

end Cells

namespace LoadRequest

section Any

variable {K V : Type} [Coordinate K]

variable [Reprojection K]

/-- The parts that a plan is made of. -/
theorem plan_ok {r : LoadRequest K} {config : LoaderConfig} {catalog : Catalog K V}
    {plan : LoadPlan K V} (h : r.plan config catalog = .ok plan) :
    ∃ extent found, catalog.product r.product = .ok plan.product ∧
      r.outputGrid config plan.product = .ok plan.grid ∧
      plan.grouping = r.groupBy.getD config.timeGrouping ∧
      r.outputExtent config plan.grid.crs = .ok extent ∧
      catalog.findDatasets config.densifyPoints plan.product.name r.timeRange extent
        plan.grid.crs = .ok found ∧
      cellsOf found plan.grid plan.grouping (r.ordering.getD config.ordering)
        config.densifyPoints = .ok plan.cells := by
  unfold LoadRequest.plan at h
  obtain ⟨product, hproduct, h⟩ := bind_eq_ok.mp h
  obtain ⟨measurements, -, h⟩ := bind_eq_ok.mp h
  obtain ⟨grid, hgrid, h⟩ := bind_eq_ok.mp h
  obtain ⟨extent, hextent, h⟩ := bind_eq_ok.mp h
  obtain ⟨found, hfound, h⟩ := bind_eq_ok.mp h
  obtain ⟨cells, hcells, h⟩ := bind_eq_ok.mp h
  cases h
  exact ⟨extent, found, mapError_eq_ok.mp (Stop.liftError_eq_ok.mp hproduct),
    Stop.liftError_eq_ok.mp hgrid, rfl, hextent, hfound, Stop.liftAbort_eq_ok.mp hcells⟩

/-- The stack of a cell holds the admitted datasets that get into it. -/
theorem stack_placed {r : LoadRequest K} {config : LoaderConfig} {catalog : Catalog K V}
    {plan : LoadPlan K V} (h : r.plan config catalog = .ok plan) :
    ∃ extent box area, r.outputExtent config plan.grid.crs = .ok extent ∧
      Catalog.searchBox extent plan.grid.crs config.densifyPoints = .ok box ∧
      (∀ asked, extent = some asked → area = asked) ∧
      ∀ key stack, plan.cells.find? key = some stack → key.tile ∈ plan.grid.tilesForExtent area ∧
        stack.Perm
          ((catalog.datasetsOf (DatasetQuery.finds ⟨plan.product.name, r.timeRange, box⟩)).filter
            fun d => Catalog.admits config.densifyPoints r.timeRange extent plan.grid.crs d &&
              Cells.placed plan.grid area plan.grouping config.densifyPoints key d) := by
  obtain ⟨extent, found, -, -, -, hextent, hfound, hcells⟩ := plan_ok h
  obtain ⟨box, hbox, hperm, hasked⟩ := Catalog.findDatasets_ok hfound
  have hempty : ∀ {key : TileKey} {stack : List (Dataset K)}, plan.cells = ∅ →
      plan.cells.find? key ≠ some stack := by
    intro key stack hnone
    rw [hnone]
    nofun
  unfold cellsOf at hcells
  cases harea : found.extent with
  | none =>
    -- without an area there are no cells
    rw [harea] at hcells
    refine ⟨extent, box, ⟨0.0, 0.0, 0.0, 0.0⟩, hextent, hbox, ?_, ?_⟩
    · intro asked hext
      rw [hasked asked hext] at harea
      cases harea
    · intro key stack hstack
      exact absurd hstack (hempty (Except.ok.inj hcells).symm)
  | some area =>
    refine ⟨extent, box, area, hextent, hbox, ?_, ?_⟩
    · intro asked hext
      rw [hasked asked hext] at harea
      exact (Option.some.inj harea).symm
    · intro key stack hstack
      rw [harea] at hcells
      dsimp only at hcells
      split at hcells
      · exact absurd hstack (hempty (Except.ok.inj hcells).symm)
      · have hfind := Cells.find?_resolve hcells key
        have hplaced := Cells.stack_perm (r.ordering.getD config.ordering)
          (found.datasets.filter
            (Cells.placed plan.grid area plan.grouping config.densifyPoints key))
        constructor
        · have hsome := Option.isSome_of_eq_some (hfind.symm.trans hstack)
          rw [Cells.isSome_filed] at hsome
          obtain ⟨d, hd⟩ := hsome
          exact Cells.mem_tiles_of_placed (List.mem_filter.mp (hplaced.mem_iff.mp hd)).2
        · have hfiled := congrArg (Option.getD · []) (hstack.symm.trans hfind)
          rw [Cells.getD_filed] at hfiled
          refine (List.Perm.of_eq hfiled).trans (hplaced.trans ((hperm.filter _).trans ?_))
          rw [List.filter_filter]
          simp only [Bool.and_comm]
          exact List.Perm.refl _

/-- The contributors of a cell are the admitted datasets that get into it. -/
theorem contributors_placed {r : LoadRequest K} {config : LoaderConfig} {catalog : Catalog K V}
    {plan : LoadPlan K V} (h : r.plan config catalog = .ok plan) :
    ∃ extent box area, r.outputExtent config plan.grid.crs = .ok extent ∧
      Catalog.searchBox extent plan.grid.crs config.densifyPoints = .ok box ∧
      (∀ asked, extent = some asked → area = asked) ∧
      ∀ key ∈ plan.keys, key.tile ∈ plan.grid.tilesForExtent area ∧
        (plan.contributors key).Perm
          (((catalog.datasetsOf (DatasetQuery.finds ⟨plan.product.name, r.timeRange, box⟩)).filter
            fun d => Catalog.admits config.densifyPoints r.timeRange extent plan.grid.crs d &&
              Cells.placed plan.grid area plan.grouping config.densifyPoints key d).map
            Dataset.id) := by
  obtain ⟨extent, box, area, hextent, hbox, hasked, hstacks⟩ := stack_placed h
  refine ⟨extent, box, area, hextent, hbox, hasked, fun key hkey => ?_⟩
  obtain ⟨stack, hstack⟩ := SortedMap.exists_find? hkey
  obtain ⟨htile, hperm⟩ := hstacks key stack hstack
  refine ⟨htile, ?_⟩
  rw [LoadPlan.contributors, hstack]
  exact hperm.map Dataset.id

end Any

/-! ## Longitude and latitude, in exact arithmetic -/

section Exact

variable {V : Type} [Reprojection Rat]

/-- All datasets of a catalog are in longitude and latitude, and the columns describe them. -/
def IsIndexed (catalog : Catalog Rat V) : Prop :=
  ∀ record ∈ catalog.records.values, ∀ d, record.readable? = some d →
    d.crs = .wgs84 ∧ record.Describes d

omit [Reprojection Rat] in
/-- Boxes that intersect are not apart. -/
theorem not_apart_of_intersects {a b : Box Rat} (h : a.intersects b = true) :
    DatasetQuery.apart b a = false := by
  obtain ⟨⟨h1, h2⟩, h3, h4⟩ := Box.intersects_iff.mp h
  simp only [DatasetQuery.apart, Bool.or_eq_false_iff, decide_eq_false_iff_not, not_lt]
  exact ⟨⟨⟨h2.le, h1.le⟩, h4.le⟩, h3.le⟩

/-- In its own reference system a footprint is what it is. -/
theorem admits_geographic {d : Dataset Rat} (hcrs : d.crs = .wgs84) (count : Nat)
    (range : Option TimeRange) (extent : Option (Box Rat)) :
    Catalog.admits count range extent .wgs84 d =
      (Catalog.rangeMatches range d && Catalog.extentMatches extent d.footprint) := by
  rw [Catalog.admits, Dataset.footprintIn, if_pos hcrs.symm]

/-- The columns of a record let through what the tests of the search admit. -/
theorem finds_of_matches {record : DatasetRecord Rat} {d : Dataset Rat} (hcrs : d.crs = .wgs84)
    (hdescribes : record.Describes d) {range : Option TimeRange} {extent : Option (Box Rat)}
    (hrange : Catalog.rangeMatches range d = true)
    (hextent : Catalog.extentMatches extent d.footprint = true) (product : String) :
    DatasetQuery.finds ⟨product, range, extent⟩ record = (record.product == product) := by
  have htime : DatasetQuery.timeMatches ⟨product, range, extent⟩ record = true := by
    cases range with
    | none => rfl
    | some range =>
      cases hspan : record.time with
      | none => simp [DatasetQuery.timeMatches, hspan]
      | some span =>
        rw [hdescribes.time span hspan] at hspan
        simpa [DatasetQuery.timeMatches, hspan, Catalog.rangeMatches] using hrange
  have hbox : DatasetQuery.boxMatches ⟨product, range, extent⟩ record = true := by
    cases extent with
    | none => rfl
    | some wanted =>
      cases hcolumn : record.box with
      | none => simp [DatasetQuery.boxMatches, hcolumn]
      | some column =>
        have hfound := hdescribes.box column hcolumn
        rw [Dataset.geographicBox?, Dataset.footprintIn, if_pos hcrs.symm] at hfound
        replace hfound : d.footprint.box? = some column := Except.ok.inj hfound
        obtain ⟨bounds, hbounds, hmeets⟩ := Polygon.box?_of_overlaps hextent
        rw [hfound] at hbounds
        cases hbounds
        simp [DatasetQuery.boxMatches, hcolumn, not_apart_of_intersects hmeets]
  rw [DatasetQuery.finds, htime, hbox, Bool.and_true, Bool.and_true]

omit [Reprojection Rat] in
/-- Two tests of the members of a list keep the same where they agree on what later tests keep. -/
theorem filter_filterMap_congr {α β : Type} {l : List α} {f : α → Option β} {p q : α → Bool}
    {wanted wanted' : β → Bool}
    (h : ∀ a ∈ l, ∀ b, f a = some b → (p a && wanted b) = (q a && wanted' b)) :
    ((l.filter p).filterMap f).filter wanted = ((l.filter q).filterMap f).filter wanted' := by
  induction l with
  | nil => rfl
  | cons a rest ih =>
    have hrest := ih fun a' ha' => h a' (List.mem_cons_of_mem a ha')
    have hhead := h a List.mem_cons_self
    cases hf : f a with
    | none => cases hp : p a <;> cases hq : q a <;> simp [hp, hq, hf, hrest]
    | some b =>
      have hab := hhead b hf
      cases hp : p a <;> cases hq : q a <;> rw [hp, hq] at hab <;>
        cases hw : wanted b <;> cases hw' : wanted' b <;> simp_all

/-- The datasets of a request in longitude and latitude that a cell should list. -/
def showing (catalog : Catalog Rat V) (r : LoadRequest Rat) (config : LoaderConfig)
    (plan : LoadPlan Rat V) (key : TileKey) : List (Dataset Rat) :=
  (catalog.datasetsOf fun record => record.product == plan.product.name).filter fun d =>
    Catalog.rangeMatches r.timeRange d && Catalog.extentMatches r.extent d.footprint &&
      Cells.shows plan.grid plan.grouping config.densifyPoints key d

/-- The contributors of a cell, when everything is in longitude and latitude. -/
theorem contributors_geographic {r : LoadRequest Rat} {config : LoaderConfig}
    {catalog : Catalog Rat V} (hindexed : IsIndexed catalog) {plan : LoadPlan Rat V}
    (h : r.plan config catalog = .ok plan) (hcrs : plan.grid.crs = .wgs84)
    (hextentCrs : r.extentCrs.getD .wgs84 = .wgs84) {key : TileKey} (hkey : key ∈ plan.keys) :
    (plan.contributors key).Perm ((showing catalog r config plan key).map Dataset.id) := by
  obtain ⟨extent, box, area, hextent, hbox, -, hcells⟩ := contributors_placed h
  obtain ⟨-, -, -, hgrid, -⟩ := plan_ok h
  have hflaw := (of_outputGrid hgrid).1
  rw [hcrs] at hextent hbox
  have hasked : extent = r.extent := by
    unfold outputExtent at hextent
    rw [hextentCrs] at hextent
    cases hr : r.extent <;> rw [hr] at hextent <;> cases hextent <;> rfl
  have hsearched : box = r.extent := by
    subst hasked
    cases hr : r.extent <;> rw [hr] at hbox <;> cases hbox <;> rfl
  obtain ⟨htile, hperm⟩ := hcells key hkey
  refine hperm.trans (List.Perm.of_eq (congrArg (List.map Dataset.id) ?_))
  -- what is left of the three filters is the same, record by record
  rw [hasked, hsearched, hcrs]
  simp only [Cells.placed_eq_belongs hflaw, Cells.belongs_eq_shows htile]
  refine filter_filterMap_congr fun record hrecord d hd => ?_
  obtain ⟨hdcrs, hdescribes⟩ := hindexed record hrecord d hd
  rw [admits_geographic hdcrs]
  cases hrange : Catalog.rangeMatches r.timeRange d with
  | false => simp
  | true =>
    cases hmatch : Catalog.extentMatches r.extent d.footprint with
    | false => simp
    | true => rw [finds_of_matches hdcrs hdescribes hrange hmatch]

omit [Reprojection Rat] in
/-- The grid of a load does not depend on the extent. -/
theorem outputGrid_extent (r : LoadRequest Rat) (extent : Option (Box Rat)) (config : LoaderConfig)
    (p : Product Rat V) :
    outputGrid { r with extent := extent } config p = r.outputGrid config p := rfl

/-- Requests that differ only in the extent have the same product, grid and time slices. -/
theorem same_of_extent {r : LoadRequest Rat} {config : LoaderConfig} {catalog : Catalog Rat V}
    {extent : Option (Box Rat)} {plan plan' : LoadPlan Rat V}
    (h : r.plan config catalog = .ok plan)
    (h' : LoadRequest.plan { r with extent := extent } config catalog = .ok plan') :
    plan'.product = plan.product ∧ plan'.grid = plan.grid ∧ plan'.grouping = plan.grouping := by
  obtain ⟨_, _, hproduct, hgrid, hgrouping, -⟩ := plan_ok h
  obtain ⟨_, _, hproduct', hgrid', hgrouping', -⟩ := plan_ok h'
  have hp : plan'.product = plan.product := Except.ok.inj (hproduct'.symm.trans hproduct)
  rw [outputGrid_extent, hp] at hgrid'
  exact ⟨hp, Except.ok.inj (hgrid'.symm.trans hgrid), hgrouping'.trans hgrouping.symm⟩

end Exact

/-- The contributors of every cell of a plan. For coordinates of any kind they are the datasets of
the records that the columns let through, which match the range and the extent, show ground of the
cell and are come by in the search for tiles. In exact arithmetic, with everything in longitude and
latitude, the columns and the search take nothing away; then two requests that differ only in the
extent give a cell the same contributors if both extents match the same datasets of the cell. -/
theorem contributors_of_plan (V : Type) :
    (∀ {K : Type} [Coordinate K] [Reprojection K] {r : LoadRequest K} {config : LoaderConfig}
        {catalog : Catalog K V} {plan : LoadPlan K V}, r.plan config catalog = .ok plan →
      ∃ extent box area, r.outputExtent config plan.grid.crs = .ok extent ∧
        Catalog.searchBox extent plan.grid.crs config.densifyPoints = .ok box ∧
        (∀ asked, extent = some asked → area = asked) ∧
        ∀ key ∈ plan.keys, (plan.contributors key).Perm
          (((catalog.datasetsOf (DatasetQuery.finds ⟨plan.product.name, r.timeRange, box⟩)).filter
            fun d => Catalog.admits config.densifyPoints r.timeRange extent plan.grid.crs d &&
              (Cells.shows plan.grid plan.grouping config.densifyPoints key d &&
                Cells.comesBy plan.grid area config.densifyPoints key.tile d)).map Dataset.id)) ∧
    ∀ [Reprojection Rat] {r : LoadRequest Rat} {config : LoaderConfig} {catalog : Catalog Rat V},
      IsIndexed catalog → r.extentCrs.getD .wgs84 = .wgs84 →
      ∀ {plan : LoadPlan Rat V}, r.plan config catalog = .ok plan → plan.grid.crs = .wgs84 →
      ∀ key ∈ plan.keys,
        (plan.contributors key).Perm ((showing catalog r config plan key).map Dataset.id) ∧
        ∀ extent plan', LoadRequest.plan { r with extent := extent } config catalog = .ok plan' →
          key ∈ plan'.keys →
          (∀ d ∈ catalog.datasetsOf fun record => record.product == plan.product.name,
            Cells.shows plan.grid plan.grouping config.densifyPoints key d = true →
              Catalog.extentMatches r.extent d.footprint =
                Catalog.extentMatches extent d.footprint) →
          (plan.contributors key).Perm (plan'.contributors key) := by
  refine ⟨?_, ?_⟩
  · intro K _ _ r config catalog plan h
    obtain ⟨extent, box, area, hextent, hbox, hasked, hcells⟩ := contributors_placed h
    refine ⟨extent, box, area, hextent, hbox, hasked, fun key hkey => ?_⟩
    obtain ⟨htile, hperm⟩ := hcells key hkey
    simpa only [Cells.placed, Cells.belongs_eq_shows htile] using hperm
  · intro _ r config catalog hindexed hextentCrs plan h hcrs key hkey
    have hown := contributors_geographic hindexed h hcrs hextentCrs hkey
    refine ⟨hown, fun extent plan' h' hkey' hsame => ?_⟩
    obtain ⟨hproduct, hgrid, hgrouping⟩ := same_of_extent h h'
    have hother := contributors_geographic hindexed h' (hgrid ▸ hcrs) hextentCrs hkey'
    refine hown.trans (List.Perm.trans (List.Perm.of_eq ?_) hother.symm)
    unfold showing
    rw [hproduct, hgrid, hgrouping]
    refine congrArg (List.map Dataset.id) (List.filter_congr fun d hd => ?_)
    cases hshows : Cells.shows plan.grid plan.grouping config.densifyPoints key d with
    | false => simp
    | true => rw [hsame d hd hshows]

section Example

attribute [local instance] Exact.unmoved

/-- The members of the document of a scene of four by four pixels north of the equator. -/
def sceneMembers (time : String) (west : Int) : List (String × Json) :=
  [("time", .string time), ("crs", .string "EPSG:4326"),
    ("geotransform", .array [.int west, .int 1, .int 0, .int 4, .int 0, .int (-1)]),
    ("shape", .array [.int 4, .int 4]),
    ("measurements", .object [("red", .object [("path", .string "red.tif")])])]

/-- The document of a scene of the beginning of 2020. -/
def sceneDocument (west : Int) : Json := .object (sceneMembers "2020-01-01T00:00:00Z" west)

variable {K V : Type} [Coordinate K]

/-- The product of the scenes, on tiles of eight by eight pixels. -/
def sceneProduct (nodata : V) : Product K V where
  name := "scenes"
  measurements := [⟨"red", .float32, nodata, "", .nearest, none, []⟩]
  grid := some ⟨.wgs84, ⟨1.0, -1.0⟩, ⟨8.0, 8.0⟩, ⟨0.0, 0.0⟩, 0⟩

/-- The record of a scene, with the box round it as a column. -/
def sceneRecord (number : Nat) (west : Int) : DatasetRecord K :=
  { id := ⟨BitVec.ofNat 128 number⟩, product := "scenes", time := none
    box := some ⟨Coordinate.ofInt west, 0.0, Coordinate.ofInt (west + 4), 4.0⟩
    metadata := sceneDocument west }

/-- Two scenes side by side in one tile. -/
def sceneCatalog (nodata : V) : Catalog K V where
  products := ⟨[("scenes", sceneProduct nodata)]⟩
  records := ⟨[(⟨1#128⟩, sceneRecord 1 0), (⟨2#128⟩, sceneRecord 2 4)]⟩

/-- A request for the scenes between two longitudes. -/
def sceneRequest (west east : K) : LoadRequest K :=
  { product := "scenes", extent := some ⟨west, 1.0, east, 3.0⟩ }

/-- The cell in which both scenes lie: the tile at the origin at the beginning of 2020. -/
def sceneKey : TileKey := ⟨⟨1577836800, 0⟩, ⟨0, 0⟩⟩

/-- Whether a plan gives the cell of the scenes the contributors with the given numbers. -/
def contributorsAre (ids : List DatasetId) (plan : LoadPlan K V) : Bool :=
  decide (sceneKey ∈ plan.keys ∧ plan.contributors sceneKey = ids)

/-- The columns of both records hold the boxes of their scenes. -/
theorem isIndexed_sceneCatalog : IsIndexed (sceneCatalog (K := Rat) (0.0 : Float32)) := by
  have htest : ∀ record ∈ (sceneCatalog (K := Rat) (0.0 : Float32)).records.values,
      record.time = none ∧ record.readable?.all (fun d => decide (d.crs = .wgs84 ∧
        (d.geographicBox? DatasetRecord.boxPoints).toOption = some record.box)) = true := by
    decide +kernel
  intro record hrecord d hd
  obtain ⟨htime, hread⟩ := htest record hrecord
  rw [hd] at hread
  obtain ⟨hcrs, hbox⟩ := of_decide_eq_true hread
  refine ⟨hcrs, fun span hspan => ?_, fun b hb => ?_⟩
  · rw [htime] at hspan
    cases hspan
  · rw [← hb]
    cases hresult : d.geographicBox? DatasetRecord.boxPoints with
    | error cause => rw [hresult] at hbox; cases hbox
    | ok found => rw [hresult] at hbox; cases hbox; rfl

/-- Both scenes are listed, however far beyond the border between them the extent reaches. -/
theorem contributors_of_neighbouring_scenes :
    ∃ narrow wide : LoadPlan Rat Float32,
      (sceneRequest 3 5).plan {} (sceneCatalog 0.0) = .ok narrow ∧
      (sceneRequest 1 7).plan {} (sceneCatalog 0.0) = .ok wide ∧
      (narrow.contributors sceneKey).Perm [⟨1#128⟩, ⟨2#128⟩] ∧
      (narrow.contributors sceneKey).Perm (wide.contributors sceneKey) := by
  have hordered : (sceneCatalog (K := Rat) (0.0 : Float32)).records.values.Pairwise
      fun a b => (a.cmp b).isLE = true := by decide +kernel
  obtain ⟨narrow, hnarrow, htest⟩ := exists_ok_of_test
    ((sceneRequest (3 : Rat) 5).plan {} (sceneCatalog (0.0 : Float32)))
    (fun plan => decide (plan.grid.crs = .wgs84 ∧ sceneKey ∈ plan.keys ∧
      (showing (sceneCatalog (0.0 : Float32)) (sceneRequest 3 5) {} plan sceneKey).map Dataset.id =
        [⟨1#128⟩, ⟨2#128⟩])) (by
      simp only [plan, Catalog.findDatasets, Catalog.search, Catalog.found_of_ordered hordered]
      decide +kernel)
  obtain ⟨wide, hwide, hkey'⟩ := exists_ok_of_test
    ((sceneRequest (1 : Rat) 7).plan {} (sceneCatalog (0.0 : Float32)))
    (fun plan => decide (sceneKey ∈ plan.keys)) (by
      simp only [plan, Catalog.findDatasets, Catalog.search, Catalog.found_of_ordered hordered]
      decide +kernel)
  have hsame : ∀ d ∈ (sceneCatalog (0.0 : Float32)).datasetsOf fun _ => true,
      Catalog.extentMatches (sceneRequest (3 : Rat) 5).extent d.footprint =
        Catalog.extentMatches (sceneRequest (1 : Rat) 7).extent d.footprint := by decide +kernel
  obtain ⟨hcrs, hkey, hshowing⟩ := of_decide_eq_true htest
  obtain ⟨hlisted, hother⟩ := (contributors_of_plan Float32).2 isIndexed_sceneCatalog rfl hnarrow
    hcrs sceneKey hkey
  rw [hshowing] at hlisted
  refine ⟨narrow, wide, hnarrow, hwide, hlisted, ?_⟩
  refine hother (sceneRequest 1 7).extent wide hwide (of_decide_eq_true hkey') fun d hd _ =>
    hsame d (Catalog.datasetsOf_subset _ hd)

/-- Both scenes show ground of the cell, and a request for a part of the tile lists only the one
that lies in that part. -/
theorem contributors_change_with_extent :
    ∃ west east : LoadPlan Float Float32,
      (sceneRequest 1.0 3.0).plan {} (sceneCatalog 0.0) = .ok west ∧
      (sceneRequest 5.0 7.0).plan {} (sceneCatalog 0.0) = .ok east ∧
      (sceneKey ∈ west.keys ∧ west.contributors sceneKey = [⟨1#128⟩]) ∧
      (sceneKey ∈ east.keys ∧ east.contributors sceneKey = [⟨2#128⟩]) ∧
      (((sceneCatalog (0.0 : Float32)).datasetsOf fun record =>
        record.product == west.product.name).filter fun d =>
          Cells.shows west.grid west.grouping 20 sceneKey d).map Dataset.id =
            [⟨1#128⟩, ⟨2#128⟩] := by
  obtain ⟨west, hwest, htest⟩ := exists_ok_of_test ((sceneRequest 1.0 3.0).plan {}
    (sceneCatalog (K := Float) (0.0 : Float32)))
    (fun plan => contributorsAre [⟨1#128⟩] plan &&
      decide ((((sceneCatalog (0.0 : Float32)).datasetsOf fun record =>
        record.product == plan.product.name).filter fun d =>
          Cells.shows plan.grid plan.grouping 20 sceneKey d).map Dataset.id =
            [⟨1#128⟩, ⟨2#128⟩])) (by decide +kernel)
  obtain ⟨east, heast, htest'⟩ := exists_ok_of_test ((sceneRequest 5.0 7.0).plan {}
    (sceneCatalog (K := Float) (0.0 : Float32))) (contributorsAre [⟨2#128⟩]) (by decide +kernel)
  obtain ⟨hlisted, hshowing⟩ := Bool.and_eq_true_iff.mp htest
  exact ⟨west, east, hwest, heast, of_decide_eq_true hlisted, of_decide_eq_true htest',
    of_decide_eq_true hshowing⟩

end Example

end LoadRequest

end Mosaic
