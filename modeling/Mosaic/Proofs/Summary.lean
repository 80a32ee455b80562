import Mosaic.Load.Summary
import Mosaic.Proofs.Contributors
import Mosaic.Proofs.Footprint
import Mosaic.Proofs.Stacking

/-!
# What a summary tells of a load

A summary is made of the cells of a plan and of nothing else. Its times, tiles and datasets are those
of the cells, each once and in order (`LoadPlan.mem_ascending`, `LoadPlan.pairwise_ascending`), and
the mosaic reaches from the least to the greatest number of a tile along either axis
(`LoadPlan.spanSize_eq`). Counts of pixels are words, so a side of the mosaic is told up to whole
turns through all words, and taking the border off again undoes what adding it has done even where
that went past the last word (`LoadPlan.pixelsAlong_eq`).
-/

namespace Mosaic

open Std (TransOrd LawfulEqOrd)

/-! ## Lists in ascending order -/

namespace LoadPlan

section Ascending

variable {α : Type} [Ord α] [TransOrd α] [LawfulEqOrd α]

theorem sorted_foldl_insert {set : SortedMap α Unit} (h : set.Sorted) (items : List α) :
    (items.foldl (fun (set : SortedMap α Unit) a => set.insert a ()) set).Sorted := by
  induction items generalizing set with
  | nil => exact h
  | cons a rest ih => exact ih (SortedMap.sorted_insert h a ())

theorem pairwise_ascending (items : List α) :
    (ascending items).Pairwise fun a b => compare a b = .lt :=
  sorted_foldl_insert SortedMap.sorted_empty items

theorem nodup_ascending (items : List α) : (ascending items).Nodup := by
  refine (pairwise_ascending items).imp ?_
  rintro a b hlt rfl
  simp [Std.ReflOrd.compare_self] at hlt

theorem mem_keys_foldl_insert {set : SortedMap α Unit} (h : set.Sorted) (items : List α) (a : α) :
    a ∈ (items.foldl (fun (set : SortedMap α Unit) a => set.insert a ()) set).keys ↔
      a ∈ set.keys ∨ a ∈ items := by
  induction items generalizing set with
  | nil => simp
  | cons b rest ih =>
    rw [List.foldl_cons, ih (SortedMap.sorted_insert h b ()), SortedMap.mem_keys_insert h,
      List.mem_cons]
    tauto

theorem mem_ascending {items : List α} {a : α} : a ∈ ascending items ↔ a ∈ items := by
  have hempty : a ∉ (∅ : SortedMap α Unit).keys := List.not_mem_nil
  unfold ascending
  rw [mem_keys_foldl_insert SortedMap.sorted_empty, or_iff_right hempty]

end Ascending

/-! ## The span of a list of numbers -/

theorem foldl_extremes (numbers : List Int) (least greatest : Int) :
    numbers.foldl (fun range y => (min range.1 y, max range.2 y)) (least, greatest) =
      (numbers.foldl min least, numbers.foldl max greatest) := by
  induction numbers generalizing least greatest with
  | nil => rfl
  | cons y rest ih => exact ih (min least y) (max greatest y)

/-- Numbers reach from one of them to another one when no number lies outside. -/
theorem spanSize_eq {numbers : List Int} {least greatest : Int} (hleast : least ∈ numbers)
    (hgreatest : greatest ∈ numbers) (h : ∀ x ∈ numbers, least ≤ x ∧ x ≤ greatest) :
    spanSize numbers = (greatest - least + 1).toNat := by
  have hmin : numbers.min? = some least :=
    List.min?_eq_some_iff.mpr ⟨hleast, fun x hx => (h x hx).1⟩
  have hmax : numbers.max? = some greatest :=
    List.max?_eq_some_iff.mpr ⟨hgreatest, fun x hx => (h x hx).2⟩
  cases numbers with
  | nil => cases hleast
  | cons x rest =>
    have hfirst : rest.foldl min x = least := Option.some_inj.mp hmin
    have hlast : rest.foldl max x = greatest := Option.some_inj.mp hmax
    rw [spanSize, extremes?, foldl_extremes, hfirst, hlast]

/-! ## Words -/

section Words

variable {K V : Type}

theorem toNat_ofNat_word (n : Nat) : (UInt64.ofNat n).toNat = n % UInt64.size := UInt64.toNat_ofNat

/-- A side of the mosaic is told up to whole turns through all words. -/
theorem pixelsAlong_eq (grid : Grid K) (tiles inner : Nat) :
    pixelsAlong grid tiles ((UInt64.ofNat (inner + 2 * grid.padding)).toNat) =
      tiles * inner % UInt64.size := by
  unfold pixelsAlong
  rw [UInt64.ofNat_toNat, UInt64.ofNat_add, UInt64.add_sub_cancel, ← UInt64.ofNat_mul,
    toNat_ofNat_word]

/-- Taking the border off underflows exactly where adding it has gone past the last word. -/
theorem border_le_iff {inner border : Nat} (h : inner < UInt64.size) :
    border ≤ (inner + border) % UInt64.size ↔ inner + border < UInt64.size := by
  constructor
  · intro hle
    by_contra hge
    have hturns : UInt64.size ≤ inner + border := not_lt.mp hge
    have hless : (inner + border) % UInt64.size ≤ inner + border - UInt64.size := by
      rw [Nat.mod_eq_sub_mod hturns]
      exact Nat.mod_le _ _
    omega
  · intro hlt
    rw [Nat.mod_eq_of_lt hlt]
    omega

end Words

/-! ## The tiles of a plan -/

variable {K V : Type} {p : LoadPlan K V} {first last : TileIndex}

/-- The tiles at the lower left and the upper right of the smallest block that holds all cells. -/
structure SpansTiles (p : LoadPlan K V) (first last : TileIndex) : Prop where
  inside : ∀ key ∈ p.keys, first.x ≤ key.tile.x ∧ key.tile.x ≤ last.x ∧
    first.y ≤ key.tile.y ∧ key.tile.y ≤ last.y
  left : ∃ key ∈ p.keys, key.tile.x = first.x
  right : ∃ key ∈ p.keys, key.tile.x = last.x
  below : ∃ key ∈ p.keys, key.tile.y = first.y
  above : ∃ key ∈ p.keys, key.tile.y = last.y

theorem exists_extremes {numbers : List Int} (h : numbers ≠ []) :
    ∃ least ∈ numbers, ∃ greatest ∈ numbers, ∀ x ∈ numbers, least ≤ x ∧ x ≤ greatest := by
  obtain ⟨least, hmin⟩ := Option.ne_none_iff_exists'.mp (mt List.min?_eq_none_iff.mp h)
  obtain ⟨greatest, hmax⟩ := Option.ne_none_iff_exists'.mp (mt List.max?_eq_none_iff.mp h)
  obtain ⟨hleast, hle⟩ := List.min?_eq_some_iff.mp hmin
  obtain ⟨hgreatest, hge⟩ := List.max?_eq_some_iff.mp hmax
  exact ⟨least, hleast, greatest, hgreatest, fun x hx => ⟨hle x hx, hge x hx⟩⟩

theorem exists_spansTiles (h : p.keys ≠ []) : ∃ first last, p.SpansTiles first last := by
  have hkeys : ∀ f : TileKey → Int, p.keys.map f ≠ [] := fun f => mt List.map_eq_nil_iff.mp h
  obtain ⟨minX, hminX, maxX, hmaxX, hx⟩ := exists_extremes (hkeys fun key => key.tile.x)
  obtain ⟨minY, hminY, maxY, hmaxY, hy⟩ := exists_extremes (hkeys fun key => key.tile.y)
  refine ⟨⟨minX, minY⟩, ⟨maxX, maxY⟩, fun key hkey => ?_, List.mem_map.mp hminX,
    List.mem_map.mp hmaxX, List.mem_map.mp hminY, List.mem_map.mp hmaxY⟩
  have hx := hx _ (List.mem_map_of_mem hkey)
  have hy := hy _ (List.mem_map_of_mem hkey)
  exact ⟨hx.1, hx.2, hy.1, hy.2⟩

theorem mem_tiles {tile : TileIndex} : tile ∈ p.tiles ↔ ∃ key ∈ p.keys, key.tile = tile := by
  unfold tiles
  rw [mem_ascending, List.mem_map]

theorem mem_times {time : Instant} : time ∈ p.times ↔ ∃ key ∈ p.keys, key.time = time := by
  unfold times
  rw [mem_ascending, List.mem_map]

/-- The tiles reach from the one end of the block to the other along an axis. -/
theorem spanSize_tiles {axis : TileIndex → Int} {least greatest : Int}
    (hleast : ∃ key ∈ p.keys, axis key.tile = least)
    (hgreatest : ∃ key ∈ p.keys, axis key.tile = greatest)
    (h : ∀ key ∈ p.keys, least ≤ axis key.tile ∧ axis key.tile ≤ greatest) :
    spanSize (p.tiles.map axis) = (greatest - least + 1).toNat := by
  have hmem : ∀ x, (∃ key ∈ p.keys, axis key.tile = x) → x ∈ p.tiles.map axis := by
    rintro x ⟨key, hkey, rfl⟩
    exact List.mem_map_of_mem (mem_tiles.mpr ⟨key, hkey, rfl⟩)
  refine spanSize_eq (hmem least hleast) (hmem greatest hgreatest) fun x hx => ?_
  obtain ⟨tile, htile, rfl⟩ := List.mem_map.mp hx
  obtain ⟨key, hkey, rfl⟩ := mem_tiles.mp htile
  exact h key hkey

variable [Coordinate K]

theorem mosaic_eq (h : p.SpansTiles first last) :
    p.mosaic = (p.times.length,
      ⟨(last.y - first.y + 1).toNat * p.grid.innerShape.height % UInt64.size,
        (last.x - first.x + 1).toNat * p.grid.innerShape.width % UInt64.size⟩) := by
  have hrows : spanSize (p.tiles.map TileIndex.y) = (last.y - first.y + 1).toNat :=
    spanSize_tiles h.below h.above fun key hkey => (h.inside key hkey).2.2
  have hcolumns : spanSize (p.tiles.map TileIndex.x) = (last.x - first.x + 1).toNat :=
    spanSize_tiles h.left h.right fun key hkey =>
      ⟨(h.inside key hkey).1, (h.inside key hkey).2.1⟩
  unfold mosaic
  rw [hrows, hcolumns]
  exact congrArg (Prod.mk _) (congrArg₂ PixelShape.mk (pixelsAlong_eq ..) (pixelsAlong_eq ..))

theorem mosaic_eq_zero (h : p.keys = []) : p.mosaic = (0, ⟨0, 0⟩) ∧ p.bounds? = none := by
  have htimes : p.times = [] := by
    unfold times
    rw [h]
    rfl
  have htiles : p.tiles = [] := by
    unfold tiles
    rw [h]
    rfl
  have hnone : ∀ pixels, pixelsAlong p.grid 0 pixels = 0 := by
    intro pixels
    unfold pixelsAlong
    rw [show UInt64.ofNat 0 = 0 from rfl, UInt64.zero_mul]
    rfl
  unfold mosaic bounds?
  rw [htimes, htiles]
  exact ⟨congrArg (Prod.mk 0) (congrArg₂ PixelShape.mk (hnone _) (hnone _)), rfl⟩

/-! ## The datasets of a plan -/

omit [Coordinate K] in
theorem mem_datasets (hcells : p.cells.Sorted) {id : DatasetId} :
    id ∈ p.datasets ↔ ∃ key ∈ p.keys, id ∈ p.contributors key := by
  unfold datasets contributors keys
  rw [mem_ascending]
  constructor
  · intro h
    obtain ⟨d, hd, rfl⟩ := List.mem_map.mp h
    obtain ⟨stack, hstack, hd⟩ := List.mem_flatten.mp hd
    obtain ⟨key, hkey⟩ := (SortedMap.mem_values_iff hcells).mp hstack
    refine ⟨key, (SortedMap.mem_keys_iff _ _).mpr (by rw [hkey]; rfl), ?_⟩
    rw [hkey]
    exact List.mem_map_of_mem hd
  · rintro ⟨key, hkey, h⟩
    obtain ⟨stack, hstack⟩ := SortedMap.exists_find? hkey
    rw [hstack] at h
    obtain ⟨d, hd, rfl⟩ := List.mem_map.mp h
    refine List.mem_map_of_mem (List.mem_flatten.mpr ⟨stack, ?_, hd⟩)
    exact (SortedMap.mem_values_iff hcells).mpr ⟨key, hstack⟩

/-! ## The ground of all tiles, in exact arithmetic -/

section Exact

variable {p : LoadPlan Rat V} {first last : TileIndex}

/-- The ground of all tiles goes from the lower left corner of the block to its upper right one. -/
theorem bounds?_eq (hgrid : p.grid.flaw? = none) (h : p.SpansTiles first last) :
    p.bounds? = some ⟨(p.grid.extentOf first).minX, (p.grid.extentOf first).minY,
      (p.grid.extentOf last).maxX, (p.grid.extentOf last).maxY⟩ := by
  have htile : ∀ key ∈ p.keys, p.grid.extentOf key.tile ∈ p.tiles.map p.grid.extentOf :=
    fun key hkey => List.mem_map_of_mem (mem_tiles.mpr ⟨key, hkey, rfl⟩)
  refine Catalog.unionOf?_eq_some ?_ (fun b hb => ?_) fun outer houter => ?_
  · obtain ⟨key, hkey, -⟩ := h.left
    exact List.ne_nil_of_mem (htile key hkey)
  · obtain ⟨tile, htile, rfl⟩ := List.mem_map.mp hb
    obtain ⟨key, hkey, rfl⟩ := mem_tiles.mp htile
    obtain ⟨hleft, hright, hbelow, habove⟩ := h.inside key hkey
    exact ⟨((Grid.extentOf_mono hgrid).1 hleft).1, ((Grid.extentOf_mono hgrid).2 hbelow).1,
      ((Grid.extentOf_mono hgrid).1 hright).2, ((Grid.extentOf_mono hgrid).2 habove).2⟩
  -- each side of the block is a side of some tile of the plan
  · obtain ⟨left, hleft, hx⟩ := h.left
    obtain ⟨right, hright, hx'⟩ := h.right
    obtain ⟨below, hbelow, hy⟩ := h.below
    obtain ⟨above, habove, hy'⟩ := h.above
    exact ⟨(houter _ (htile left hleft)).left.trans ((Grid.extentOf_mono hgrid).1 hx.le).1,
      (houter _ (htile below hbelow)).below.trans ((Grid.extentOf_mono hgrid).2 hy.le).1,
      ((Grid.extentOf_mono hgrid).1 hx'.ge).2.trans (houter _ (htile right hright)).right,
      ((Grid.extentOf_mono hgrid).2 hy'.ge).2.trans (houter _ (htile above habove)).above⟩

end Exact

end LoadPlan

/-! ## A summary and its plan -/

/-- A summary tells of a plan what there is in its cells. A side of the mosaic is right unless it is
longer than a word can tell. -/
structure LoadSummary.Summarizes {K V : Type} [Coordinate K] (s : LoadSummary K)
    (p : LoadPlan K V) : Prop where
  times : s.times.Pairwise (· < ·)
  mem_times : ∀ time, time ∈ s.times ↔ ∃ key ∈ p.keys, key.time = time
  tiles : s.tiles.Pairwise fun a b => compare a b = .lt
  mem_tiles : ∀ tile, tile ∈ s.tiles ↔ ∃ key ∈ p.keys, key.tile = tile
  datasets : ∃ ids : List DatasetId, ids.Nodup ∧
    (∀ id, id ∈ ids ↔ ∃ key ∈ p.keys, id ∈ p.contributors key) ∧ s.datasetCount = ids.length
  warnings : s.warnings = p.warnings
  nothing : p.keys = [] → s.mosaic = (0, ⟨0, 0⟩) ∧ s.bounds = none
  mosaic : ∀ first last, p.SpansTiles first last →
    let height := (last.y - first.y + 1).toNat * p.grid.innerShape.height
    let width := (last.x - first.x + 1).toNat * p.grid.innerShape.width
    s.mosaic = (s.times.length, ⟨height % UInt64.size, width % UInt64.size⟩) ∧
      (s.mosaic = (s.times.length, ⟨height, width⟩) ↔
        height < UInt64.size ∧ width < UInt64.size)
  spans : p.keys ≠ [] → ∃ first last, p.SpansTiles first last

/-- The counts of pixels of a tile without its border are words. -/
theorem Grid.innerShape_lt_size (g : Grid Float) :
    g.innerShape.height < UInt64.size ∧ g.innerShape.width < UInt64.size := by
  have hword : ∀ x : Float, Coordinate.toNat x < UInt64.size := by
    intro x
    show (Binary.toIntClamped 0 (2 ^ (64 : Nat) - 1) x).toNat < UInt64.size
    have hmost : Binary.toIntClamped 0 (2 ^ (64 : Nat) - 1) x ≤ 2 ^ (64 : Nat) - 1 :=
      max_le (by decide) (min_le_left _ _)
    have hsize : UInt64.size = 2 ^ 64 := rfl
    omega
  exact ⟨hword _, hword _⟩

namespace LoadRequest

/-- The cells of a plan are in order. -/
theorem sorted_cells_of_plan {K V : Type} [Coordinate K] [Reprojection K] {r : LoadRequest K}
    {config : LoaderConfig} {catalog : Catalog K V} {p : LoadPlan K V}
    (h : r.plan config catalog = .ok p) : p.cells.Sorted := by
  obtain ⟨extent, found, -, -, -, -, -, hcells⟩ := plan_ok h
  unfold cellsOf at hcells
  split at hcells
  · split at hcells
    · rw [← Except.ok.inj hcells]
      exact SortedMap.sorted_empty
    · exact Cells.sorted_resolve hcells
  · rw [← Except.ok.inj hcells]
    exact SortedMap.sorted_empty

theorem summarizes_of_plan {K V : Type} [Coordinate K] [Reprojection K] {r : LoadRequest K}
    {config : LoaderConfig} {catalog : Catalog K V} {p : LoadPlan K V}
    (h : r.plan config catalog = .ok p) : p.summary.Summarizes p where
  times := LoadPlan.pairwise_ascending _
  mem_times _ := LoadPlan.mem_times
  tiles := LoadPlan.pairwise_ascending _
  mem_tiles _ := LoadPlan.mem_tiles
  datasets := ⟨p.datasets, LoadPlan.nodup_ascending _,
    fun _ => LoadPlan.mem_datasets (sorted_cells_of_plan h), rfl⟩
  warnings := rfl
  nothing := LoadPlan.mosaic_eq_zero
  mosaic first last hspans := by
    have hmosaic : p.summary.mosaic = _ := LoadPlan.mosaic_eq hspans
    refine ⟨hmosaic, ?_⟩
    have hsize : 0 < UInt64.size := by decide
    rw [hmosaic, Prod.mk.injEq, PixelShape.mk.injEq, Nat.mod_eq_iff_lt hsize.ne',
      Nat.mod_eq_iff_lt hsize.ne']
    exact and_iff_right rfl
  spans := LoadPlan.exists_spansTiles

/-- A summary and a load of one request. Both fail in the same way or none does, and then the summary
tells what there is in the cells of the load. A side of the mosaic is told up to whole turns through
all words. With doubles, taking the border off the pixels of a tile underflows exactly where the
border has taken them past the last word. In exact arithmetic the ground of all tiles goes from the
lower left corner of the block of tiles to its upper right one. -/
theorem describe_summarizes (V : Type) :
    (∀ {K : Type} [Coordinate K] [Reprojection K] (r : LoadRequest K) (config : LoaderConfig)
        (catalog : Catalog K V),
      (∀ stop, r.describe config catalog = .error stop ↔ r.plan config catalog = .error stop) ∧
      ∀ p, r.plan config catalog = .ok p →
        ∃ s, r.describe config catalog = .ok s ∧ s.Summarizes p) ∧
    (∀ (r : LoadRequest Float) (config : LoaderConfig) (catalog : Catalog Float V)
        (p : LoadPlan Float V), r.plan config catalog = .ok p →
      ∃ s, r.describe config catalog = .ok s ∧
        (2 * p.grid.padding ≤ s.tileShape.height ↔
          p.grid.innerShape.height + 2 * p.grid.padding < UInt64.size) ∧
        (2 * p.grid.padding ≤ s.tileShape.width ↔
          p.grid.innerShape.width + 2 * p.grid.padding < UInt64.size)) ∧
    ∀ [Reprojection Rat] (r : LoadRequest Rat) (config : LoaderConfig) (catalog : Catalog Rat V)
        (p : LoadPlan Rat V), r.plan config catalog = .ok p →
      ∀ first last, p.SpansTiles first last → ∃ s, r.describe config catalog = .ok s ∧
        s.bounds = some ⟨(p.grid.extentOf first).minX, (p.grid.extentOf first).minY,
          (p.grid.extentOf last).maxX, (p.grid.extentOf last).maxY⟩ := by
  have hdescribe : ∀ {K : Type} [Coordinate K] [Reprojection K] {r : LoadRequest K}
      {config : LoaderConfig} {catalog : Catalog K V} {p : LoadPlan K V},
      r.plan config catalog = .ok p → r.describe config catalog = .ok p.summary :=
    fun h => map_eq_ok.mpr ⟨_, h, rfl⟩
  refine ⟨?_, ?_, ?_⟩
  · intro K _ _ r config catalog
    exact ⟨fun stop => map_eq_error, fun p h => ⟨p.summary, hdescribe h, summarizes_of_plan h⟩⟩
  · intro r config catalog p h
    obtain ⟨hheight, hwidth⟩ := p.grid.innerShape_lt_size
    refine ⟨p.summary, hdescribe h, ?_, ?_⟩
    · show _ ≤ (UInt64.ofNat (p.grid.innerShape.height + 2 * p.grid.padding)).toNat ↔ _
      rw [LoadPlan.toNat_ofNat_word]
      exact LoadPlan.border_le_iff hheight
    · show _ ≤ (UInt64.ofNat (p.grid.innerShape.width + 2 * p.grid.padding)).toNat ↔ _
      rw [LoadPlan.toNat_ofNat_word]
      exact LoadPlan.border_le_iff hwidth
  · intro _ r config catalog p h first last hspans
    obtain ⟨extent, found, -, hgrid, -⟩ := plan_ok h
    exact ⟨p.summary, hdescribe h, LoadPlan.bounds?_eq (of_outputGrid hgrid).1 hspans⟩

section Example

attribute [local instance] Exact.unmoved

/-- Three scenes on two days: two on the first, with a tile between theirs, and one on the second.
-/
def seriesCatalog : Catalog Rat Float32 where
  products := ⟨[("scenes", sceneProduct 0.0)]⟩
  records := ⟨[(⟨1#128⟩, sceneRecord 1 0), (⟨2#128⟩, sceneRecord 2 16),
    (⟨3#128⟩, { (sceneRecord 3 0 : DatasetRecord Rat) with
      metadata := .object (sceneMembers "2020-01-02T00:00:00Z" 0) })]⟩

/-- A summary of three scenes in three cells. The mosaic has the two times, and reaches across the
tile between those of the cells. -/
theorem describe_summarizes_series :
    ∃ p s, ({ product := "scenes" } : LoadRequest Rat).plan {} seriesCatalog = .ok p ∧
      ({ product := "scenes" } : LoadRequest Rat).describe {} seriesCatalog = .ok s ∧
      p.SpansTiles ⟨0, 0⟩ ⟨2, 0⟩ ∧ s.Summarizes p ∧
      s.times = [⟨1577836800, 0⟩, ⟨1577923200, 0⟩] ∧ s.tiles = [⟨0, 0⟩, ⟨2, 0⟩] ∧
      s.datasetCount = 3 ∧ s.mosaic = (2, ⟨8, 24⟩) ∧ s.bounds = some ⟨0, 0, 24, 8⟩ := by
  have hordered : seriesCatalog.records.values.Pairwise fun a b => (a.cmp b).isLE = true := by
    decide +kernel
  obtain ⟨p, hplan, htest⟩ := exists_ok_of_test
    (({ product := "scenes" } : LoadRequest Rat).plan {} seriesCatalog)
    (fun p => decide (p.keys = [⟨⟨1577836800, 0⟩, ⟨0, 0⟩⟩, ⟨⟨1577836800, 0⟩, ⟨2, 0⟩⟩,
        ⟨⟨1577923200, 0⟩, ⟨0, 0⟩⟩] ∧
      p.keys.flatMap p.contributors = [⟨1#128⟩, ⟨2#128⟩, ⟨3#128⟩] ∧
      p.grid.innerShape = ⟨8, 8⟩ ∧
      (p.grid.extentOf ⟨0, 0⟩).minX = 0 ∧ (p.grid.extentOf ⟨0, 0⟩).minY = 0 ∧
      (p.grid.extentOf ⟨2, 0⟩).maxX = 24 ∧ (p.grid.extentOf ⟨2, 0⟩).maxY = 8)) (by
      simp only [plan, Catalog.findDatasets, Catalog.search, Catalog.found_of_ordered hordered]
      decide +kernel)
  obtain ⟨hkeys, hids, hshape, hminX, hminY, hmaxX, hmaxY⟩ := of_decide_eq_true htest
  have hspans : p.SpansTiles ⟨0, 0⟩ ⟨2, 0⟩ := by
    constructor <;> rw [hkeys] <;> decide
  obtain ⟨hgeneral, -, hexact⟩ := describe_summarizes Float32
  obtain ⟨s, hs, hsummary⟩ := (hgeneral _ _ _).2 p hplan
  obtain ⟨s', hs', hbounds⟩ := hexact _ _ _ p hplan _ _ hspans
  cases hs.symm.trans hs'
  have htimes : s.times = [⟨1577836800, 0⟩, ⟨1577923200, 0⟩] := by
    have hascending : s.times.Pairwise fun a b => compare a b = .lt := hsummary.times
    refine eq_of_mem_iff_of_pairwise_lt hascending (by decide) fun time => ?_
    rw [hsummary.mem_times, hkeys]
    simp [eq_comm]
  have htiles : s.tiles = [⟨0, 0⟩, ⟨2, 0⟩] := by
    refine eq_of_mem_iff_of_pairwise_lt hsummary.tiles (by decide) fun tile => ?_
    rw [hsummary.mem_tiles, hkeys]
    simp [eq_comm, or_comm]
  have hcount : s.datasetCount = 3 := by
    obtain ⟨ids, hnodup, hmem, hcount⟩ := hsummary.datasets
    have hperm : ids.Perm [⟨1#128⟩, ⟨2#128⟩, ⟨3#128⟩] := by
      refine (List.perm_ext_iff_of_nodup hnodup (by decide)).mpr fun id => ?_
      rw [hmem, ← List.mem_flatMap, hids]
    rw [hcount, hperm.length_eq]
    rfl
  refine ⟨p, s, hplan, hs, hspans, hsummary, htimes, htiles, hcount, ?_, ?_⟩
  · rw [((hsummary.mosaic _ _ hspans).2).mpr (by rw [hshape]; decide), htimes, hshape]
    decide
  · rw [hbounds, hminX, hminY, hmaxX, hmaxY]

/-- A catalog of one scene across two rows of tiles, each of `2 ^ 63` rows of pixels. -/
def fineCatalog : Catalog Float Float32 where
  products := ⟨[("scenes", { (sceneProduct 0.0 : Product Float Float32) with
    grid := some ⟨.wgs84, ⟨8.673617379884035e-19, -8.673617379884035e-19⟩, ⟨8.0, 8.0⟩,
      ⟨0.0, 0.0⟩, 0⟩ })]⟩
  records := ⟨[(⟨1#128⟩,
    { id := ⟨1#128⟩, product := "scenes", time := none, box := none
      metadata := .object [("time", .string "2020-01-01T00:00:00Z"), ("crs", .string "EPSG:4326"),
        ("geotransform", .array [.int 1, .int 1, .int 0, .int 1, .int 0, .int (-1)]),
        ("shape", .array [.int 2, .int 2]),
        ("measurements", .object [("red", .object [("path", .string "a")])])] })]⟩

/-- The mosaic of two rows of such tiles is told to have no rows. -/
theorem mosaic_beyond_words : ∃ (p : LoadPlan Float Float32) (s : LoadSummary Float),
    ({ product := "scenes" } : LoadRequest Float).plan {} fineCatalog = .ok p ∧
    ({ product := "scenes" } : LoadRequest Float).describe {} fineCatalog = .ok s ∧
    p.grid.flaw? = none ∧ p.grid.padding = 0 ∧
    p.grid.innerShape = ⟨9223372036854775808, 9223372036854775808⟩ ∧
    p.keys.map TileKey.tile = [⟨0, -1⟩, ⟨0, 0⟩] ∧
    s.mosaic = (1, ⟨0, 9223372036854775808⟩) ∧
    s.mosaic.2.height ≠ 2 * p.grid.innerShape.height := by
  obtain ⟨p, hplan, htest⟩ := exists_ok_of_test
    (({ product := "scenes" } : LoadRequest Float).plan {} fineCatalog)
    (fun p => decide (p.grid.flaw? = none ∧ p.grid.padding = 0 ∧
      p.grid.innerShape = ⟨9223372036854775808, 9223372036854775808⟩ ∧
      p.keys.map TileKey.tile = [⟨0, -1⟩, ⟨0, 0⟩] ∧ p.mosaic = (1, ⟨0, 9223372036854775808⟩)))
    (by decide +kernel)
  obtain ⟨hflaw, hpadding, hshape, htiles, hmosaic⟩ := of_decide_eq_true htest
  refine ⟨p, p.summary, hplan, map_eq_ok.mpr ⟨p, hplan, rfl⟩, hflaw, hpadding, hshape, htiles,
    hmosaic, ?_⟩
  show p.mosaic.2.height ≠ _
  rw [hmosaic, hshape]
  decide

end Example

end LoadRequest

end Mosaic
