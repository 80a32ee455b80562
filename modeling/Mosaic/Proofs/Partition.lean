import Mosaic.Proofs.Tiling
import Mosaic.Proofs.Validation

/-!
# Tiles as a partition of the plane

A tile owns its lower and left edges and not the other two, so a point is owned by one tile and by no
other: the one whose numbers are the whole parts of its distance from the origin in tiles
(`owns_iff`). An extent needs the tiles between two such whole parts along either axis, the first
one rounded down and the last one up. For an extent with area these are the tiles whose ground it
intersects (`extentNeeds_iff_intersects`), listed row by row.
-/

namespace Mosaic

/-- Row by row, and along a row, each tile is listed before the next one. -/
def TileIndex.RowMajor (s t : TileIndex) : Prop := s.y < t.y ∨ s.y = t.y ∧ s.x < t.x

namespace Grid

section General

variable {K : Type} [Coordinate K]

/-- Whether a point lies on the ground of a tile, with its lower and left edges and without its upper
and right ones. -/
def Owns (g : Grid K) (t : TileIndex) (p : Point K) : Prop :=
  ((g.extentOf t).minX ≤ p.x ∧ p.x < (g.extentOf t).maxX) ∧
    (g.extentOf t).minY ≤ p.y ∧ p.y < (g.extentOf t).maxY

/-! ## The order of tiles -/

theorem pairwise_indexRange (bounds : Int × Int) : (indexRange bounds).Pairwise (· < ·) := by
  unfold indexRange
  refine List.pairwise_map.mpr (List.pairwise_lt_range.imp ?_)
  intro n m h
  omega

/-- The tiles of an extent ascend strictly, row by row. -/
theorem pairwise_tilesForExtent (g : Grid K) (extent : Box K) :
    (g.tilesForExtent extent).Pairwise TileIndex.RowMajor := by
  unfold tilesForExtent
  rw [List.pairwise_flatMap]
  constructor
  · intro y _
    refine List.pairwise_map.mpr ((pairwise_indexRange (g.columnBounds extent)).imp ?_)
    intro x x' hx
    exact .inr ⟨rfl, hx⟩
  · refine (pairwise_indexRange (g.rowBounds extent)).imp ?_
    intro y y' hy s hs t ht
    obtain ⟨x, -, rfl⟩ := List.mem_map.mp hs
    obtain ⟨x', -, rfl⟩ := List.mem_map.mp ht
    exact .inl hy

end General

/-! ## One axis -/

section Axis

variable {lower upper step x : Rat} {i : Int}

/-- The whole part of a quotient, told by multiples of the divisor. -/
theorem floor_div_eq_iff (hstep : 0 < step) :
    (x / step).floor = i ↔ i * step ≤ x ∧ x < (i + 1) * step := by
  rw [← le_div_iff₀ hstep, ← div_lt_iff₀ hstep]
  exact Int.floor_eq_iff (a := x / step)

theorem indexBounds_start_le_iff (hstep : 0 < step) :
    (indexBounds lower upper step).1 ≤ i ↔ lower < (i + 1) * step := by
  refine ⟨fun h => ?_, indexBounds_start_le hstep⟩
  rw [← div_lt_iff₀ hstep]
  simp only [indexBounds, Exact.toInt_floor] at h
  exact_mod_cast Rat.floor_lt_iff.mp (Int.lt_add_one_iff.mpr h)

/-- Where the bounds differ the last number is the last one before the upper bound. -/
theorem lt_indexBounds_stop_iff (hstep : 0 < step) (hbounds : lower < upper) :
    i < (indexBounds lower upper step).2 ↔ i * step < upper := by
  refine ⟨fun h => ?_, lt_indexBounds_stop hstep⟩
  have hlower : (lower / step).floor < (upper / step).ceil := by
    rw [Rat.lt_ceil_iff]
    calc ((lower / step).floor : Rat) ≤ lower / step := Rat.floor_le _
      _ < upper / step := div_lt_div_of_pos_right hbounds hstep
  simp only [indexBounds, Exact.toInt_floor, Exact.toInt_ceil, Exact.wrap_eq] at h
  rw [max_eq_left (Int.add_one_le_iff.mpr hlower)] at h
  exact (lt_div_iff₀ hstep).mp (Rat.lt_ceil_iff.mp h)

end Axis

/-! ## Points and extents -/

variable {g : Grid Rat}

/-- A point is owned by its own tile and by no other one. -/
theorem owns_iff (hgrid : g.flaw? = none) {t : TileIndex} {p : Point Rat} :
    g.Owns t p ↔ g.cellFor p = t := by
  obtain ⟨hwidth, hheight⟩ := tileSize_pos hgrid
  obtain ⟨i, j⟩ := t
  have haxis : ∀ {origin step x : Rat} {i : Int}, 0 < step →
      (((x - origin) / step).floor = i ↔
        origin + i * step ≤ x ∧ x < origin + i * step + step) := by
    intro origin step x i hstep
    rw [floor_div_eq_iff hstep]
    constructor <;> rintro ⟨hlow, hhigh⟩ <;> constructor <;> linarith
  simp only [cellFor, Exact.toInt_floor, TileIndex.mk.injEq]
  rw [haxis hwidth, haxis hheight]
  rfl

/-- An extent with area needs the tiles whose ground it intersects, and no other ones. -/
theorem extentNeeds_iff_intersects (hgrid : g.flaw? = none) {extent : Box Rat}
    (hx : extent.minX < extent.maxX) (hy : extent.minY < extent.maxY) {t : TileIndex} :
    g.extentNeeds extent t = true ↔ (g.extentOf t).intersects extent = true := by
  obtain ⟨hwidth, hheight⟩ := tileSize_pos hgrid
  rw [extentNeeds_iff, Box.intersects_iff, columnBounds, rowBounds,
    indexBounds_start_le_iff hwidth, lt_indexBounds_stop_iff hwidth (by linarith),
    indexBounds_start_le_iff hheight, lt_indexBounds_stop_iff hheight (by linarith)]
  simp only [extentOf, Exact.ofInt_eq]
  constructor <;> rintro ⟨⟨h1, h2⟩, h3, h4⟩ <;> refine ⟨⟨?_, ?_⟩, ?_, ?_⟩ <;> linarith

/-- A point of an extent, its upper and right edges excluded, lies in a tile that the extent
needs. -/
theorem cellFor_mem_tilesForExtent (hgrid : g.flaw? = none) {extent : Box Rat} {p : Point Rat}
    (hx : extent.minX ≤ p.x ∧ p.x < extent.maxX) (hy : extent.minY ≤ p.y ∧ p.y < extent.maxY) :
    g.cellFor p ∈ g.tilesForExtent extent := by
  obtain ⟨hownX, hownY⟩ := (owns_iff hgrid).mpr (rfl : g.cellFor p = g.cellFor p)
  rw [mem_tilesForExtent]
  exact extentNeeds_of_intersects hgrid ⟨hx.1.trans_lt hownX.2, hownX.1.trans_lt hx.2⟩
    ⟨hy.1.trans_lt hownY.2, hownY.1.trans_lt hy.2⟩

/-- The tiles of a sound grid are a partition of the plane, and the tiles of an extent are those that
it takes of it. A point lies on the ground of the tile that it is said to be in and on that of no
other one. The tiles of an extent are listed once each, row by row. With area an extent has the tiles
that it intersects, among them that of every point which is not on its upper or right edge, and
without area it still has the tile of its corner. -/
theorem tiles_partition (hgrid : g.validate = .ok ()) :
    (∀ t p, g.Owns t p ↔ g.cellFor p = t) ∧
    ∀ extent : Box Rat,
      (g.tilesForExtent extent).Nodup ∧
      (g.tilesForExtent extent).Pairwise TileIndex.RowMajor ∧
      (extent.minX < extent.maxX → extent.minY < extent.maxY →
        (∀ t, t ∈ g.tilesForExtent extent ↔ (g.extentOf t).intersects extent = true) ∧
        ∀ p : Point Rat, extent.minX ≤ p.x ∧ p.x < extent.maxX →
          extent.minY ≤ p.y ∧ p.y < extent.maxY → g.cellFor p ∈ g.tilesForExtent extent) ∧
      (extent.isValid = true → extent.minX = extent.maxX ∨ extent.minY = extent.maxY →
        g.cellFor ⟨extent.minX, extent.minY⟩ ∈ g.tilesForExtent extent) := by
  have hgrid := validate_eq_ok.mp hgrid
  refine ⟨fun t p => owns_iff hgrid, fun extent => ⟨?_, g.pairwise_tilesForExtent extent, ?_, ?_⟩⟩
  · refine (g.pairwise_tilesForExtent extent).imp ?_
    rintro s _ hbefore rfl
    rcases hbefore with hrow | ⟨-, hcolumn⟩
    · exact lt_irrefl _ hrow
    · exact lt_irrefl _ hcolumn
  · intro hx hy
    exact ⟨fun t => mem_tilesForExtent.trans (extentNeeds_iff_intersects hgrid hx hy),
      fun p => cellFor_mem_tilesForExtent hgrid⟩
  · exact fun _ _ => g.cellFor_corner_mem extent

section Example

/-- Tiles of four by two pixels, the columns of which run westward, off the origin of the axes. -/
def shiftedGrid : Grid Rat := ⟨.wgs84, ⟨-1 / 4, 1 / 2⟩, ⟨1, 1⟩, ⟨1 / 3, -1 / 2⟩, 1⟩

/-- The corner that four tiles share lies in the upper right one of them. An extent that ends there
has the tile below and left of it only, and the corner as an extent has the tile that it lies in. -/
theorem tiles_partition_at_corner :
    shiftedGrid.validate = .ok () ∧ shiftedGrid.Owns ⟨-2, 1⟩ ⟨-5 / 3, 1 / 2⟩ ∧
      ¬shiftedGrid.Owns ⟨-3, 0⟩ ⟨-5 / 3, 1 / 2⟩ ∧
      (∀ t, t ∈ shiftedGrid.tilesForExtent ⟨-2, 0, -5 / 3, 1 / 2⟩ ↔
        (shiftedGrid.extentOf t).intersects ⟨-2, 0, -5 / 3, 1 / 2⟩ = true) ∧
      ⟨-3, 0⟩ ∈ shiftedGrid.tilesForExtent ⟨-2, 0, -5 / 3, 1 / 2⟩ ∧
      ⟨-2, 1⟩ ∈ shiftedGrid.tilesForExtent ⟨-5 / 3, 1 / 2, -5 / 3, 1 / 2⟩ := by
  have hgrid : shiftedGrid.validate = .ok () := validate_eq_ok.mpr (by decide +kernel)
  obtain ⟨howns, htiles⟩ := tiles_partition hgrid
  obtain ⟨-, -, harea, -⟩ := htiles ⟨-2, 0, -5 / 3, 1 / 2⟩
  obtain ⟨hmem, hpoints⟩ := harea (by norm_num) (by norm_num)
  have hcorner := (htiles ⟨-5 / 3, 1 / 2, -5 / 3, 1 / 2⟩).2.2.2 (by decide +kernel) (.inl rfl)
  have hcell : shiftedGrid.cellFor ⟨-5 / 3, 1 / 2⟩ = ⟨-2, 1⟩ := by decide +kernel
  have hinside : shiftedGrid.cellFor ⟨-2, 0⟩ = ⟨-3, 0⟩ := by decide +kernel
  refine ⟨hgrid, (howns _ _).mpr hcell, ?_, hmem, ?_, hcell ▸ hcorner⟩
  · rw [howns, hcell]
    decide
  · exact hinside ▸ hpoints ⟨-2, 0⟩ (by norm_num) (by norm_num)

end Example

end Grid

end Mosaic
