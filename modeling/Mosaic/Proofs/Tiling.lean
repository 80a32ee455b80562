import Mosaic.Load.Cells
import Mosaic.Proofs.Exact

/-!
# Which tiles an extent needs, in exact arithmetic

A tile is needed when its own ground, lower and left edges included, has a part of the extent in it.
The search for the tiles of a footprint starts from the box round the footprint, widened by the
border, and from the ground of all tiles of the extent. No needed tile is lost by it: where a
footprint shares interior with the ground of a tile, border included, the search box comes so close
to the tile that the tile is among those that the search box needs (`reaches_of_overlaps`).
-/

namespace Mosaic

namespace Box

theorem intersects_iff {K : Type} [Coordinate K] {a b : Box K} :
    a.intersects b = true ↔
      (a.minX < b.maxX ∧ b.minX < a.maxX) ∧ a.minY < b.maxY ∧ b.minY < a.maxY := by
  simp only [intersects, Bool.and_eq_true, decide_eq_true_eq, and_assoc]

/-- One box lies in another one, edges included. -/
structure Encloses (outer inner : Box Rat) : Prop where
  left : outer.minX ≤ inner.minX
  below : outer.minY ≤ inner.minY
  right : inner.maxX ≤ outer.maxX
  above : inner.maxY ≤ outer.maxY

theorem Encloses.refl (b : Box Rat) : Encloses b b := ⟨le_rfl, le_rfl, le_rfl, le_rfl⟩

theorem Encloses.trans {a b c : Box Rat} (hab : Encloses a b) (hbc : Encloses b c) :
    Encloses a c :=
  ⟨hab.left.trans hbc.left, hab.below.trans hbc.below, hbc.right.trans hab.right,
    hbc.above.trans hab.above⟩

theorem union_encloses_left (a b : Box Rat) : Encloses (a.union b) a := by
  constructor <;> simp [union]

theorem union_encloses_right (a b : Box Rat) : Encloses (a.union b) b := by
  constructor <;> simp [union]

/-- A union over a list encloses the box that it starts from. -/
theorem foldl_union_encloses_start (boxes : List (Box Rat)) (b : Box Rat) :
    Encloses (boxes.foldl union b) b := by
  induction boxes generalizing b with
  | nil => exact Encloses.refl b
  | cons head rest ih => exact (ih (b.union head)).trans (union_encloses_left b head)

/-- A union over a list encloses every box of the list. -/
theorem foldl_union_encloses {boxes : List (Box Rat)} {inner : Box Rat} (h : inner ∈ boxes)
    (b : Box Rat) : Encloses (boxes.foldl union b) inner := by
  induction boxes generalizing b with
  | nil => cases h
  | cons head rest ih =>
    rcases List.mem_cons.mp h with rfl | h
    · exact (foldl_union_encloses_start rest _).trans (union_encloses_right b inner)
    · exact ih h (b.union head)

end Box

/-- A footprint that shares interior with a box has a box of its own which intersects it. -/
theorem Polygon.box?_of_overlaps {K : Type} [Coordinate K] {g : Polygon K} {b : Box K}
    (h : g.overlaps b = true) : ∃ bounds, g.box? = some bounds ∧ bounds.intersects b = true := by
  simp only [Polygon.overlaps] at h
  split at h
  · exact absurd h Bool.false_ne_true
  · cases hbox : g.box? with
    | none =>
      rw [hbox] at h
      exact absurd h Bool.false_ne_true
    | some bounds =>
      rw [hbox] at h
      exact ⟨bounds, rfl, (Bool.and_eq_true_iff.mp h).1⟩

namespace Grid

theorem tileSize_pos {g : Grid Rat} (h : g.flaw? = none) : 0 < g.tileSize.x ∧ 0 < g.tileSize.y := by
  unfold flaw? at h
  split at h
  · cases h
  split at h
  · cases h
  · rename_i _ hsize
    simp only [Bool.not_eq_true', Bool.and_eq_true, decide_eq_true_eq, Bool.not_eq_false] at hsize
    obtain ⟨⟨hwidth, hheight⟩, -⟩ := hsize
    norm_num at hwidth hheight
    exact ⟨hwidth, hheight⟩

/-- Tiles lie in the order of their numbers. -/
theorem extentOf_mono {g : Grid Rat} (hgrid : g.flaw? = none) {s t : TileIndex} :
    (s.x ≤ t.x → (g.extentOf s).minX ≤ (g.extentOf t).minX ∧
      (g.extentOf s).maxX ≤ (g.extentOf t).maxX) ∧
    (s.y ≤ t.y → (g.extentOf s).minY ≤ (g.extentOf t).minY ∧
      (g.extentOf s).maxY ≤ (g.extentOf t).maxY) := by
  obtain ⟨hwidth, hheight⟩ := tileSize_pos hgrid
  simp only [extentOf, Exact.ofInt_eq]
  constructor
  · intro hle
    have hscaled : (s.x : Rat) * g.tileSize.x ≤ t.x * g.tileSize.x :=
      mul_le_mul_of_nonneg_right (by exact_mod_cast hle) hwidth.le
    constructor <;> linarith
  · intro hle
    have hscaled : (s.y : Rat) * g.tileSize.y ≤ t.y * g.tileSize.y :=
      mul_le_mul_of_nonneg_right (by exact_mod_cast hle) hheight.le
    constructor <;> linarith

theorem margin_nonneg (g : Grid Rat) : 0 ≤ g.margin.x ∧ 0 ≤ g.margin.y := by
  simp only [margin, Exact.ofNat_eq, Exact.abs_eq]
  constructor <;> positivity

/-! ## Tiles along one axis -/

/-- A tile is not before the first one of a range that begins before the upper end of the tile. -/
theorem indexBounds_start_le {lower upper step : Rat} (hstep : 0 < step) {i : Int}
    (h : lower < (i + 1) * step) : (indexBounds lower upper step).1 ≤ i := by
  have hi : lower / step < ((i + 1 : Int) : Rat) := by
    rw [div_lt_iff₀ hstep]
    push_cast
    exact h
  simp only [indexBounds, Exact.toInt_floor]
  exact Int.lt_add_one_iff.mp (Rat.floor_lt_iff.mpr hi)

/-- A tile is before the end of a range that ends after the lower end of the tile. -/
theorem lt_indexBounds_stop {lower upper step : Rat} (hstep : 0 < step) {i : Int}
    (h : i * step < upper) : i < (indexBounds lower upper step).2 := by
  have hi : (i : Rat) < upper / step := (lt_div_iff₀ hstep).mpr h
  simp only [indexBounds, Exact.toInt_ceil]
  exact lt_max_of_lt_left (Rat.lt_ceil_iff.mpr hi)

theorem extentNeeds_iff {K : Type} [Coordinate K] {g : Grid K} {extent : Box K} {t : TileIndex} :
    g.extentNeeds extent t = true ↔
      ((g.columnBounds extent).1 ≤ t.x ∧ t.x < (g.columnBounds extent).2) ∧
        (g.rowBounds extent).1 ≤ t.y ∧ t.y < (g.rowBounds extent).2 := by
  simp only [extentNeeds, Bool.and_eq_true, decide_eq_true_eq, and_assoc]

/-- An extent needs every tile whose ground it intersects. -/
theorem extentNeeds_of_intersects {g : Grid Rat} (h : g.flaw? = none) {extent : Box Rat}
    {t : TileIndex} (hx : extent.minX < (g.extentOf t).maxX ∧ (g.extentOf t).minX < extent.maxX)
    (hy : extent.minY < (g.extentOf t).maxY ∧ (g.extentOf t).minY < extent.maxY) :
    g.extentNeeds extent t = true := by
  obtain ⟨hwidth, hheight⟩ := tileSize_pos h
  simp only [extentOf, Exact.ofInt_eq] at hx hy
  rw [extentNeeds_iff]
  refine ⟨⟨indexBounds_start_le hwidth ?_, lt_indexBounds_stop hwidth ?_⟩,
    indexBounds_start_le hheight ?_, lt_indexBounds_stop hheight ?_⟩ <;> linarith

/-- The first tile of an extent is that of its lower left corner, whether the extent has area or
not. -/
theorem cellFor_corner_mem (g : Grid Rat) (extent : Box Rat) :
    g.cellFor ⟨extent.minX, extent.minY⟩ ∈ g.tilesForExtent extent := by
  have hfirst : ∀ lower upper step : Rat,
      (indexBounds lower upper step).1 < (indexBounds lower upper step).2 := by
    intro lower upper step
    simp only [indexBounds, Exact.wrap_eq]
    exact lt_max_of_lt_right (lt_add_one _)
  rw [mem_tilesForExtent, extentNeeds_iff]
  exact ⟨⟨le_rfl, hfirst _ _ _⟩, le_rfl, hfirst _ _ _⟩

end Grid

namespace Cells

section Search

variable {K : Type} [Coordinate K]

/-- Where the tiles of a footprint are looked for: in the box round the footprint, widened by the
border, where it meets the ground of the tiles of an extent. -/
def search? (grid : Grid K) (extent : Box K) (footprint : Polygon K) : Option (Box K) := do
  let bounds ← bounds? grid extent
  searchBox? grid bounds footprint

/-- Whether the search for the tiles of a footprint comes by a tile. -/
def reaches (grid : Grid K) (extent : Box K) (footprint : Polygon K) (tile : TileIndex) : Bool :=
  match search? grid extent footprint with
  | some search => grid.extentNeeds search tile
  | none => false

theorem search?_eq {grid : Grid K} {extent bounds : Box K}
    (hbounds : bounds? grid extent = some bounds) (footprint : Polygon K) :
    search? grid extent footprint = searchBox? grid bounds footprint := by
  unfold search?
  rw [hbounds]
  rfl

end Search

/-- The ground of the tiles of an extent encloses that of each of them. -/
theorem bounds?_encloses {grid : Grid Rat} {extent : Box Rat} {t : TileIndex}
    (h : grid.extentNeeds extent t = true) :
    ∃ bounds, bounds? grid extent = some bounds ∧ bounds.Encloses (grid.paddedExtentOf t) := by
  have hmem : grid.paddedExtentOf t ∈ (grid.tilesForExtent extent).map grid.paddedExtentOf :=
    List.mem_map_of_mem (Grid.mem_tilesForExtent.mpr h)
  unfold bounds?
  cases hboxes : (grid.tilesForExtent extent).map grid.paddedExtentOf with
  | nil => simp [hboxes] at hmem
  | cons b rest =>
    rw [hboxes] at hmem
    refine ⟨rest.foldl Box.union b, rfl, ?_⟩
    rcases List.mem_cons.mp hmem with heq | hrest
    · rw [heq]
      exact Box.foldl_union_encloses_start rest b
    · exact Box.foldl_union_encloses hrest b

/-- An extent always has tiles, and they cover some ground. -/
theorem exists_bounds (grid : Grid Rat) (extent : Box Rat) :
    ∃ bounds, bounds? grid extent = some bounds := by
  have hcorner := grid.cellFor_corner_mem extent
  obtain ⟨bounds, hbounds, -⟩ := bounds?_encloses (Grid.mem_tilesForExtent.mp hcorner)
  exact ⟨bounds, hbounds⟩

theorem reaches_of_overlaps {grid : Grid Rat} (hgrid : grid.flaw? = none) {extent : Box Rat}
    {footprint : Polygon Rat} {t : TileIndex} (hneeds : grid.extentNeeds extent t = true)
    (hoverlaps : footprint.overlaps (grid.paddedExtentOf t) = true) :
    reaches grid extent footprint t = true := by
  obtain ⟨box, hbox, hmeets⟩ := Polygon.box?_of_overlaps hoverlaps
  obtain ⟨bounds, hbounds, henc⟩ := bounds?_encloses hneeds
  obtain ⟨hwidth, hheight⟩ := Grid.tileSize_pos hgrid
  obtain ⟨hmx, hmy⟩ := Grid.margin_nonneg grid
  obtain ⟨hleft, hbelow, hright, habove⟩ := henc
  obtain ⟨⟨h1, h2⟩, h3, h4⟩ := Box.intersects_iff.mp hmeets
  simp only [Grid.paddedExtentOf, Box.pad] at h1 h2 h3 h4 hleft hbelow hright habove
  -- the box of the footprint meets the bordered tile, so that, widened by the border, it meets the
  -- tile itself, and the ground of all tiles encloses both
  have hown : (grid.extentOf t).minX < (grid.extentOf t).maxX ∧
      (grid.extentOf t).minY < (grid.extentOf t).maxY := by
    simp only [Grid.extentOf]
    constructor <;> linarith
  have hshare : (box.pad grid.margin.x grid.margin.y).intersects bounds = true := by
    rw [Box.intersects_iff]
    simp only [Box.pad]
    refine ⟨⟨?_, ?_⟩, ?_, ?_⟩ <;> linarith
  unfold reaches
  rw [search?_eq hbounds, searchBox?, hbox]
  simp only [Option.bind_eq_bind, Option.bind_some, Box.intersection?, if_pos hshare]
  refine Grid.extentNeeds_of_intersects hgrid ?_ ?_ <;>
    simp only [Box.pad, Exact.maximum_eq, Exact.minimum_eq, max_lt_iff, lt_min_iff] <;>
    refine ⟨⟨?_, ?_⟩, ?_, ?_⟩ <;> linarith

end Cells

end Mosaic
