import Mathlib.Algebra.BigOperators.Group.Finset.Basic
import Mosaic.Proofs.Coverage
import Mosaic.Proofs.NativeGrid

/-!
# Tiles of blocks of a raster

Where every pixel of a tile is a block of whole pixels of a raster, the methods that look at an area
aggregate the blocks as a whole: the mean or the most frequent value of the pixels that hold data,
and nodata where the block has none (`warp_downsampled`). The area of a pixel, its corners being
corners of pixels, holds the centres of its block and no others, at every edge and in every
direction of rows and columns. The pixel under the centre, which is looked at last, belongs to the
block.
-/

namespace Mosaic

open Exact (Reading)
open Warp

/-! ## Blocks -/

/-- A block of pixels of a raster, which may lie outside the raster in part or as a whole. -/
structure PixelBlock where
  top : Int
  left : Int
  height : Nat
  width : Nat

namespace PixelBlock

/-- A pixel belongs to a block. -/
def Holds (b : PixelBlock) (row col : Int) : Prop :=
  (b.top ≤ row ∧ row < b.top + b.height) ∧ b.left ≤ col ∧ col < b.left + b.width

instance (b : PixelBlock) (row col : Int) : Decidable (b.Holds row col) :=
  inferInstanceAs (Decidable (_ ∧ _))

/-- The ground of a block. -/
def area (b : PixelBlock) : PixelFootprint Rat :=
  ⟨b.left, b.top, b.left + b.width, b.top + b.height⟩

theorem le_add_half_iff {n i : Int} : (n : Rat) ≤ i + 1 / 2 ↔ n ≤ i := by
  constructor
  · intro h
    have hlt : (n : Rat) < ((i + 1 : Int) : Rat) := by
      push_cast
      linarith
    exact Int.lt_add_one_iff.mp (Int.cast_lt.mp hlt)
  · intro h
    have hle : (n : Rat) ≤ i := Int.cast_le.mpr h
    linarith

theorem add_half_lt_iff {n i : Int} : (i : Rat) + 1 / 2 < n ↔ i < n := by
  rw [← not_le, le_add_half_iff, not_le]

/-- The ground of a block holds the centres of its pixels and no others. -/
theorem holdsCentre_area {b : PixelBlock} {row col : Int} :
    b.area.HoldsCentre row col ↔ b.Holds row col := by
  have hend : ∀ (first : Int) (size : Nat),
      (first : Rat) + size = ((first + size : Int) : Rat) := by
    intro first size
    push_cast
    rfl
  unfold PixelFootprint.HoldsCentre area Holds
  simp only [hend, le_add_half_iff, add_half_lt_iff]
  exact and_comm

end PixelBlock

/-- The pixels of a tile are blocks of `ky` rows and `kx` columns of a raster that is not rotated,
and run in the same directions. The first block begins with the pixel of the raster in row `rows`
and column `cols`, which may lie outside the raster. -/
structure Dataset.SharesBlocks (d : Dataset Rat) (grid : Grid Rat) (tile : TileIndex) (kx ky : Nat)
    (rows cols : Int) : Prop where
  invertible : Affine.ofGeoTransform d.transform.forward = .ok d.transform
  rx_eq : d.transform.forward.rx = 0
  ry_eq : d.transform.forward.ry = 0
  kx_pos : 1 ≤ kx
  ky_pos : 1 ≤ ky
  resolution_x : grid.resolution.x = kx * d.transform.forward.dx
  resolution_y : grid.resolution.y = ky * d.transform.forward.dy
  x_eq : (grid.pixelOrigin tile).x = d.transform.forward.x0 + cols * d.transform.forward.dx
  y_eq : (grid.pixelOrigin tile).y = d.transform.forward.y0 + rows * d.transform.forward.dy

/-- The block of a pixel of a tile. -/
def PixelBlock.ofTarget (kx ky : Nat) (rows cols : Int) (row col : Nat) : PixelBlock :=
  ⟨rows + row * ky, cols + col * kx, ky, kx⟩

/-- A pixel of a raster belongs to the block of one pixel of a tile at most. -/
theorem PixelBlock.ofTarget_unique {kx ky : Nat} {rows cols : Int} {row col row' col' : Nat}
    {i j : Int} (h : (ofTarget kx ky rows cols row col).Holds i j)
    (h' : (ofTarget kx ky rows cols row' col').Holds i j) : row = row' ∧ col = col' := by
  -- a block begins where the one before it ends
  have haxis : ∀ {k n n' : Nat} {first i : Int}, first + n * k ≤ i → i < first + n' * k + k →
      n ≤ n' := by
    intro k n n' first i hle hlt
    by_contra hless
    have hstep : (n' + 1) * k ≤ n * k := Nat.mul_le_mul_right k (not_le.mp hless)
    have : ((n' + 1 : Nat) * k : Int) ≤ n * k := by exact_mod_cast hstep
    push_cast at this
    linarith
  obtain ⟨⟨htop, hbottom⟩, hleft, hright⟩ := h
  obtain ⟨⟨htop', hbottom'⟩, hleft', hright'⟩ := h'
  exact ⟨le_antisymm (haxis htop hbottom') (haxis htop' hbottom),
    le_antisymm (haxis hleft hright') (haxis hleft' hright)⟩

namespace Dataset.SharesBlocks

variable {d : Dataset Rat} {grid : Grid Rat} {tile : TileIndex} {kx ky : Nat} {rows cols : Int}

/-- A step of one pixel in the tile is a step over a block in the raster. -/
theorem worldToPixel_eq (h : d.SharesBlocks grid tile kx ky rows cols) (s t : Rat) :
    d.transform.worldToPixel ⟨(grid.pixelOrigin tile).x + s * grid.resolution.x,
      (grid.pixelOrigin tile).y + t * grid.resolution.y⟩ = ⟨cols + s * kx, rows + t * ky⟩ := by
  rw [← Affine.worldToPixel_pixelToWorld h.invertible ⟨cols + s * kx, rows + t * ky⟩, h.x_eq, h.y_eq]
  unfold Affine.pixelToWorld GeoTransform.apply
  rw [h.rx_eq, h.ry_eq, h.resolution_x, h.resolution_y]
  exact congrArg d.transform.worldToPixel (congrArg₂ Point.mk (by ring) (by ring))

theorem worldToPixel_center (h : d.SharesBlocks grid tile kx ky rows cols) (row col : Nat) :
    d.transform.worldToPixel (grid.pixelCenter tile row col) =
      ⟨((cols + col * kx : Int) : Rat) + kx / 2, ((rows + row * ky : Int) : Rat) + ky / 2⟩ := by
  refine (h.worldToPixel_eq _ _).trans (congrArg₂ Point.mk ?_ ?_) <;>
    push_cast [Exact.ofNat_eq] <;> ring

/-- The area of a pixel of the tile is the ground of its block. -/
theorem areaOf_eq (h : d.SharesBlocks grid tile kx ky rows cols) (row col : Nat) :
    areaOf d grid tile row col = (PixelBlock.ofTarget kx ky rows cols row col).area := by
  have hcorner : ∀ row col : Nat, d.transform.worldToPixel (grid.pixelCorner tile row col) =
      ⟨(cols : Rat) + col * kx, (rows : Rat) + row * ky⟩ :=
    fun row col => h.worldToPixel_eq col row
  have hsucc : ∀ (first : Int) (n k : Nat),
      (first : Rat) + ((n + 1 : Nat) : Rat) * k = first + n * k + k := by
    intro first n k
    push_cast
    ring
  have hle : ∀ (x : Rat) (k : Nat), x ≤ x + k := fun x k => le_add_of_nonneg_right k.cast_nonneg
  unfold areaOf PixelBlock.ofTarget PixelBlock.area
  simp only [hcorner, hsucc, CornerGrid.least, CornerGrid.greatest, Exact.minimum_eq,
    Exact.maximum_eq, min_self, max_self, min_eq_left (hle _ _), max_eq_right (hle _ _),
    max_eq_left (hle _ _)]
  push_cast
  rfl

end Dataset.SharesBlocks

/-! ## Aggregates -/

namespace MemoryRaster

variable (r : MemoryRaster Reading) (m : Measurement Reading) (b : PixelBlock)

/-- The pixels of a raster in a block that hold data. -/
def dataPixels : Finset (Nat × Nat) :=
  (Finset.range r.shape.height ×ˢ Finset.range r.shape.width).filter fun p =>
    b.Holds p.1 p.2 ∧ (r.dataAt? m p.1 p.2).isSome

/-- The number that a pixel with data holds. -/
def datum (p : Nat × Nat) : Rat := ((r.dataAt? m p.1 p.2).bind Reading.value?).getD 0

/-- The mean of the data in a block. -/
def blockMean : Rat := (∑ p ∈ r.dataPixels m b, r.datum m p) / (r.dataPixels m b).card

/-- How many pixels of a block hold a number. -/
def blockCount (x : Rat) : Nat := ((r.dataPixels m b).filter fun p => r.datum m p = x).card

/-- The number that most pixels of a block hold, and the smallest of several. -/
structure IsBlockMode (x : Rat) : Prop where
  mem : ∃ p ∈ r.dataPixels m b, r.datum m p = x
  most : ∀ p ∈ r.dataPixels m b, r.blockCount m b (r.datum m p) ≤ r.blockCount m b x
  least : ∀ p ∈ r.dataPixels m b, r.blockCount m b (r.datum m p) = r.blockCount m b x →
    x ≤ r.datum m p

/-- The value of a target pixel over a block: nodata where the block has no data, else the mean or
the mode of the data as the type of the measurement holds it. -/
structure Aggregates (v : Reading) : Prop where
  blank : r.dataPixels m b = ∅ → v = m.nodata
  mean : (r.dataPixels m b).Nonempty → m.resampling = .average →
    v = m.dtype.castValid ⟨some (r.blockMean m b)⟩ m.nodata
  mode : (r.dataPixels m b).Nonempty → m.resampling = .mode →
    ∃ x, r.IsBlockMode m b x ∧ v = m.dtype.castValid ⟨some x⟩ m.nodata

variable {r m b}

/-- Of two modes of a block both are as frequent and neither is smaller. -/
theorem IsBlockMode.unique {x y : Rat} (hx : r.IsBlockMode m b x) (hy : r.IsBlockMode m b y) :
    x = y := by
  obtain ⟨⟨p, hp, rfl⟩, hmost, hleast⟩ := hx
  obtain ⟨⟨q, hq, rfl⟩, hmost', hleast'⟩ := hy
  have hsame := le_antisymm (hmost' p hp) (hmost q hq)
  exact le_antisymm (hleast q hq hsame.symm) (hleast' p hp hsame)

theorem isNaN_sample_view {i j : Int} :
    Sample.isNaN ((r.view m).sample i j) = false ↔ (r.dataAt? m i j).isSome := by
  rw [sample_view]
  cases hdata : r.dataAt? m i j with
  | none => exact iff_of_false Bool.noConfusion Bool.noConfusion
  | some v => exact iff_of_true (not_isNaN_of_dataAt? hdata) rfl

theorem sample_view_eq {p : Nat × Nat} (hp : p ∈ r.dataPixels m b) :
    (r.view m).sample p.1 p.2 = ⟨some (r.datum m p)⟩ := by
  obtain ⟨v, hv⟩ := Option.isSome_iff_exists.mp (Finset.mem_filter.mp hp).2.2
  obtain ⟨x, rfl⟩ := Reading.eq_some_of_not_isNaN (not_isNaN_of_dataAt? hv)
  rw [sample_view, datum, hv]
  rfl

/-- The valid pixels on the ground of a block are its pixels with data. -/
theorem validPixels_area : b.area.validPixels (r.view m) = r.dataPixels m b := by
  refine Finset.filter_congr fun p _ => ?_
  rw [PixelBlock.holdsCentre_area, isNaN_sample_view]

end MemoryRaster

/-- Samples of fractions compare as the fractions do, and what is not a number comes first. -/
theorem isMeasure_widen : Sample.IsMeasure (Sample.widen : Reading → Rat) where
  beq_iff {v w} hv hw := by
    obtain ⟨x, rfl⟩ := Reading.eq_some_of_not_isNaN hv
    obtain ⟨y, rfl⟩ := Reading.eq_some_of_not_isNaN hw
    exact beq_iff_eq (a := x) (b := y)
  lt_iff {v w} hv hw := by
    obtain ⟨x, rfl⟩ := Reading.eq_some_of_not_isNaN hv
    obtain ⟨y, rfl⟩ := Reading.eq_some_of_not_isNaN hw
    exact decide_eq_true_iff (p := x < y)
  measure_le {v w} hv hw h := by
    obtain ⟨x, rfl⟩ := Reading.eq_some_of_not_isNaN hv
    obtain ⟨y, rfl⟩ := Reading.eq_some_of_not_isNaN hw
    exact of_decide_eq_true (p := x ≤ y) h
  totalLe_trans u v w huv hvw := by
    obtain ⟨_ | x⟩ := u
    · rfl
    · obtain ⟨_ | y⟩ := v
      · cases huv
      · obtain ⟨_ | z⟩ := w
        · cases hvw
        · exact decide_eq_true (p := x ≤ z)
            (le_trans (of_decide_eq_true (p := x ≤ y) huv) (of_decide_eq_true (p := y ≤ z) hvw))
  totalLe_total v w := by
    obtain ⟨_ | x⟩ := v
    · rfl
    · obtain ⟨_ | y⟩ := w
      · rfl
      · rw [Bool.or_eq_true]
        exact (le_total x y).imp (decide_eq_true (p := x ≤ y)) (decide_eq_true (p := y ≤ x))

/-- The mean of samples of fractions is their sum over their number. -/
theorem Resampling.meanOf_eq (values : List Reading) :
    meanOf values = ⟨some ((values.map Sample.widen).sum / values.length)⟩ := by
  have hsum : values.foldl (fun sum v => sum + Sample.widen v) (0.0 : Rat) =
      (values.map Sample.widen).sum := by
    have hzero : (0.0 : Rat) = 0 := by norm_num
    rw [List.sum_eq_foldl, List.foldl_map, hzero]
  exact congrArg (fun x : Rat => (⟨some (x / (values.length : Rat))⟩ : Reading)) hsum

namespace MemoryRaster

variable {r : MemoryRaster Reading} {m : Measurement Reading} {b : PixelBlock}

theorem coveredValues_area_eq_nil :
    b.area.coveredValues (r.view m) = [] ↔ r.dataPixels m b = ∅ := by
  rw [PixelFootprint.coveredValues_eq_nil_iff, validPixels_area]

/-- The mean over the ground of a block is that of its data. -/
theorem averageIn?_area (hdata : (r.dataPixels m b).Nonempty) :
    Resampling.averageIn? (r.view m) b.area = some ⟨some (r.blockMean m b)⟩ := by
  have hvalues := PixelFootprint.coveredValues_eq b.area (r.view m)
  rw [validPixels_area] at hvalues
  have hlength : (b.area.coveredValues (r.view m)).length = (r.dataPixels m b).card := by
    rw [← Multiset.coe_card, hvalues, Multiset.card_map, Finset.card_val]
  have hsum : ((b.area.coveredValues (r.view m)).map Sample.widen).sum =
      ∑ p ∈ r.dataPixels m b, r.datum m p := by
    rw [← Multiset.sum_coe, ← Multiset.map_coe, hvalues, Multiset.map_map]
    refine congrArg Multiset.sum (Multiset.map_congr rfl fun p hp => ?_)
    rw [Function.comp_apply, sample_view_eq hp]
    rfl
  have hne := coveredValues_area_eq_nil.not.mpr hdata.ne_empty
  unfold Resampling.averageIn?
  split
  · next hnil => exact absurd hnil hne
  · rw [Resampling.meanOf_eq, hsum, hlength]
    rfl

/-- How often a number comes on the ground of a block is how many of its pixels hold it. -/
theorem count_coveredValues_area (x : Rat) :
    (b.area.coveredValues (r.view m)).count ⟨some x⟩ = r.blockCount m b x := by
  rw [PixelFootprint.count_coveredValues, PixelFootprint.frequency, validPixels_area]
  refine congrArg Finset.card (Finset.filter_congr fun p hp => ?_)
  rw [sample_view_eq hp]
  exact beq_iff_eq (a := r.datum m p) (b := x)

/-- The mode on the ground of a block is that of its data. -/
theorem exists_isBlockMode (hdata : (r.dataPixels m b).Nonempty) :
    ∃ x, r.IsBlockMode m b x ∧ Resampling.modeIn? (r.view m) b.area = some ⟨some x⟩ := by
  have hmem : ∀ {p}, p ∈ r.dataPixels m b →
      (⟨some (r.datum m p)⟩ : Reading) ∈ b.area.coveredValues (r.view m) := by
    intro p hp
    exact PixelFootprint.mem_coveredValues.mpr ⟨p, validPixels_area ▸ hp, sample_view_eq hp⟩
  obtain ⟨v, hv⟩ := Option.ne_none_iff_exists'.mp
    (Resampling.modeIn?_eq_none_iff.not.mpr (coveredValues_area_eq_nil.not.mpr hdata.ne_empty))
  obtain ⟨hv', hmost, hleast⟩ := Resampling.isMode_of_modeIn? isMeasure_widen hv
  obtain ⟨p, hp, rfl⟩ := PixelFootprint.mem_coveredValues.mp hv'
  rw [validPixels_area] at hp
  rw [sample_view_eq hp] at hv hmost hleast
  refine ⟨r.datum m p, ⟨⟨p, hp, rfl⟩, fun q hq => ?_, fun q hq hsame => ?_⟩, hv⟩
  · rw [← count_coveredValues_area, ← count_coveredValues_area]
    exact hmost _ (hmem hq)
  · rw [← count_coveredValues_area, ← count_coveredValues_area] at hsame
    rcases hleast _ (hmem hq) hsame with heq | hlt
    · exact (beq_iff_eq (a := r.datum m q).mp heq).ge
    · exact (of_decide_eq_true (p := r.datum m p < r.datum m q) hlt).le

theorem inside_of_dataAt? {i j : Int} (h : (r.dataAt? m i j).isSome) :
    (0 ≤ i ∧ i < r.shape.height) ∧ 0 ≤ j ∧ j < r.shape.width := by
  unfold dataAt? at h
  split at h
  · assumption
  · cases h

/-- The pixel under the middle of a span of pixels is one of them. -/
theorem floor_middle_mem (first : Int) {size : Nat} (hsize : 1 ≤ size) :
    first ≤ ⌊(first : Rat) + size / 2⌋ ∧ ⌊(first : Rat) + size / 2⌋ < first + size := by
  have hpos : (1 : Rat) ≤ size := by exact_mod_cast hsize
  rw [Int.le_floor, Int.floor_lt]
  push_cast
  constructor <;> linarith

/-- Where a block has no data the pixel under its centre has none. -/
theorem isNaN_nearestAt_block (hheight : 1 ≤ b.height) (hwidth : 1 ≤ b.width)
    (hdata : r.dataPixels m b = ∅) :
    Sample.isNaN (Resampling.nearestAt (r.view m) ((b.left : Rat) + b.width / 2)
      ((b.top : Rat) + b.height / 2)) = true := by
  unfold Resampling.nearestAt
  simp only [Exact.isFinite_eq, Bool.and_self, if_true, Exact.toInt_floor]
  by_contra hnumber
  have hsome := isNaN_sample_view.mp (Bool.eq_false_of_not_eq_true hnumber)
  have hrow := floor_middle_mem b.top hheight
  have hcol := floor_middle_mem b.left hwidth
  obtain ⟨⟨hi, hi'⟩, hj, hj'⟩ := inside_of_dataAt? hsome
  obtain ⟨i, heq⟩ := Int.eq_ofNat_of_zero_le hi
  obtain ⟨j, heq'⟩ := Int.eq_ofNat_of_zero_le hj
  rw [heq, heq'] at hsome
  rw [heq] at hi'
  rw [heq'] at hj'
  have hpixel : (i, j) ∈ r.dataPixels m b := by
    refine Finset.mem_filter.mpr ⟨Finset.mem_product.mpr ⟨?_, ?_⟩, ⟨?_, ?_⟩, hsome⟩
    · exact Finset.mem_range.mpr (Int.ofNat_lt.mp hi')
    · exact Finset.mem_range.mpr (Int.ofNat_lt.mp hj')
    · exact heq ▸ hrow
    · exact heq' ▸ hcol
  rw [hdata] at hpixel
  exact absurd hpixel (Finset.notMem_empty _)

/-- Where a block has no data the methods that look at its ground find nothing. -/
theorem isNaN_sampleAt_block {method : Resampling} (harea : method.isArea = true)
    (hheight : 1 ≤ b.height) (hwidth : 1 ≤ b.width) (hdata : r.dataPixels m b = ∅) :
    Sample.isNaN (method.sampleAt (r.view m) ((b.left : Rat) + b.width / 2)
      ((b.top : Rat) + b.height / 2) (some b.area)) = true := by
  have hnil := coveredValues_area_eq_nil.mpr hdata
  have hnearest := isNaN_nearestAt_block hheight hwidth hdata
  cases method with
  | nearest | bilinear | cubic => cases harea
  | mode =>
    show Sample.isNaN ((Resampling.modeIn? (r.view m) b.area).getD _) = true
    rw [Resampling.modeIn?_eq_none_iff.mpr hnil]
    exact hnearest
  | average =>
    have hnone : Resampling.averageIn? (r.view m) b.area = none := by
      unfold Resampling.averageIn?
      rw [hnil]
    show Sample.isNaN ((Resampling.averageIn? (r.view m) b.area).getD _) = true
    rw [hnone]
    exact hnearest

/-- What the methods make of a block is what a target pixel over the block has to show. -/
theorem aggregates_sampleAt (harea : m.resampling.isArea = true) (hheight : 1 ≤ b.height)
    (hwidth : 1 ≤ b.width) :
    let value := m.resampling.sampleAt (r.view m) ((b.left : Rat) + b.width / 2)
      ((b.top : Rat) + b.height / 2) (some b.area)
    r.Aggregates m b
      (if Sample.isNaN value then m.nodata else m.dtype.castValid value m.nodata) where
  blank hdata := if_pos (isNaN_sampleAt_block harea hheight hwidth hdata)
  mean hdata hmethod := by
    rw [hmethod]
    show (if Sample.isNaN ((Resampling.averageIn? (r.view m) b.area).getD _) then _ else
      m.dtype.castValid ((Resampling.averageIn? (r.view m) b.area).getD _) m.nodata) = _
    rw [averageIn?_area hdata]
    rfl
  mode hdata hmethod := by
    obtain ⟨x, hx, hmode⟩ := exists_isBlockMode hdata
    refine ⟨x, hx, ?_⟩
    rw [hmethod]
    show (if Sample.isNaN ((Resampling.modeIn? (r.view m) b.area).getD _) then _ else
      m.dtype.castValid ((Resampling.modeIn? (r.view m) b.area).getD _) m.nodata) = _
    rw [hmode]
    rfl

end MemoryRaster

/-! ## The whole tile -/

/-- Warping a raster onto a tile of blocks of its pixels, by a method that looks at an area: a pixel
whose centre lies in the footprint has the mean or the mode of the data in its block, or nodata
where the block has none. No pixel of the raster has its centre in the areas of two pixels of the
tile. -/
theorem Dataset.warp_downsampled [Reprojection Rat] [Containment Rat] {d : Dataset Rat}
    {grid : Grid Rat} {tile : TileIndex} {m : Measurement Reading} {count : Nat}
    {source : RasterSource Reading}
    {locator : SourceLocator} {r : MemoryRaster Reading} {kx ky : Nat} {rows cols : Int}
    {out : WarpedTile Reading} (hidentity : (Transformer.mk grid.crs d.crs).isIdentity = true)
    (hgrid : grid.flaw? = none) (hwhole : grid.HoldsWholePixels)
    (hblocks : d.SharesBlocks grid tile kx ky rows cols) (hlocator : d.locator? m = some locator)
    (hserves : source.Serves locator r) (hsize : r.data.size = r.shape.count Rat)
    (harea : m.resampling.isArea = true) (h : d.warp source count grid m tile = .ok out) :
    (∀ row < grid.pixelShape.height, ∀ col < grid.pixelShape.width,
      d.footprint.contains (grid.pixelCenter tile row col) = true →
        ∃ v, out.data[row * grid.pixelShape.width + col]? = some v ∧
          r.Aggregates m (.ofTarget kx ky rows cols row col) v) ∧
    ∀ (i j : Int) (row col row' col' : Nat),
      (areaOf d grid tile row col).HoldsCentre i j →
      (areaOf d grid tile row' col').HoldsCentre i j → row = row' ∧ col = col' := by
  constructor
  · intro row hrow col hcol hcontains
    obtain ⟨bounds, hbounds⟩ := exists_imageBox (d := d) hgrid tile count
    obtain ⟨read, hread, -, -, hpixel⟩ :=
      Dataset.warp_ok rfl hidentity hlocator hserves hbounds h
    have hposition : position? d (liesInside d (densify (grid.paddedExtentOf tile).corners count))
        (grid.pixelCenter tile row col) =
          if d.footprint.contains (grid.pixelCenter tile row col) then
            some (d.transform.worldToPixel (grid.pixelCenter tile row col)) else none := by
      rw [hcontains, if_pos rfl]
      unfold position?
      rw [hcontains, Bool.or_true]
      rfl
    refine ⟨wholeValue d r grid m tile row col, ?_, ?_⟩
    · rw [hpixel row hrow col hcol, hposition]
      exact congrArg some (pixelValue_read hgrid hwhole hsize hbounds hread hrow hcol
        fun harea => if_pos harea)
    · unfold wholeValue
      simp only [hcontains, if_true, hblocks.worldToPixel_center, hblocks.areaOf_eq]
      exact MemoryRaster.aggregates_sampleAt harea hblocks.ky_pos hblocks.kx_pos
  · intro i j row col row' col' hcounted hcounted'
    rw [hblocks.areaOf_eq, PixelBlock.holdsCentre_area] at hcounted hcounted'
    exact PixelBlock.ofTarget_unique hcounted hcounted'

/-! ## A finer scene under the grid -/

section Example

attribute [local instance] Exact.unmoved noContainment

/-- A band that aggregates. -/
def coarseBand (method : Resampling) : Measurement Reading where
  name := "height"
  dtype := .float32
  nodata := ⟨some (-1)⟩
  resampling := method

/-- Pixels half a unit wide and a third of a unit high, rows southward. -/
def finePixels : GeoTransform Rat := ⟨0, 1 / 2, 0, 2, 0, -1 / 3⟩

/-- A scene of six by three pixels, whose footprint goes on below the raster. -/
def fineScene : Dataset Rat where
  id := ⟨2⟩
  product := "heights"
  time := TimeSpan.instant ⟨0, 0⟩
  crs := .wgs84
  footprint := ⟨[⟨0, -1⟩, ⟨2, -1⟩, ⟨2, 2⟩, ⟨0, 2⟩, ⟨0, -1⟩]⟩
  transform := ⟨finePixels, finePixels.cofactorInverse⟩
  shape := ⟨6, 3⟩
  sources := ⟨[("height", ⟨"height", none⟩)]⟩
  centroidLongitude := 1

/-- Heights that ascend from the first pixel, which is a hole. -/
def slopeRaster : MemoryRaster Reading :=
  .ofFn ⟨6, 3⟩ none fun row col => ⟨if row = 0 ∧ col = 0 then none else some (row + col)⟩

/-- Three rows and two columns of the scene are a pixel of the tile. The first block on the scene
holds one, one, two, two and three, the next one has its second column outside the raster, and the
one below the raster has no data. -/
theorem warp_downsampled_fineScene : ∃ means modes : WarpedTile Reading,
    fineScene.warp (MemoryRasters.source ⟨[(⟨"height", none⟩, slopeRaster)]⟩) 0 smallTiles
      (coarseBand .average) ⟨0, 0⟩ = .ok means ∧
    fineScene.warp (MemoryRasters.source ⟨[(⟨"height", none⟩, slopeRaster)]⟩) 0 smallTiles
      (coarseBand .mode) ⟨0, 0⟩ = .ok modes ∧
    means.data[5]? = some ⟨some (9 / 5)⟩ ∧ means.data[6]? = some ⟨some 3⟩ ∧
    means.data[13]? = some ⟨some (-1)⟩ ∧ modes.data[5]? = some ⟨some 1⟩ := by
  have hgrid : smallTiles.flaw? = none := by decide +kernel
  have hraster : (⟨[(⟨"height", none⟩, slopeRaster)]⟩ : MemoryRasters Reading).find?
      ⟨"height", none⟩ = some slopeRaster := by rfl
  have hblocks : fineScene.SharesBlocks smallTiles ⟨0, 0⟩ 2 3 (-3) (-2) :=
    ⟨if_pos (by decide +kernel), rfl, rfl, by decide, by decide, by decide +kernel,
      by decide +kernel, by decide +kernel, by decide +kernel⟩
  have hwhole : smallTiles.HoldsWholePixels := ⟨⟨2, by decide +kernel⟩, ⟨2, by decide +kernel⟩⟩
  have hshape : smallTiles.pixelShape = ⟨4, 4⟩ := by decide +kernel
  have hlocator : ∀ method, fineScene.locator? (coarseBand method) = some ⟨"height", none⟩ :=
    fun method => by cases method <;> decide +kernel
  have hwarp : ∀ method, method.isArea = true → ∃ out, fineScene.warp
      (MemoryRasters.source ⟨[(⟨"height", none⟩, slopeRaster)]⟩) 0 smallTiles (coarseBand method)
        ⟨0, 0⟩ = .ok out ∧ ∀ row < 4, ∀ col < 4,
      fineScene.footprint.contains (smallTiles.pixelCenter ⟨0, 0⟩ row col) = true →
        ∃ v, out.data[row * 4 + col]? = some v ∧
          slopeRaster.Aggregates (coarseBand method) (.ofTarget 2 3 (-3) (-2) row col) v := by
    intro method harea
    obtain ⟨out, hout⟩ : ∃ out, fineScene.warp
        (MemoryRasters.source ⟨[(⟨"height", none⟩, slopeRaster)]⟩) 0 smallTiles (coarseBand method)
          ⟨0, 0⟩ = .ok out := by
      obtain ⟨bounds, hbounds⟩ := exists_imageBox hgrid ⟨0, 0⟩ 0
      obtain ⟨read, -, hout⟩ := Dataset.warp_eq rfl (hlocator method) hraster hbounds
      exact ⟨_, hout⟩
    obtain ⟨hpixel, -⟩ := Dataset.warp_downsampled rfl hgrid hwhole hblocks (hlocator method)
      (MemoryRasters.serves hraster) (by decide +kernel) harea hout
    rw [hshape] at hpixel
    exact ⟨out, hout, hpixel⟩
  obtain ⟨means, hmeans, hmean⟩ := hwarp .average rfl
  obtain ⟨modes, hmodes, hmode⟩ := hwarp .mode rfl
  refine ⟨means, modes, hmeans, hmodes, ?_, ?_, ?_, ?_⟩
  · obtain ⟨v, hv, haggregates⟩ := hmean 1 (by decide) 1 (by decide) (by decide +kernel)
    rw [hv, haggregates.mean (by decide +kernel) rfl]
    decide +kernel
  · obtain ⟨v, hv, haggregates⟩ := hmean 1 (by decide) 2 (by decide) (by decide +kernel)
    rw [hv, haggregates.mean (by decide +kernel) rfl]
    decide +kernel
  · obtain ⟨v, hv, haggregates⟩ := hmean 3 (by decide) 1 (by decide) (by decide +kernel)
    rw [hv, haggregates.blank (by decide +kernel)]
    rfl
  · obtain ⟨v, hv, haggregates⟩ := hmode 1 (by decide) 1 (by decide) (by decide +kernel)
    obtain ⟨x, hx, hvalue⟩ := haggregates.mode (by decide +kernel) rfl
    have hone : slopeRaster.IsBlockMode (coarseBand .mode) (.ofTarget 2 3 (-3) (-2) 1 1) 1 :=
      ⟨by decide +kernel, by decide +kernel, by decide +kernel⟩
    rw [hv, hvalue, hx.unique hone]
    decide +kernel

end Example

end Mosaic
