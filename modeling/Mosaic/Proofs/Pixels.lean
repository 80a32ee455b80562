import Mosaic.Proofs.Tiling
import Mosaic.Resample.Warp

/-!
# Where the pixels of a tile lie

On a grid whose tiles hold a whole number of pixels the pixels of a tile fill its ground, border
included, whatever the signs of the pixel size: all centres lie strictly inside and all corners on
the edges or inside.
-/

namespace Mosaic.Grid

/-- A tile holds a whole number of pixels along both axes. -/
structure HoldsWholePixels (g : Grid Rat) : Prop where
  columns : ∃ n : Nat, g.tileSize.x = n * |g.resolution.x|
  rows : ∃ n : Nat, g.tileSize.y = n * |g.resolution.y|

theorem resolution_ne_zero {g : Grid Rat} (h : g.flaw? = none) :
    g.resolution.x ≠ 0 ∧ g.resolution.y ≠ 0 := by
  unfold flaw? at h
  split at h
  · cases h
  · rename_i hresolution
    simp only [Bool.or_eq_true, beq_iff_eq, not_or] at hresolution
    norm_num at hresolution
    exact hresolution.1

/-! ## One axis -/

section Axis

variable {lower upper step size s : Rat}

/-- Positions along an axis that begins at the end from which the steps lead inward. -/
theorem axis_mem (hsize : size * |step| = upper - lower) (h : 0 ≤ s) (h' : s ≤ size) :
    lower ≤ (if 0 < step then lower else upper) + s * step ∧
      (if 0 < step then lower else upper) + s * step ≤ upper := by
  -- positive steps lead up from the lower end, the others down from the upper end
  split
  · next hpos =>
    rw [abs_of_pos hpos] at hsize
    have hfirst := mul_nonneg h hpos.le
    have hlast := mul_le_mul_of_nonneg_right h' hpos.le
    constructor <;> linarith
  · next hneg =>
    rw [abs_of_nonpos (not_lt.mp hneg)] at hsize
    have hfirst := mul_nonpos_of_nonneg_of_nonpos h (not_lt.mp hneg)
    have hlast := mul_le_mul_of_nonpos_right h' (not_lt.mp hneg)
    constructor <;> linarith

theorem axis_mem_inside (hstep : step ≠ 0) (hsize : size * |step| = upper - lower) (h : 0 < s)
    (h' : s < size) :
    lower < (if 0 < step then lower else upper) + s * step ∧
      (if 0 < step then lower else upper) + s * step < upper := by
  split
  · next hpos =>
    rw [abs_of_pos hpos] at hsize
    have hfirst := mul_pos h hpos
    have hlast := mul_lt_mul_of_pos_right h' hpos
    constructor <;> linarith
  · next hneg =>
    have hneg : step < 0 := lt_of_le_of_ne (not_lt.mp hneg) hstep
    rw [abs_of_neg hneg] at hsize
    have hfirst := mul_neg_of_pos_of_neg h hneg
    have hlast := mul_lt_mul_of_neg_right h' hneg
    constructor <;> linarith

end Axis

/-! ## Pixels of a tile -/

variable {g : Grid Rat}

theorem div_abs_pixel {n : Nat} {tile pixel : Rat} (hpixel : pixel ≠ 0) (h : tile = n * |pixel|) :
    tile / |pixel| = ((n : Int) : Rat) := by
  rw [h, mul_div_assoc, div_self (abs_ne_zero.mpr hpixel), mul_one, Int.cast_natCast]

theorem round_pixels {n : Nat} {tile pixel : Rat} (hpixel : pixel ≠ 0) (h : tile = n * |pixel|) :
    Coordinate.toNat (Coordinate.round (tile / |pixel|)) = n := by
  rw [div_abs_pixel hpixel h]
  show Coordinate.toNat (Exact.round ((n : Int) : Rat) : Rat) = n
  rw [Exact.round_intCast, Exact.toNat_intCast, Int.toNat_natCast]

/-- The pixels of a tile fill its ground along both axes. -/
theorem pixelShape_mul (h : g.flaw? = none) (hwhole : g.HoldsWholePixels) (t : TileIndex) :
    (g.pixelShape.width : Rat) * |g.resolution.x| =
        (g.paddedExtentOf t).maxX - (g.paddedExtentOf t).minX ∧
      (g.pixelShape.height : Rat) * |g.resolution.y| =
        (g.paddedExtentOf t).maxY - (g.paddedExtentOf t).minY := by
  obtain ⟨hx, hy⟩ := resolution_ne_zero h
  obtain ⟨⟨n, hn⟩, ⟨m, hm⟩⟩ := hwhole
  simp only [pixelShape, innerShape, paddedExtentOf, Box.pad, extentOf, margin, Exact.word_eq,
    Exact.ofNat_eq, Exact.abs_eq, round_pixels hx hn, round_pixels hy hm]
  push_cast
  constructor
  · rw [hn]
    ring
  · rw [hm]
    ring

theorem pixelOrigin_eq (h : g.flaw? = none) (t : TileIndex) :
    g.pixelOrigin t =
      ⟨if 0 < g.resolution.x then (g.paddedExtentOf t).minX else (g.paddedExtentOf t).maxX,
        if 0 < g.resolution.y then (g.paddedExtentOf t).minY else (g.paddedExtentOf t).maxY⟩ := by
  have hzero : (0.0 : Rat) = 0 := by norm_num
  have hy := (resolution_ne_zero h).2
  unfold pixelOrigin
  rw [hzero]
  refine congrArg₂ Point.mk rfl ?_
  rcases lt_or_gt_of_ne hy with hneg | hpos
  · rw [if_neg hneg.not_gt]
    exact if_pos hneg
  · rw [if_pos hpos]
    exact if_neg hpos.not_gt

theorem paddedExtentOf_height_pos (h : g.flaw? = none) (t : TileIndex) :
    (g.paddedExtentOf t).minY < (g.paddedExtentOf t).maxY := by
  obtain ⟨-, hheight⟩ := tileSize_pos h
  obtain ⟨-, hmargin⟩ := g.margin_nonneg
  simp only [paddedExtentOf, Box.pad, extentOf]
  linarith

/-- A corner of a pixel of a tile. -/
def pixelCorner {K : Type} [Coordinate K] (g : Grid K) (t : TileIndex) (row col : Nat) : Point K :=
  let o := g.pixelOrigin t
  ⟨o.x + Coordinate.ofNat col * g.resolution.x, o.y + Coordinate.ofNat row * g.resolution.y⟩

/-- A pixel centre that comes before the far edges lies strictly inside the tile. -/
theorem pixelCenter_inside_of_lt (h : g.flaw? = none) (t : TileIndex) {row col : Nat}
    (hcol : ((col : Rat) + 0.5) * |g.resolution.x| <
      (g.paddedExtentOf t).maxX - (g.paddedExtentOf t).minX)
    (hrow : ((row : Rat) + 0.5) * |g.resolution.y| <
      (g.paddedExtentOf t).maxY - (g.paddedExtentOf t).minY) :
    ((g.paddedExtentOf t).minX < (g.pixelCenter t row col).x ∧
      (g.pixelCenter t row col).x < (g.paddedExtentOf t).maxX) ∧
    (g.paddedExtentOf t).minY < (g.pixelCenter t row col).y ∧
      (g.pixelCenter t row col).y < (g.paddedExtentOf t).maxY := by
  obtain ⟨hx, hy⟩ := resolution_ne_zero h
  have hpos : ∀ n : Nat, (0 : Rat) < (n : Rat) + 0.5 := fun n => by positivity
  simp only [pixelCenter, pixelOrigin_eq h]
  exact ⟨axis_mem_inside hx (div_mul_cancel₀ _ (abs_ne_zero.mpr hx)) (hpos col)
      ((lt_div_iff₀ (abs_pos.mpr hx)).mpr hcol),
    axis_mem_inside hy (div_mul_cancel₀ _ (abs_ne_zero.mpr hy)) (hpos row)
      ((lt_div_iff₀ (abs_pos.mpr hy)).mpr hrow)⟩

/-- Pixel centres lie strictly inside the tile. -/
theorem pixelCenter_inside (h : g.flaw? = none) (hwhole : g.HoldsWholePixels) (t : TileIndex)
    {row col : Nat} (hrow : row < g.pixelShape.height) (hcol : col < g.pixelShape.width) :
    ((g.paddedExtentOf t).minX < (g.pixelCenter t row col).x ∧
      (g.pixelCenter t row col).x < (g.paddedExtentOf t).maxX) ∧
    (g.paddedExtentOf t).minY < (g.pixelCenter t row col).y ∧
      (g.pixelCenter t row col).y < (g.paddedExtentOf t).maxY := by
  obtain ⟨hx, hy⟩ := resolution_ne_zero h
  obtain ⟨hwidth, hheight⟩ := pixelShape_mul h hwhole t
  have hcentre : ∀ {n size : Nat}, n < size → (n : Rat) + 0.5 < size := by
    intro n size hn
    have hle : ((n + 1 : Nat) : Rat) ≤ size := Nat.cast_le.mpr hn
    push_cast at hle
    norm_num
    linarith
  refine pixelCenter_inside_of_lt h t ?_ ?_
  · rw [← hwidth]
    exact mul_lt_mul_of_pos_right (hcentre hcol) (abs_pos.mpr hx)
  · rw [← hheight]
    exact mul_lt_mul_of_pos_right (hcentre hrow) (abs_pos.mpr hy)

/-! ## Rounded numbers of pixels -/

theorem wholePixels_of_flaw? (h : g.flaw? = none) :
    wholePixels g.tileSize.x g.resolution.x = true ∧
      wholePixels g.tileSize.y g.resolution.y = true := by
  unfold flaw? at h
  split at h
  · cases h
  split at h
  · cases h
  split at h
  · cases h
  split at h
  · cases h
  split at h
  · cases h
  · rename_i hx hy
    rw [Bool.not_eq_true, Bool.not_eq_false'] at hx hy
    exact ⟨hx, hy⟩

/-- The number of pixels that a tile is given is less than half a pixel too large. -/
theorem round_pixels_lt {tile pixel : Rat} (h : wholePixels tile pixel = true) :
    (Coordinate.toNat (Coordinate.round (tile / |pixel|)) : Rat) < tile / |pixel| + 1 / 2 := by
  unfold wholePixels pixelTolerance at h
  simp only [Exact.abs_eq, Bool.not_eq_true', Bool.or_eq_false_iff, decide_eq_false_iff_not,
    not_lt] at h
  obtain ⟨hone, htolerance⟩ := h
  have hround : (Coordinate.round (tile / |pixel|) : Rat) = (Exact.round (tile / |pixel|) : Int) :=
    rfl
  rw [hround] at hone htolerance ⊢
  have hpos : 0 ≤ Exact.round (tile / |pixel|) := by
    have hcast : (0 : Rat) ≤ (Exact.round (tile / |pixel|) : Int) := by
      norm_num at hone
      linarith
    exact_mod_cast hcast
  have hnat : ((Exact.round (tile / |pixel|)).toNat : Rat) =
      (Exact.round (tile / |pixel|) : Int) := by
    exact_mod_cast Int.toNat_of_nonneg hpos
  rw [Exact.toNat_intCast, hnat]
  have hlow := (abs_le.mp htolerance).1
  norm_num at hlow
  linarith

/-- Pixel centres lie strictly inside the tile even where a tile does not hold a whole number of
pixels: the number is rounded, and that moves the last centre by less than half a pixel. -/
theorem pixelCenter_inside_of_rounded (h : g.flaw? = none) (t : TileIndex) {row col : Nat}
    (hrow : row < g.pixelShape.height) (hcol : col < g.pixelShape.width) :
    ((g.paddedExtentOf t).minX < (g.pixelCenter t row col).x ∧
      (g.pixelCenter t row col).x < (g.paddedExtentOf t).maxX) ∧
    (g.paddedExtentOf t).minY < (g.pixelCenter t row col).y ∧
      (g.pixelCenter t row col).y < (g.paddedExtentOf t).maxY := by
  obtain ⟨hx, hy⟩ := resolution_ne_zero h
  obtain ⟨hwholeX, hwholeY⟩ := wholePixels_of_flaw? h
  have hcentre : ∀ {tile pixel lower : Rat} {n : Nat}, pixel ≠ 0 → wholePixels tile pixel = true →
      n < Coordinate.toNat (Coordinate.round (tile / |pixel|)) + 2 * g.padding →
      ((n : Rat) + 0.5) * |pixel| < lower + tile + g.padding * |pixel| -
        (lower - g.padding * |pixel|) := by
    intro tile pixel lower n hpixel hwhole hn
    have hle : ((n + 1 : Nat) : Rat) ≤
        ((Coordinate.toNat (Coordinate.round (tile / |pixel|)) + 2 * g.padding : Nat) : Rat) :=
      Nat.cast_le.mpr hn
    push_cast at hle
    have hcount : (n : Rat) + 0.5 < tile / |pixel| + 2 * g.padding := by
      have hround := round_pixels_lt hwhole
      norm_num
      linarith
    have hpos := abs_pos.mpr hpixel
    calc ((n : Rat) + 0.5) * |pixel|
        < (tile / |pixel| + 2 * g.padding) * |pixel| := mul_lt_mul_of_pos_right hcount hpos
      _ = tile + 2 * g.padding * |pixel| := by rw [add_mul, div_mul_cancel₀ _ hpos.ne']
      _ = lower + tile + g.padding * |pixel| - (lower - g.padding * |pixel|) := by ring
  refine pixelCenter_inside_of_lt h t ?_ ?_ <;>
    simp only [pixelShape, innerShape, Exact.word_eq, Exact.abs_eq] at hrow hcol <;>
    simp only [paddedExtentOf, Box.pad, extentOf, margin, Exact.ofNat_eq, Exact.abs_eq]
  · exact hcentre hx hwholeX hcol
  · exact hcentre hy hwholeY hrow

/-- Pixel corners lie in the tile, edges included. -/
theorem encloses_pixelCorner (h : g.flaw? = none) (hwhole : g.HoldsWholePixels) (t : TileIndex)
    {row col : Nat} (hrow : row ≤ g.pixelShape.height) (hcol : col ≤ g.pixelShape.width) :
    (g.paddedExtentOf t).Encloses (Box.ofPoint (g.pixelCorner t row col)) := by
  obtain ⟨hwidth, hheight⟩ := pixelShape_mul h hwhole t
  have hx := axis_mem hwidth (Nat.cast_nonneg col) (Nat.cast_le.mpr hcol)
  have hy := axis_mem hheight (Nat.cast_nonneg row) (Nat.cast_le.mpr hrow)
  simp only [pixelCorner, pixelOrigin_eq h, Box.ofPoint, Exact.ofNat_eq]
  exact ⟨hx.1, hy.1, hx.2, hy.2⟩

/-! ## Row by row -/

section Arrays

theorem row_major {row col width : Nat} (h : col < width) :
    (row * width + col) / width = row ∧ (row * width + col) % width = col := by
  have hpos : 0 < width := by omega
  constructor
  · rw [Nat.add_comm, Nat.add_mul_div_right _ _ hpos, Nat.div_eq_of_lt h, Nat.zero_add]
  · rw [Nat.add_comm, Nat.add_mul_mod_self_right, Nat.mod_eq_of_lt h]

theorem row_major_lt {row col height width : Nat} (hrow : row < height) (hcol : col < width) :
    row * width + col < height * width := by
  calc row * width + col < (row + 1) * width := by rw [Nat.succ_mul]; omega
    _ ≤ height * width := Nat.mul_le_mul_right _ hrow

theorem size_centers {K : Type} [Coordinate K] (g : Grid K) (t : TileIndex) :
    (g.centers t).size = g.pixelShape.count K :=
  Array.size_ofFn

theorem getElem?_centers (g : Grid Rat) (t : TileIndex) {row col : Nat}
    (hrow : row < g.pixelShape.height) (hcol : col < g.pixelShape.width) :
    (g.centers t)[row * g.pixelShape.width + col]? = some (g.pixelCenter t row col) := by
  have hlt : row * g.pixelShape.width + col < g.pixelShape.count Rat := row_major_lt hrow hcol
  unfold centers
  simp only [Array.getElem?_ofFn]
  rw [dif_pos hlt, (row_major hcol).1, (row_major hcol).2]

theorem getElem?_corners (g : Grid Rat) (t : TileIndex) {row col : Nat}
    (hrow : row ≤ g.pixelShape.height) (hcol : col ≤ g.pixelShape.width) :
    (g.corners t)[row * (g.pixelShape.width + 1) + col]? = some (g.pixelCorner t row col) := by
  have hrow := Nat.lt_succ_of_le hrow
  have hcol := Nat.lt_succ_of_le hcol
  unfold corners
  simp only [Array.getElem?_ofFn, Exact.word_eq]
  rw [dif_pos (row_major_lt hrow hcol), (row_major hcol).1, (row_major hcol).2]
  rfl

end Arrays

end Mosaic.Grid
