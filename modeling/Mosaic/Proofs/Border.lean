import Mosaic.Proofs.Partition
import Mosaic.Proofs.Pixels

/-!
# The pixels inside the border of a tile

Padding adds pixels on every side of a tile and moves its first pixel outward by as many, whichever
way the rows and the columns run. The pixels inside the border are therefore the pixels of the grid
without padding (`pixelCenter_inside_border`). Their centres lie strictly inside the ground of the
tile, although a tile holds a whole number of pixels only nearly, and so they belong to it.
-/

namespace Mosaic.Grid

/-- The corner of the first pixel of a border, which runs outward against the steps along an axis. -/
theorem axis_border (lower upper step size : Rat) :
    (if 0 < step then lower - size * |step| else upper + size * |step|) + size * step =
      if 0 < step then lower else upper := by
  split
  · next hpos =>
    rw [abs_of_pos hpos]
    ring
  · next hneg =>
    rw [abs_of_nonpos (not_lt.mp hneg)]
    ring

/-- Steps of a length other than zero lead from one place to one number of steps only. -/
theorem axis_injective {first step : Rat} (hstep : step ≠ 0) {n m : Nat}
    (h : first + ((n : Rat) + 0.5) * step = first + ((m : Rat) + 0.5) * step) : n = m := by
  have hcount := mul_right_cancel₀ hstep (add_left_cancel h)
  exact_mod_cast add_right_cancel hcount

variable {g : Grid Rat} {t : TileIndex} {row col : Nat}

/-- A tile of a sound grid has pixels besides the border. -/
theorem one_le_innerShape (hgrid : g.flaw? = none) :
    1 ≤ g.innerShape.height ∧ 1 ≤ g.innerShape.width := by
  have haxis : ∀ {tile pixel : Rat}, wholePixels tile pixel = true →
      1 ≤ Coordinate.toNat (Coordinate.round (tile / Coordinate.abs pixel)) := by
    intro tile pixel h
    unfold wholePixels at h
    simp only [Bool.not_eq_true', Bool.or_eq_false_iff, decide_eq_false_iff_not, not_lt] at h
    have hround : (1.0 : Rat) ≤ (Exact.round (tile / Coordinate.abs pixel) : Int) := h.1
    have hone : 1 ≤ Exact.round (tile / Coordinate.abs pixel) := by
      norm_num only at hround
      exact_mod_cast hround
    show 1 ≤ Coordinate.toNat (Exact.round (tile / Coordinate.abs pixel) : Rat)
    rw [Exact.toNat_intCast]
    omega
  obtain ⟨hx, hy⟩ := wholePixels_of_flaw? hgrid
  exact ⟨haxis hy, haxis hx⟩

/-- Inside the border the pixels are those of the grid without padding. -/
theorem pixelCenter_inside_border (hgrid : g.flaw? = none) (hrow : g.padding ≤ row)
    (hcol : g.padding ≤ col) :
    g.pixelCenter t row col =
      (g.withPadding 0).pixelCenter t (row - g.padding) (col - g.padding) := by
  have hbare : (g.withPadding 0).flaw? = none := hgrid
  have haxis : ∀ {lower upper step : Rat} {n : Nat}, g.padding ≤ n →
      (if 0 < step then lower - g.padding * |step| else upper + g.padding * |step|) +
          ((n : Rat) + 0.5) * step =
        (if 0 < step then lower - (0 : Nat) * |step| else upper + (0 : Nat) * |step|) +
          (((n - g.padding : Nat) : Rat) + 0.5) * step := by
    intro lower upper step n hn
    rw [Nat.cast_sub hn, Nat.cast_zero, zero_mul, sub_zero, add_zero,
      ← axis_border lower upper step g.padding]
    ring
  simp only [pixelCenter, pixelOrigin_eq hgrid, pixelOrigin_eq hbare, paddedExtentOf, Box.pad,
    margin, Exact.ofNat_eq, Exact.abs_eq, Point.mk.injEq]
  exact ⟨haxis hcol, haxis hrow⟩

/-- Inside the border the pixels lie on the ground of the tile. -/
theorem cellFor_pixelCenter (hgrid : g.flaw? = none) (hrow : g.padding ≤ row)
    (hrow' : row < g.pixelShape.height - g.padding) (hcol : g.padding ≤ col)
    (hcol' : col < g.pixelShape.width - g.padding) : g.cellFor (g.pixelCenter t row col) = t := by
  have hbare : (g.withPadding 0).flaw? = none := hgrid
  have hground : (g.withPadding 0).paddedExtentOf t = g.extentOf t := by
    simp [paddedExtentOf, margin, withPadding, Box.pad, extentOf]
  have hrow'' : row - g.padding < (g.withPadding 0).pixelShape.height := by
    simp only [pixelShape, withPadding, innerShape, Exact.word_eq] at *
    omega
  have hcol'' : col - g.padding < (g.withPadding 0).pixelShape.width := by
    simp only [pixelShape, withPadding, innerShape, Exact.word_eq] at *
    omega
  obtain ⟨hx, hy⟩ := pixelCenter_inside_of_rounded hbare t hrow'' hcol''
  rw [hground, ← pixelCenter_inside_border hgrid hrow hcol] at hx hy
  exact (owns_iff hgrid).mp ⟨⟨hx.1.le, hx.2⟩, hy.1.le, hy.2⟩

/-- No two pixels of a tile have the same centre. -/
theorem pixelCenter_injective (hgrid : g.flaw? = none) {row' col' : Nat}
    (h : g.pixelCenter t row col = g.pixelCenter t row' col') : row = row' ∧ col = col' := by
  obtain ⟨hx, hy⟩ := resolution_ne_zero hgrid
  obtain ⟨hcol, hrow⟩ := Point.mk.inj h
  exact ⟨axis_injective hy hrow, axis_injective hx hcol⟩

/-- The affine map of a tile takes the middle of a pixel to its centre. -/
theorem apply_geotransform (g : Grid Rat) (t : TileIndex) (row col : Nat) :
    (g.geotransform t).apply ⟨(col : Rat) + 0.5, (row : Rat) + 0.5⟩ = g.pixelCenter t row col := by
  have hzero : (0.0 : Rat) = 0 := by norm_num
  simp only [GeoTransform.apply, geotransform, pixelCenter, Exact.ofNat_eq, Point.mk.injEq, hzero]
  constructor <;> ring

/-- On a sound grid every tile has pixels besides its border. Those pixels lie on the ground of the
tile and are the pixels that the tile has without padding. The centres of all pixels, border
included, are distinct, and the affine map of the tile gives them. -/
theorem pixels_of_tile (hgrid : g.validate = .ok ()) (t : TileIndex) :
    1 ≤ g.pixelShape.height - 2 * g.padding ∧ 1 ≤ g.pixelShape.width - 2 * g.padding ∧
    (∀ row col, g.padding ≤ row → row < g.pixelShape.height - g.padding →
      g.padding ≤ col → col < g.pixelShape.width - g.padding →
        g.cellFor (g.pixelCenter t row col) = t ∧
        g.pixelCenter t row col =
          (g.withPadding 0).pixelCenter t (row - g.padding) (col - g.padding)) ∧
    (∀ row col row' col', (row, col) ≠ (row', col') →
      g.pixelCenter t row col ≠ g.pixelCenter t row' col') ∧
    ∀ row col : Nat,
      g.pixelCenter t row col =
        (g.geotransform t).apply ⟨(col : Rat) + 1 / 2, (row : Rat) + 1 / 2⟩ := by
  have hgrid := validate_eq_ok.mp hgrid
  obtain ⟨hheight, hwidth⟩ := one_le_innerShape hgrid
  refine ⟨?_, ?_, ?_, ?_, ?_⟩
  · simp only [pixelShape, Exact.word_eq]
    omega
  · simp only [pixelShape, Exact.word_eq]
    omega
  · intro row col hrow hrow' hcol hcol'
    exact ⟨cellFor_pixelCenter hgrid hrow hrow' hcol hcol',
      pixelCenter_inside_border hgrid hrow hcol⟩
  · intro row col row' col' hne hcentre
    obtain ⟨rfl, rfl⟩ := pixelCenter_injective hgrid hcentre
    exact hne rfl
  · intro row col
    have hhalf : (1 / 2 : Rat) = 0.5 := by norm_num
    rw [hhalf, apply_geotransform]

section Example

/-- Tiles of nearly four by four pixels with a border of two pixels; rows run northward and columns
westward. -/
def nearlyWholeGrid : Grid Rat := ⟨.wgs84, ⟨-1, 1⟩, ⟨3.9999995, 4.0000005⟩, ⟨0, 0⟩, 2⟩

/-- The last pixel inside the border still lies on the ground of its tile. -/
theorem pixels_of_nearly_whole_tile :
    nearlyWholeGrid.validate = .ok () ∧ nearlyWholeGrid.pixelShape = ⟨8, 8⟩ ∧
      nearlyWholeGrid.cellFor (nearlyWholeGrid.pixelCenter ⟨-1, 3⟩ 5 5) = ⟨-1, 3⟩ ∧
      nearlyWholeGrid.pixelCenter ⟨-1, 3⟩ 5 5 =
        (nearlyWholeGrid.withPadding 0).pixelCenter ⟨-1, 3⟩ 3 3 := by
  have hgrid : nearlyWholeGrid.validate = .ok () := validate_eq_ok.mpr (by decide +kernel)
  have hshape : nearlyWholeGrid.pixelShape = ⟨8, 8⟩ := by decide +kernel
  obtain ⟨-, -, hinside, -⟩ := pixels_of_tile hgrid ⟨-1, 3⟩
  rw [hshape] at hinside
  exact ⟨hgrid, hshape, hinside 5 5 (by decide) (by decide) (by decide) (by decide)⟩

end Example

end Mosaic.Grid
