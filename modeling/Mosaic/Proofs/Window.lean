import Mathlib.Data.Int.ConditionallyCompleteOrder
import Mosaic.Proofs.Exact
import Mosaic.Raster.Memory
import Mosaic.Resample.Warp

/-!
# Windows that show as much as the whole raster

Only the window of a raster that a tile and the reach of a kernel need is read. `Shows` says that a
window is as good as the raster for some rows and columns: there both have a sample or neither has,
and it is the same one. The window that is cut out for a box shows all that kernels reach from the
positions in the box, whether or not the box reaches over the edges of the raster (`shows_read`).
-/

namespace Mosaic

/-! ## Rows of equal length -/

theorem size_flatMap_range {α : Type} {f : Nat → Array α} {width : Nat} :
    ∀ {n : Nat}, (∀ i < n, (f i).size = width) → ((Array.range n).flatMap f).size = n * width := by
  intro n
  induction n with
  | zero =>
    intro _
    rw [Nat.zero_mul]
    rfl
  | succ n ih =>
    intro h
    rw [Array.range_succ, Array.flatMap_append, Array.size_append,
      ih fun i hi => h i (Nat.lt_succ_of_lt hi), Array.flatMap_singleton, h n n.lt_succ_self,
      Nat.succ_mul]

/-- The elements of rows of one length that are put one after the other. -/
theorem getElem?_flatMap_range {α : Type} {f : Nat → Array α} {width : Nat} :
    ∀ {n : Nat}, (∀ i < n, (f i).size = width) → ∀ {i j : Nat}, i < n → j < width →
      ((Array.range n).flatMap f)[i * width + j]? = (f i)[j]? := by
  intro n
  induction n with
  | zero => intro _ i j hi _; exact absurd hi i.not_lt_zero
  | succ n ih =>
    intro h i j hi hj
    have hrows : ∀ i < n, (f i).size = width := fun i hi => h i (Nat.lt_succ_of_lt hi)
    rw [Array.range_succ, Array.flatMap_append, Array.flatMap_singleton]
    rcases Nat.lt_succ_iff_lt_or_eq.mp hi with hi | rfl
    · have hlt : i * width + j < n * width := by
        calc i * width + j < (i + 1) * width := by rw [Nat.succ_mul]; omega
          _ ≤ n * width := Nat.mul_le_mul_right _ hi
      rw [Array.getElem?_append_left (by rw [size_flatMap_range hrows]; exact hlt)]
      exact ih hrows hi hj
    · rw [Array.getElem?_append_right (by rw [size_flatMap_range hrows]; omega),
        size_flatMap_range hrows, Nat.add_sub_cancel_left]

/-! ## Spans -/

namespace Warp

/-- The pixels along one axis that a kernel may look at from positions between two numbers. -/
def reach (lower upper : Rat) (radius : Nat) : Set Int :=
  Set.Ico (⌊lower⌋ - radius) (⌈upper⌉ + radius)

theorem clip_intCast (k : Int) (size : Nat) : clip (k : Rat) size = min k.toNat size := by
  have hcast : min (size : Rat) (max 0.0 k) = ((min size (max 0 k) : Int) : Rat) := by
    push_cast
    norm_num
  have hsize : (0.0 : Rat) ≤ size := by norm_num
  show Coordinate.toNat (Coordinate.clamp 0.0 (size : Rat) k) = _
  rw [Exact.clamp_eq hsize, hcast, Exact.toNat_intCast]
  omega

theorem clipSpan_eq (lower upper : Rat) (radius size : Nat) :
    clipSpan lower upper radius size =
      (min (⌊lower⌋ - radius).toNat size, min (⌈upper⌉ + radius).toNat size) := by
  have hlower : Coordinate.floor lower - Coordinate.ofNat radius =
      ((⌊lower⌋ - radius : Int) : Rat) := by
    push_cast
    rfl
  have hupper : Coordinate.ceil upper + Coordinate.ofNat radius =
      ((⌈upper⌉ + radius : Int) : Rat) := by
    show (upper.ceil : Rat) + radius = _
    rw [Rat.ceil_eq_neg_floor_neg]
    push_cast
    rfl
  unfold clipSpan
  rw [hlower, hupper, clip_intCast, clip_intCast]

/-- A span leaves out no pixel of the raster that kernels may look at. -/
theorem mem_clipSpan {lower upper : Rat} {radius size : Nat} {i : Int}
    (hi : i ∈ reach lower upper radius) :
    ((clipSpan lower upper radius size).1 ≤ i ∧ i < (clipSpan lower upper radius size).2) ↔
      0 ≤ i ∧ i < size := by
  obtain ⟨hlower, hupper⟩ := hi
  rw [clipSpan_eq]
  simp only [Nat.cast_min]
  omega

theorem clipSpan_le (lower upper : Rat) (radius size : Nat) :
    (clipSpan lower upper radius size).1 ≤ size ∧ (clipSpan lower upper radius size).2 ≤ size := by
  rw [clipSpan_eq]
  exact ⟨min_le_right _ _, min_le_right _ _⟩

/-- What is cut out of a raster for a box in pixels; it may be empty. -/
def cut {K : Type} [Coordinate K] (bounds : Box K) (radius : Nat) (shape : PixelShape) :
    PixelWindow :=
  let cols := clipSpan bounds.minX bounds.maxX radius shape.width
  let rows := clipSpan bounds.minY bounds.maxY radius shape.height
  ⟨rows.1, cols.1, rows.2 - rows.1, cols.2 - cols.1⟩

/-- The window that is read is what is cut out, unless it is empty. -/
theorem window?_eq {K : Type} [Coordinate K] (bounds : Box K) (radius : Nat) (shape : PixelShape) :
    window? bounds radius shape =
      if (cut bounds radius shape).isEmpty then none else some (cut bounds radius shape) := by
  unfold window? cut PixelWindow.isEmpty
  simp only [Bool.or_eq_true, beq_iff_eq, Nat.sub_eq_zero_iff_le]
  exact if_congr or_comm rfl rfl

theorem fits_cut (bounds : Box Rat) (radius : Nat) (shape : PixelShape) :
    (cut bounds radius shape).fits shape = true := by
  have hcols := clipSpan_le bounds.minX bounds.maxX radius shape.width
  have hrows := clipSpan_le bounds.minY bounds.maxY radius shape.height
  unfold PixelWindow.fits cut
  simp only [Bool.and_eq_true, decide_eq_true_eq]
  constructor
  · omega
  · omega

end Warp

/-! ## Samples -/

section View

variable {V K : Type} [Sample V K]

namespace WindowView

theorem sample_of_outside {view : WindowView V} {row col : Int}
    (h : ¬((0 ≤ row ∧ row < view.shape.height) ∧ 0 ≤ col ∧ col < view.shape.width)) :
    view.sample row col = Sample.nan := by
  unfold sample
  rw [if_pos (by omega)]

theorem sample_of_inside {view : WindowView V} {row col : Nat} (hrow : row < view.shape.height)
    (hcol : col < view.shape.width) :
    view.sample row col = (view.data[row * view.shape.width + col]?).getD Sample.nan := by
  unfold sample
  rw [if_neg (by omega), Array.getD_eq_getD_getElem?, Int.toNat_natCast, Int.toNat_natCast]

/-- A window that begins at a row and a column of a raster is as good as the raster for some rows
and columns. -/
structure Shows (view whole : WindowView V) (row0 col0 : Nat) (rows cols : Set Int) : Prop where
  row_iff : ∀ i ∈ rows, (0 ≤ i - row0 ∧ i - row0 < view.shape.height) ↔
    0 ≤ i ∧ i < whole.shape.height
  col_iff : ∀ j ∈ cols, (0 ≤ j - col0 ∧ j - col0 < view.shape.width) ↔
    0 ≤ j ∧ j < whole.shape.width
  sample_eq : ∀ i ∈ rows, ∀ j ∈ cols, view.sample (i - row0) (j - col0) = whole.sample i j

end WindowView

/-- The samples of a window that has been read. -/
def WindowData.view (read : WindowData V) (m : Measurement V) : WindowView V :=
  ⟨⟨read.window.height, read.window.width⟩, Warp.maskNodata m read⟩

namespace MemoryRaster

/-- The whole raster as one window. -/
def view (r : MemoryRaster V) (m : Measurement V) : WindowView V :=
  ⟨r.shape, Warp.maskNodata m ⟨⟨0, 0, r.shape.height, r.shape.width⟩, r.data, r.nodata⟩⟩

variable {r : MemoryRaster V} {w : PixelWindow}

omit [Sample V K] in
theorem readWindow_of_fits (h : w.fits r.shape = true) :
    r.readWindow w =
      .ok ⟨w, (Array.range w.height).flatMap fun i => r.readRow w (w.row + i), r.nodata⟩ :=
  if_pos h

omit [Sample V K] in
theorem window_of_readWindow {read : WindowData V} (h : r.readWindow w = .ok read) :
    read.window = w := by
  unfold readWindow at h
  split at h
  · cases h
    rfl
  · cases h

omit [Sample V K] in
/-- The samples of a window lie in the raster from the first row and column of the window on. -/
theorem getElem?_readWindow (hsize : r.data.size = r.shape.count Rat)
    (hfits : w.fits r.shape = true)
    {i j : Nat} (hi : i < w.height) (hj : j < w.width) :
    ((Array.range w.height).flatMap fun i => r.readRow w (w.row + i))[i * w.width + j]? =
      r.data[(w.row + i) * r.shape.width + (w.col + j)]? := by
  simp only [PixelWindow.fits, Bool.and_eq_true, decide_eq_true_eq] at hfits
  -- the end of every row of the window lies in the raster
  have hend : ∀ i < w.height,
      (w.row + i) * r.shape.width + w.col + w.width ≤ r.data.size := by
    intro i hi
    calc (w.row + i) * r.shape.width + w.col + w.width
        ≤ (w.row + i + 1) * r.shape.width := by rw [Nat.succ_mul]; omega
      _ ≤ r.shape.height * r.shape.width := Nat.mul_le_mul_right _ (by omega)
      _ = r.data.size := hsize.symm
  have hrows : ∀ i < w.height, (r.readRow w (w.row + i)).size = w.width := by
    intro i hi
    have := hend i hi
    simp only [readRow, Array.size_extract]
    omega
  rw [getElem?_flatMap_range hrows hi hj]
  have := hend i hi
  simp only [readRow, Array.getElem?_extract]
  rw [if_pos (by omega), Nat.add_assoc]

/-- Samples of a window are samples of the raster. -/
theorem sample_readWindow (hsize : r.data.size = r.shape.count Rat) (hfits : w.fits r.shape = true)
    {read : WindowData V} (hread : r.readWindow w = .ok read) (m : Measurement V) {i j : Nat}
    (hi : i < w.height) (hj : j < w.width) :
    (read.view m).sample i j = (r.view m).sample ((w.row + i : Nat) : Int) (w.col + j : Nat) := by
  rw [readWindow_of_fits hfits] at hread
  cases hread
  have hinside := hfits
  simp only [PixelWindow.fits, Bool.and_eq_true, decide_eq_true_eq] at hinside
  rw [WindowView.sample_of_inside hi hj,
    WindowView.sample_of_inside (show w.row + i < r.shape.height by omega)
      (show w.col + j < r.shape.width by omega)]
  show ((Array.map _ _)[i * w.width + j]?).getD _ =
    ((Array.map _ _)[(w.row + i) * r.shape.width + (w.col + j)]?).getD _
  rw [Array.getElem?_map, Array.getElem?_map, getElem?_readWindow hsize hfits hi hj]

/-- The window that is cut out for a box shows all that kernels reach from positions in the box. -/
theorem shows_read (hsize : r.data.size = r.shape.count Rat) (m : Measurement V) {bounds : Box Rat}
    {radius : Nat} {read : WindowData V}
    (hread : r.readWindow (Warp.cut bounds radius r.shape) = .ok read) :
    (read.view m).Shows (r.view m) (Warp.cut bounds radius r.shape).row
      (Warp.cut bounds radius r.shape).col (Warp.reach bounds.minY bounds.maxY radius)
      (Warp.reach bounds.minX bounds.maxX radius) := by
  have hfits := Warp.fits_cut bounds radius r.shape
  have hwindow := window_of_readWindow hread
  have hrow : ∀ i ∈ Warp.reach bounds.minY bounds.maxY radius,
      (0 ≤ i - (Warp.cut bounds radius r.shape).row ∧
        i - (Warp.cut bounds radius r.shape).row < (Warp.cut bounds radius r.shape).height) ↔
      0 ≤ i ∧ i < r.shape.height := by
    intro i hi
    rw [← Warp.mem_clipSpan hi]
    simp only [Warp.cut]
    omega
  have hcol : ∀ j ∈ Warp.reach bounds.minX bounds.maxX radius,
      (0 ≤ j - (Warp.cut bounds radius r.shape).col ∧
        j - (Warp.cut bounds radius r.shape).col < (Warp.cut bounds radius r.shape).width) ↔
      0 ≤ j ∧ j < r.shape.width := by
    intro j hj
    rw [← Warp.mem_clipSpan hj]
    simp only [Warp.cut]
    omega
  refine ⟨fun i hi => ?_, fun j hj => ?_, fun i hi j hj => ?_⟩
  · rw [WindowData.view, hwindow]
    exact hrow i hi
  · rw [WindowData.view, hwindow]
    exact hcol j hj
  · by_cases hinside : (0 ≤ i ∧ i < r.shape.height) ∧ 0 ≤ j ∧ j < r.shape.width
    · obtain ⟨hi', hj'⟩ := hinside
      obtain ⟨hi0, hi1⟩ := (hrow i hi).mpr hi'
      obtain ⟨hj0, hj1⟩ := (hcol j hj).mpr hj'
      obtain ⟨a, ha⟩ := Int.eq_ofNat_of_zero_le hi0
      obtain ⟨b, hb⟩ := Int.eq_ofNat_of_zero_le hj0
      rw [ha] at hi1
      rw [hb] at hj1
      rw [ha, hb, sample_readWindow hsize hfits hread m (Int.ofNat_lt.mp hi1) (Int.ofNat_lt.mp hj1)]
      congr 1
      · omega
      · omega
    · -- outside the raster neither of the two has a sample
      have hnone : (r.view m).sample i j = Sample.nan := WindowView.sample_of_outside hinside
      rw [hnone]
      refine WindowView.sample_of_outside fun h => hinside ?_
      rw [WindowData.view, hwindow] at h
      exact ⟨(hrow i hi).mp h.1, (hcol j hj).mp h.2⟩

end MemoryRaster

end View

end Mosaic
