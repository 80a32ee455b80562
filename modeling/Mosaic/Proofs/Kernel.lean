import Mosaic.Proofs.Tiling
import Mosaic.Proofs.Window

/-!
# Kernels on windows

A kernel reads samples and nothing else of a window, at pixels that the position and the area pick.
So it gives the same value on a window as on the whole raster, at the position moved by the corner
of the window, when the window shows all that the kernel may look at (`sampleAt_window`). The radius
of each method is just large enough for that.
-/

namespace Mosaic

open Warp (reach)

/-! ## What is reached -/

section Reach

variable {lower upper x : Rat} {radius : Nat}

theorem Warp.floor_mem_reach (hlower : lower ≤ x) (hupper : x ≤ upper) (hradius : 1 ≤ radius) :
    ⌊x⌋ ∈ reach lower upper radius := by
  have hfirst : ⌊lower⌋ ≤ ⌊x⌋ := Int.floor_mono hlower
  have hlast : ⌊x⌋ ≤ ⌈upper⌉ := (Int.floor_le_ceil x).trans (Int.ceil_mono hupper)
  constructor <;> omega

/-- The pixel centres round a position that a kernel with a radius takes along one axis. -/
theorem Warp.cell_mem_reach (hlower : lower ≤ x) (hupper : x ≤ upper) {k : Int}
    (hk : 1 - (radius : Int) ≤ k) (hk' : k ≤ radius) :
    ⌊x - 1 / 2⌋ + k ∈ reach lower upper radius := by
  have hfirst : ⌊lower⌋ - 1 ≤ ⌊x - 1 / 2⌋ := by
    rw [← Int.floor_sub_one]
    exact Int.floor_mono (by linarith)
  have hlast : ⌊x - 1 / 2⌋ < ⌈upper⌉ := by
    rw [Int.floor_lt]
    have := Int.le_ceil upper
    linarith
  constructor <;> omega

/-- The pixels whose centres lie in a part of the range of positions. -/
theorem Warp.centre_mem_reach {first last : Rat} (hlower : lower ≤ first) (hupper : last ≤ upper)
    {i : Int} (hi : ⌈first - 1 / 2⌉ ≤ i) (hi' : i < ⌈last - 1 / 2⌉) :
    i ∈ reach lower upper radius := by
  have hfirst : ⌊lower⌋ - 1 < ⌈first - 1 / 2⌉ := by
    rw [Int.lt_ceil]
    have := Int.floor_le lower
    push_cast
    linarith
  have hlast : ⌈last - 1 / 2⌉ ≤ ⌈upper⌉ := Int.ceil_mono (by linarith)
  constructor <;> omega

end Reach

/-! ## Areas -/

namespace PixelFootprint

/-- The box of an area. -/
def box (fp : PixelFootprint Rat) : Box Rat := ⟨fp.minU, fp.minV, fp.maxU, fp.maxV⟩

/-- The area as seen from another origin. -/
def relativeTo (fp : PixelFootprint Rat) (origin : Point Rat) : PixelFootprint Rat :=
  ⟨fp.minU - origin.x, fp.minV - origin.y, fp.maxU - origin.x, fp.maxV - origin.y⟩

theorem span_eq (lower upper : Rat) (size : Nat) :
    span lower upper size = (max ⌈lower - 1 / 2⌉ 0, min ⌈upper - 1 / 2⌉ size) := by
  have hhalf : ∀ x : Rat, (x - 0.5).ceil = ⌈x - 1 / 2⌉ := by
    intro x
    norm_num
    rw [Rat.ceil_eq_neg_floor_neg]
    rfl
  have hmax : Coordinate.maximum (Coordinate.ceil (lower - 0.5)) 0.0 =
      ((max ⌈lower - 1 / 2⌉ 0 : Int) : Rat) := by
    rw [Exact.maximum_eq]
    show max ((lower - 0.5).ceil : Rat) 0.0 = _
    rw [hhalf]
    push_cast
    norm_num
  unfold span
  rw [hmax, Exact.toInt_ceil, hhalf]
  show (Exact.truncate _, _) = _
  rw [Exact.truncate_intCast]

theorem mem_indices {s : Int × Int} {i : Int} : i ∈ indices s ↔ s.1 ≤ i ∧ i < s.2 :=
  Grid.mem_indexRange

/-- Two spans with the same numbers, apart from a shift, list them in the same order. -/
theorem indices_shift {s t : Int × Int} {n : Nat}
    (h : ∀ i : Int, (s.1 ≤ i - n ∧ i - n < s.2) ↔ t.1 ≤ i ∧ i < t.2) :
    indices t = (indices s).map (· + (n : Int)) := by
  have hlist : ∀ s : Int × Int, indices s =
      (List.range (s.2 - s.1).toNat).map fun (k : Nat) => s.1 + k := fun _ => rfl
  rw [hlist, hlist, List.map_map]
  by_cases hempty : s.2 ≤ s.1
  · have ht := (h t.1).not.mp (by omega)
    rw [show (t.2 - t.1).toNat = 0 by omega, show (s.2 - s.1).toNat = 0 by omega]
    rfl
  · -- both ends of either span lie in the other one
    have hfirst := (h (s.1 + n)).mp (by omega)
    have hlast := (h (s.2 - 1 + n)).mp (by omega)
    have hfirst' := (h t.1).mpr (by omega)
    have hlast' := (h (t.2 - 1)).mpr (by omega)
    rw [show t.2 - t.1 = s.2 - s.1 by omega]
    refine List.map_congr_left fun k _ => ?_
    show t.1 + k = s.1 + k + n
    omega

/-- The pixels of an area along one axis, where a window holds all of them that the raster has. -/
theorem indices_span {lower upper : Rat} {n size wholeSize : Nat} {reached : Set Int}
    (hiff : ∀ i ∈ reached, (0 ≤ i - n ∧ i - n < size) ↔ 0 ≤ i ∧ i < wholeSize)
    (hreached : ∀ i, ⌈lower - 1 / 2⌉ ≤ i → i < ⌈upper - 1 / 2⌉ → i ∈ reached) :
    indices (span lower upper wholeSize) =
      (indices (span (lower - n) (upper - n) size)).map (· + (n : Int)) := by
  have hceil : ∀ x : Rat, ⌈x - n - 1 / 2⌉ = ⌈x - 1 / 2⌉ - n := by
    intro x
    rw [sub_right_comm, Int.ceil_sub_natCast]
  refine indices_shift fun i => ?_
  rw [span_eq, span_eq, hceil, hceil]
  simp only
  -- only where the area lies do the ends of the window and of the raster matter
  by_cases hi : ⌈lower - 1 / 2⌉ ≤ i ∧ i < ⌈upper - 1 / 2⌉
  · have := hiff i (hreached i hi.1 hi.2)
    omega
  · omega

variable {V : Type} [Sample V Rat] {view whole : WindowView V} {row0 col0 : Nat}
  {rows cols : Set Int}

/-- A window has the samples of an area that the whole raster has. -/
theorem coveredValues_relativeTo (h : view.Shows whole row0 col0 rows cols)
    {fp : PixelFootprint Rat}
    (hrows : ∀ i, ⌈fp.minV - 1 / 2⌉ ≤ i → i < ⌈fp.maxV - 1 / 2⌉ → i ∈ rows)
    (hcols : ∀ j, ⌈fp.minU - 1 / 2⌉ ≤ j → j < ⌈fp.maxU - 1 / 2⌉ → j ∈ cols) :
    (fp.relativeTo ⟨col0, row0⟩).coveredValues view = fp.coveredValues whole := by
  have hmem : ∀ {lower upper : Rat} {n size : Nat} {i : Int},
      i ∈ indices (span (lower - n) (upper - n) size) →
      ⌈lower - 1 / 2⌉ ≤ i + n ∧ i + n < ⌈upper - 1 / 2⌉ := by
    intro lower upper n size i hi
    rw [mem_indices, span_eq, sub_right_comm, Int.ceil_sub_natCast, sub_right_comm,
      Int.ceil_sub_natCast] at hi
    simp only at hi
    omega
  show List.flatMap _ (indices (span (fp.minV - row0) (fp.maxV - row0) _)) =
    List.flatMap _ (indices (span fp.minV fp.maxV _))
  rw [indices_span h.row_iff hrows, indices_span h.col_iff hcols, List.flatMap_map]
  refine List.flatMap_congr fun i hi => ?_
  rw [List.map_map]
  refine congrArg _ (List.map_congr_left fun j hj => ?_)
  obtain ⟨hi, hi'⟩ := hmem hi
  obtain ⟨hj, hj'⟩ := hmem hj
  have hsample := h.sample_eq _ (hrows _ hi hi') _ (hcols _ hj hj')
  rw [add_sub_cancel_right, add_sub_cancel_right] at hsample
  exact hsample

end PixelFootprint

/-! ## Kernels -/

namespace Resampling

section Shift

variable {V : Type} [Sample V Rat]

/-- The cell in which a position lies moves with the position. -/
theorem cellOf_sub (x : Rat) (n : Nat) :
    (cellOf (x - n - 0.5) : Int × V) = (⌊x - 1 / 2⌋ - n, (cellOf (x - 0.5)).2) := by
  have hhalf : (0.5 : Rat) = 1 / 2 := by norm_num
  have hfloor : (x - n - 1 / 2).floor = ⌊x - 1 / 2⌋ - (n : Int) := by
    rw [sub_right_comm]
    exact Int.floor_sub_natCast (x - 1 / 2) n
  unfold cellOf
  rw [Exact.toInt_floor, hhalf, hfloor]
  refine congrArg (Prod.mk _) (congrArg Sample.narrow ?_)
  show x - n - 1 / 2 - ((x - n - 1 / 2).floor : Rat) = x - 1 / 2 - ((x - 1 / 2).floor : Rat)
  rw [hfloor]
  push_cast
  show x - n - 1 / 2 - ((⌊x - 1 / 2⌋ : Rat) - n) = x - 1 / 2 - (⌊x - 1 / 2⌋ : Rat)
  ring

theorem cellOf_fst (x : Rat) : (cellOf (x - 0.5) : Int × V).1 = ⌊x - 1 / 2⌋ := by
  have h := congrArg Prod.fst (cellOf_sub (V := V) x 0)
  simpa using h

variable {view whole : WindowView V} {row0 col0 : Nat} {rows cols : Set Int} {u v : Rat}

theorem nearestAt_sub (h : view.Shows whole row0 col0 rows cols) (hu : ⌊u⌋ ∈ cols)
    (hv : ⌊v⌋ ∈ rows) : nearestAt view (u - col0) (v - row0) = nearestAt whole u v := by
  have hfloor : ∀ (x : Rat) (n : Nat), (x - n).floor = ⌊x⌋ - (n : Int) := Int.floor_sub_natCast
  unfold nearestAt
  simp only [Exact.isFinite_eq, Bool.and_self, if_true, Exact.toInt_floor]
  rw [hfloor, hfloor]
  exact h.sample_eq _ hv _ hu

theorem bilinearAt_sub (h : view.Shows whole row0 col0 rows cols) (hu : ⌊u⌋ ∈ cols)
    (hv : ⌊v⌋ ∈ rows) (hcols : ∀ k : Int, 0 ≤ k → k ≤ 1 → ⌊u - 1 / 2⌋ + k ∈ cols)
    (hrows : ∀ k : Int, 0 ≤ k → k ≤ 1 → ⌊v - 1 / 2⌋ + k ∈ rows) :
    bilinearAt view (u - col0) (v - row0) = bilinearAt whole u v := by
  have hsample : ∀ k l : Int, 0 ≤ k → k ≤ 1 → 0 ≤ l → l ≤ 1 →
      view.sample (⌊v - 1 / 2⌋ - row0 + k) (⌊u - 1 / 2⌋ - col0 + l) =
        whole.sample (⌊v - 1 / 2⌋ + k) (⌊u - 1 / 2⌋ + l) := by
    intro k l hk hk' hl hl'
    rw [sub_add_eq_add_sub, sub_add_eq_add_sub]
    exact h.sample_eq _ (hrows k hk hk') _ (hcols l hl hl')
  have h00 := hsample 0 0 (by omega) (by omega) (by omega) (by omega)
  have h01 := hsample 0 1 (by omega) (by omega) (by omega) (by omega)
  have h10 := hsample 1 0 (by omega) (by omega) (by omega) (by omega)
  have h11 := hsample 1 1 (by omega) (by omega) (by omega) (by omega)
  simp only [add_zero] at h00 h01 h10 h11
  unfold bilinearAt
  simp only [Exact.isFinite_eq, Bool.and_self, if_true, cellOf_sub, cellOf_fst, h00, h01, h10, h11,
    nearestAt_sub h hu hv]

theorem rowOfFour_sub (h : view.Shows whole row0 col0 rows cols) {row col : Int} (hrow : row ∈ rows)
    (hcols : ∀ k : Int, -1 ≤ k → k ≤ 2 → col + k ∈ cols) :
    rowOfFour view (row - row0) (col - col0) = rowOfFour whole row col := by
  have hsample : ∀ k : Int, -1 ≤ k → k ≤ 2 →
      view.sample (row - row0) (col - col0 + k) = whole.sample row (col + k) := by
    intro k hk hk'
    rw [sub_add_eq_add_sub]
    exact h.sample_eq _ hrow _ (hcols k hk hk')
  have hfirst := hsample (-1) (by omega) (by omega)
  have hsecond := hsample 0 (by omega) (by omega)
  simp only [← sub_eq_add_neg, add_zero] at hfirst hsecond
  unfold rowOfFour
  rw [hfirst, hsecond, hsample 1 (by omega) (by omega), hsample 2 (by omega) (by omega)]

theorem cubicAt_sub (h : view.Shows whole row0 col0 rows cols) (hu : ⌊u⌋ ∈ cols)
    (hv : ⌊v⌋ ∈ rows) (hcols : ∀ k : Int, -1 ≤ k → k ≤ 2 → ⌊u - 1 / 2⌋ + k ∈ cols)
    (hrows : ∀ k : Int, -1 ≤ k → k ≤ 2 → ⌊v - 1 / 2⌋ + k ∈ rows) :
    cubicAt view (u - col0) (v - row0) = cubicAt whole u v := by
  have hrow : ∀ k : Int, -1 ≤ k → k ≤ 2 →
      rowOfFour view (⌊v - 1 / 2⌋ - row0 + k) (⌊u - 1 / 2⌋ - col0) =
        rowOfFour whole (⌊v - 1 / 2⌋ + k) ⌊u - 1 / 2⌋ := by
    intro k hk hk'
    rw [sub_add_eq_add_sub]
    exact rowOfFour_sub h (hrows k hk hk') hcols
  -- where one of the sixteen samples is missing the four in the middle are used
  have hbilinear := bilinearAt_sub h hu hv (fun k hk hk' => hcols k (by omega) (by omega))
    (fun k hk hk' => hrows k (by omega) (by omega))
  have hfirst := hrow (-1) (by omega) (by omega)
  have hsecond := hrow 0 (by omega) (by omega)
  simp only [← sub_eq_add_neg, add_zero] at hfirst hsecond
  unfold cubicAt
  simp only [Exact.isFinite_eq, Bool.and_self, if_true, cellOf_sub, cellOf_fst, hfirst, hsecond,
    hrow 1 (by omega) (by omega), hrow 2 (by omega) (by omega), hbilinear]

theorem one_le_kernelRadius (method : Resampling) : 1 ≤ method.kernelRadius := by
  cases method <;> decide

/-- Every method gives on a window what it gives on the whole raster, where the window shows all
that is reached from the box in which the position and the area lie. -/
theorem sampleAt_window {method : Resampling} {bounds : Box Rat}
    (h : view.Shows whole row0 col0 (reach bounds.minY bounds.maxY method.kernelRadius)
      (reach bounds.minX bounds.maxX method.kernelRadius))
    (hu : bounds.minX ≤ u ∧ u ≤ bounds.maxX) (hv : bounds.minY ≤ v ∧ v ≤ bounds.maxY)
    {area : PixelFootprint Rat} (harea : bounds.Encloses area.box) :
    method.sampleAt view (u - col0) (v - row0) (some (area.relativeTo ⟨col0, row0⟩)) =
      method.sampleAt whole u v (some area) := by
  have hradius := one_le_kernelRadius method
  have hcol := Warp.floor_mem_reach hu.1 hu.2 hradius
  have hrow := Warp.floor_mem_reach hv.1 hv.2 hradius
  have hnearest := nearestAt_sub h hcol hrow
  -- an area without valid samples falls back to the nearest pixel
  have hcovered : (area.relativeTo ⟨col0, row0⟩).coveredValues view = area.coveredValues whole :=
    PixelFootprint.coveredValues_relativeTo h
      (fun i => Warp.centre_mem_reach harea.below harea.above)
      (fun j => Warp.centre_mem_reach harea.left harea.right)
  cases method with
  | nearest => exact hnearest
  | bilinear =>
    exact bilinearAt_sub h hcol hrow
      (fun k hk hk' => Warp.cell_mem_reach hu.1 hu.2 hk hk')
      (fun k hk hk' => Warp.cell_mem_reach hv.1 hv.2 hk hk')
  | cubic =>
    exact cubicAt_sub h hcol hrow
      (fun k hk hk' => Warp.cell_mem_reach hu.1 hu.2 hk hk')
      (fun k hk hk' => Warp.cell_mem_reach hv.1 hv.2 hk hk')
  | mode =>
    show (modeIn? _ _).getD _ = (modeIn? _ _).getD _
    unfold modeIn?
    rw [hcovered, hnearest]
  | average =>
    show (averageIn? _ _).getD _ = (averageIn? _ _).getD _
    unfold averageIn?
    rw [hcovered, hnearest]

end Shift

/-! ## Windows without pixels and methods without areas -/

variable {V K : Type} [Coordinate K] [Sample V K]

/-- The methods that take no area ignore it. -/
theorem sampleAt_of_not_isArea {method : Resampling}
    (h : method.isArea = false) (view : WindowView V) (u v : K)
    (area area' : Option (PixelFootprint K)) :
    method.sampleAt view u v area = method.sampleAt view u v area' := by
  cases method <;> first | rfl | cases h

theorem isNaN_nearestAt_of_empty (hnan : Sample.isNaN (Sample.nan : V) = true)
    {view : WindowView V} (hempty : ∀ row col, view.sample row col = Sample.nan) (u v : K) :
    Sample.isNaN (nearestAt view u v) = true := by
  unfold nearestAt
  split
  · rw [hempty, hnan]
  · exact hnan

theorem coveredValues_of_empty (hnan : Sample.isNaN (Sample.nan : V) = true)
    {view : WindowView V} (hempty : ∀ row col, view.sample row col = Sample.nan)
    (fp : PixelFootprint K) : fp.coveredValues view = [] := by
  unfold PixelFootprint.coveredValues
  split
  · refine List.flatMap_eq_nil_iff.mpr fun row _ => List.filter_eq_nil_iff.mpr fun v hv => ?_
    obtain ⟨col, -, rfl⟩ := List.mem_map.mp hv
    rw [hempty, hnan]
    exact Bool.false_ne_true
  · rfl

/-- No method finds a valid value in a window without valid samples. -/
theorem isNaN_sampleAt_of_empty (hnan : Sample.isNaN (Sample.nan : V) = true)
    {view : WindowView V} (hempty : ∀ row col, view.sample row col = Sample.nan)
    (method : Resampling) (u v : K) (area : Option (PixelFootprint K)) :
    Sample.isNaN (method.sampleAt view u v area) = true := by
  have hnearest := isNaN_nearestAt_of_empty hnan hempty u v
  have hcovered := coveredValues_of_empty hnan hempty (K := K)
  have hbilinear : Sample.isNaN (bilinearAt view u v) = true := by
    unfold bilinearAt
    split
    · simp only [hempty, hnan, Bool.true_or, if_true]
      exact hnearest
    · exact hnan
  cases method with
  | nearest => exact hnearest
  | bilinear => exact hbilinear
  | cubic =>
    show Sample.isNaN (cubicAt view u v) = true
    unfold cubicAt
    split
    · simp only [rowOfFour, anyNaN, hempty, hnan, Bool.true_or, if_true]
      exact hbilinear
    · exact hnan
  | mode =>
    have hmode : ∀ fp : PixelFootprint K, modeIn? view fp = none := by
      intro fp
      unfold modeIn?
      rw [hcovered, List.mergeSort_nil]
      rfl
    show Sample.isNaN ((area.bind (modeIn? view)).getD (nearestAt view u v)) = true
    rw [funext hmode, Option.bind_fun_none]
    exact hnearest
  | average =>
    have haverage : ∀ fp : PixelFootprint K, averageIn? view fp = none := by
      intro fp
      unfold averageIn?
      rw [hcovered]
    show Sample.isNaN ((area.bind (averageIn? view)).getD (nearestAt view u v)) = true
    rw [funext haverage, Option.bind_fun_none]
    exact hnearest

end Resampling

end Mosaic
