import Mosaic.Proofs.Kernel

/-!
# Kernels at the centre of a pixel

At the centre of a pixel every method gives the sample of that pixel, in exact arithmetic and with
the square of the pixel as the area (`sampleAt_center`). Interpolation has no way to go to the next
centre, its weights are one and zero, and where a neighbour is missing the methods step back to the
pixel itself. The square, of which the upper and right edges are left out, holds one pixel centre.
-/

namespace Mosaic

open Exact (Reading)

/-! ## Samples -/

namespace Exact.Reading

theorem eq_some_of_not_isNaN {v : Reading} (h : Sample.isNaN v = false) : ∃ x, v = ⟨some x⟩ := by
  obtain ⟨_ | x⟩ := v
  · cases h
  · exact ⟨x, rfl⟩

end Exact.Reading

/-! ## The square of a pixel -/

/-- The square of a pixel of a raster. -/
def PixelFootprint.ofPixel (row col : Int) : PixelFootprint Rat := ⟨col, row, col + 1, row + 1⟩

namespace PixelFootprint

/-- From one whole number to the next lies one pixel centre, which the raster may have or not. -/
theorem indices_unit (k : Int) (size : Nat) :
    indices (span (k : Rat) (k + 1) size) = if 0 ≤ k ∧ k < size then [k] else [] := by
  have hfirst : ⌈(k : Rat) - 1 / 2⌉ = k := by
    rw [Int.ceil_eq_iff]
    constructor <;> linarith
  have hlast : ⌈(k : Rat) + 1 - 1 / 2⌉ = k + 1 := by
    rw [Int.ceil_eq_iff]
    push_cast
    constructor <;> linarith
  have hlist : ∀ s : Int × Int, indices s =
      (List.range (s.2 - s.1).toNat).map fun (n : Nat) => s.1 + n := fun _ => rfl
  rw [span_eq, hfirst, hlast, hlist]
  simp only
  split
  · rw [show max k 0 = k by omega, show (min (k + 1) size - k).toNat = 1 by omega]
    simp
  · rw [show (min (k + 1) size - max k 0).toNat = 0 by omega]
    rfl

/-- The square of a pixel holds the sample of that pixel if it is valid, and no other. -/
theorem coveredValues_ofPixel (view : WindowView Reading) (row col : Int) :
    (ofPixel row col).coveredValues view =
      if Sample.isNaN (view.sample row col) then [] else [view.sample row col] := by
  show List.flatMap _ (indices (span (row : Rat) (row + 1) _)) = _
  rw [indices_unit]
  simp only [ofPixel, indices_unit]
  by_cases hinside : (0 ≤ row ∧ row < view.shape.height) ∧ 0 ≤ col ∧ col < view.shape.width
  · rw [if_pos hinside.1, if_pos hinside.2, List.flatMap_singleton, List.map_singleton]
    cases hvalid : Sample.isNaN (view.sample row col) <;> simp [hvalid]
  · have hnan : Sample.isNaN (Sample.nan : Reading) = true := rfl
    rw [WindowView.sample_of_outside hinside, if_pos hnan]
    rcases not_and_or.mp hinside with h | h
    · rw [if_neg h, List.flatMap_nil]
    · rw [if_neg h]
      exact List.flatMap_eq_nil_iff.mpr fun _ _ => rfl

end PixelFootprint

/-! ## Kernels -/

namespace Resampling

theorem floor_center (k : Int) : ((k : Rat) + 1 / 2).floor = k := by
  show ⌊(k : Rat) + 1 / 2⌋ = k
  rw [Int.floor_eq_iff]
  constructor <;> linarith

variable (view : WindowView Reading) (row col : Int)

theorem nearestAt_center :
    nearestAt view ((col : Rat) + 1 / 2) (row + 1 / 2) = view.sample row col := by
  unfold nearestAt
  simp only [Exact.isFinite_eq, Bool.and_self, if_true, Exact.toInt_floor, floor_center]

/-- From the centre of a pixel there is no way to go to that centre. -/
theorem cellOf_center (k : Int) :
    (cellOf ((k : Rat) + 1 / 2 - 0.5) : Int × Reading) = (k, ⟨some 0⟩) := by
  have hcentre : (k : Rat) + 1 / 2 - 0.5 = k := by
    norm_num
  rw [hcentre]
  unfold cellOf
  rw [Exact.toInt_floor, Rat.floor_intCast]
  refine congrArg (Prod.mk k) ?_
  show (⟨some ((k : Rat) - ((k : Rat).floor : Rat))⟩ : Reading) = ⟨some 0⟩
  rw [Rat.floor_intCast, sub_self]

theorem bilinearAt_center :
    bilinearAt view ((col : Rat) + 1 / 2) (row + 1 / 2) = view.sample row col := by
  unfold bilinearAt
  simp only [Exact.isFinite_eq, Bool.and_self, if_true, cellOf_center, nearestAt_center]
  split
  · rfl
  · next hvalid =>
    -- four numbers, of which the first has the weight one
    simp only [Bool.or_eq_true, not_or, Bool.not_eq_true] at hvalid
    obtain ⟨⟨⟨h00, h10⟩, h01⟩, h11⟩ := hvalid
    obtain ⟨a, ha⟩ := Reading.eq_some_of_not_isNaN h00
    obtain ⟨b, hb⟩ := Reading.eq_some_of_not_isNaN h10
    obtain ⟨c, hc⟩ := Reading.eq_some_of_not_isNaN h01
    obtain ⟨e, he⟩ := Reading.eq_some_of_not_isNaN h11
    rw [ha, hb, hc, he]
    have hstart :
        (a * (1.0 - 0) + b * 0) * (1.0 - 0) + (c * (1.0 - 0) + e * 0) * 0 = a := by
      norm_num
    exact congrArg (Reading.mk ∘ some) hstart

/-- A spline begins at the second of its four values. -/
theorem spline_zero {p0 p1 p2 p3 : Reading} (h0 : Sample.isNaN p0 = false)
    (h1 : Sample.isNaN p1 = false) (h2 : Sample.isNaN p2 = false) (h3 : Sample.isNaN p3 = false) :
    spline p0 p1 p2 p3 ⟨some 0⟩ = p1 := by
  obtain ⟨a, rfl⟩ := Reading.eq_some_of_not_isNaN h0
  obtain ⟨b, rfl⟩ := Reading.eq_some_of_not_isNaN h1
  obtain ⟨c, rfl⟩ := Reading.eq_some_of_not_isNaN h2
  obtain ⟨e, rfl⟩ := Reading.eq_some_of_not_isNaN h3
  have hstart : (-0.5 * a + 1.5 * b - 1.5 * c + 0.5 * e) * (0 * 0 * 0) +
      (a - 2.5 * b + 2.0 * c - 0.5 * e) * (0 * 0) + (-0.5 * a + 0.5 * c) * 0 + b = b := by
    simp only [mul_zero, add_zero, zero_add]
  exact congrArg (Reading.mk ∘ some) hstart

theorem cubicAt_center :
    cubicAt view ((col : Rat) + 1 / 2) (row + 1 / 2) = view.sample row col := by
  unfold cubicAt
  simp only [Exact.isFinite_eq, Bool.and_self, if_true, cellOf_center, bilinearAt_center]
  split
  · rfl
  · next hvalid =>
    simp only [anyNaN, Bool.or_eq_true, not_or, Bool.not_eq_true] at hvalid
    obtain ⟨⟨⟨h0, h1⟩, h2⟩, h3⟩ := hvalid
    -- every row gives the value that it has in the column, and of those the second one counts
    have hrow : ∀ {r : Reading × Reading × Reading × Reading},
        ((Sample.isNaN r.1 = false ∧ Sample.isNaN r.2.1 = false) ∧ Sample.isNaN r.2.2.1 = false) ∧
          Sample.isNaN r.2.2.2 = false → splineOf r ⟨some 0⟩ = r.2.1 :=
      fun h => spline_zero h.1.1.1 h.1.1.2 h.1.2 h.2
    rw [hrow h0, hrow h1, hrow h2, hrow h3]
    exact spline_zero h0.1.1.2 h1.1.1.2 h2.1.1.2 h3.1.1.2

theorem modeIn?_ofPixel : (modeIn? view (.ofPixel row col)).getD (view.sample row col) =
    view.sample row col := by
  unfold modeIn?
  rw [PixelFootprint.coveredValues_ofPixel]
  split
  · rw [List.mergeSort_nil]
    rfl
  · rw [List.mergeSort_singleton]
    rfl

/-- The mean of one number is that number. -/
theorem meanOf_singleton (x : Rat) : meanOf [(⟨some x⟩ : Reading)] = ⟨some x⟩ := by
  have hmean : (0.0 + x) / ((1 : Int) : Rat) = x := by
    norm_num
  exact congrArg (Reading.mk ∘ some) hmean

theorem averageIn?_ofPixel : (averageIn? view (.ofPixel row col)).getD (view.sample row col) =
    view.sample row col := by
  unfold averageIn?
  rw [PixelFootprint.coveredValues_ofPixel]
  cases hvalid : Sample.isNaN (view.sample row col) with
  | true => rfl
  | false =>
    obtain ⟨x, hx⟩ := Reading.eq_some_of_not_isNaN hvalid
    rw [hx]
    exact meanOf_singleton x

/-- Every method gives at the centre of a pixel the sample of that pixel, which may be missing. -/
theorem sampleAt_center (method : Resampling) {area : Option (PixelFootprint Rat)}
    (harea : method.isArea = true → area = some (.ofPixel row col)) :
    method.sampleAt view ((col : Rat) + 1 / 2) (row + 1 / 2) area = view.sample row col := by
  cases method with
  | nearest => exact nearestAt_center view row col
  | bilinear => exact bilinearAt_center view row col
  | cubic => exact cubicAt_center view row col
  | mode =>
    rw [harea rfl]
    show (modeIn? view _).getD (nearestAt view _ _) = _
    rw [nearestAt_center]
    exact modeIn?_ofPixel view row col
  | average =>
    rw [harea rfl]
    show (averageIn? view _).getD (nearestAt view _ _) = _
    rw [nearestAt_center]
    exact averageIn?_ofPixel view row col

end Resampling

end Mosaic
