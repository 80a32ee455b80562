import Mathlib.Data.Finset.Prod
import Mosaic.Proofs.Binary.Ordering
import Mosaic.Proofs.Binary.Products
import Mosaic.Proofs.Kernel

/-!
# The pixels of an area and their mode

The methods that look at an area take the valid pixels of a window whose centres lie in it. Their
rows and columns are picked by two ranges of whole numbers; testing every pixel of the window picks
the same ones, each of them once (`coveredValues_eq`). The mode of an area is the value that most of
these pixels have, and the smallest of several (`mode_most_frequent`).
-/

namespace Mosaic

namespace PixelFootprint

/-- The centre of a pixel lies in an area. The lower ends of an area belong to it, the upper ends do
not. -/
def HoldsCentre (fp : PixelFootprint Rat) (row col : Int) : Prop :=
  (fp.minU ≤ col + 1 / 2 ∧ col + 1 / 2 < fp.maxU) ∧ fp.minV ≤ row + 1 / 2 ∧ row + 1 / 2 < fp.maxV

instance (fp : PixelFootprint Rat) (row col : Int) : Decidable (fp.HoldsCentre row col) :=
  inferInstanceAs (Decidable (_ ∧ _))

theorem mem_indices_span {lower upper : Rat} {size : Nat} {i : Int} :
    i ∈ indices (span lower upper size) ↔
      (0 ≤ i ∧ i < size) ∧ lower ≤ i + 1 / 2 ∧ i + 1 / 2 < upper := by
  rw [mem_indices, span_eq, max_le_iff, lt_min_iff, Int.ceil_le, Int.lt_ceil, sub_le_iff_le_add,
    lt_sub_iff_add_lt]
  tauto

theorem nodup_indices (s : Int × Int) : (indices s).Nodup :=
  List.nodup_range.map fun _ _ h => Int.ofNat_inj.mp (Int.add_left_cancel h)

variable {V : Type} [Sample V Rat]

/-- The valid pixels of a window whose centres lie in an area. -/
def validPixels (fp : PixelFootprint Rat) (view : WindowView V) : Finset (Nat × Nat) :=
  (Finset.range view.shape.height ×ˢ Finset.range view.shape.width).filter fun p =>
    fp.HoldsCentre p.1 p.2 ∧ Sample.isNaN (view.sample p.1 p.2) = false

theorem mem_validPixels {fp : PixelFootprint Rat} {view : WindowView V} {row col : Nat} :
    (row, col) ∈ fp.validPixels view ↔ (row < view.shape.height ∧ col < view.shape.width) ∧
      fp.HoldsCentre row col ∧ Sample.isNaN (view.sample row col) = false := by
  rw [validPixels, Finset.mem_filter, Finset.mem_product, Finset.mem_range, Finset.mem_range]

/-- The same pixels by the two ranges that are gone through, row by row. -/
def scannedPixels (fp : PixelFootprint Rat) (view : WindowView V) : List (Int × Int) :=
  ((indices (span fp.minV fp.maxV view.shape.height)).product
    (indices (span fp.minU fp.maxU view.shape.width))).filter fun p =>
      !Sample.isNaN (view.sample p.1 p.2)

variable (fp : PixelFootprint Rat) (view : WindowView V)

theorem coveredValues_eq_map :
    fp.coveredValues view = (fp.scannedPixels view).map fun p => view.sample p.1 p.2 := by
  have hrow : ∀ (row : Int) (cols : List Int),
      ((cols.map (Prod.mk row)).filter fun p => !Sample.isNaN (view.sample p.1 p.2)).map
        (fun p => view.sample p.1 p.2) =
      (cols.map fun col => view.sample row col).filter fun v => !Sample.isNaN v := by
    intro row cols
    rw [List.filter_map, List.filter_map, List.map_map]
    rfl
  unfold coveredValues scannedPixels List.product
  rw [List.filter_flatMap, List.map_flatMap]
  simp only [hrow]
  rfl

/-- Going through the two ranges meets each valid pixel of the area once. -/
theorem scannedPixels_eq : (fp.scannedPixels view : Multiset (Int × Int)) =
    (fp.validPixels view).val.map fun p => ((p.1 : Int), (p.2 : Int)) := by
  have hscanned : (fp.scannedPixels view).Nodup :=
    ((nodup_indices _).product (nodup_indices _)).filter _
  have hvalid : ((fp.validPixels view).val.map fun p => ((p.1 : Int), (p.2 : Int))).Nodup := by
    refine (fp.validPixels view).nodup.map ?_
    rintro ⟨row, col⟩ ⟨row', col'⟩ h
    obtain ⟨hrow, hcol⟩ := Prod.mk.inj h
    exact Prod.ext (Int.ofNat_inj.mp hrow) (Int.ofNat_inj.mp hcol)
  refine (Multiset.Nodup.ext (Multiset.coe_nodup.mpr hscanned) hvalid).mpr ?_
  rintro ⟨row, col⟩
  rw [Multiset.mem_coe, scannedPixels, List.mem_filter, List.pair_mem_product, mem_indices_span,
    mem_indices_span, Bool.not_eq_true', Multiset.mem_map]
  constructor
  · rintro ⟨⟨⟨⟨hrow, hheight⟩, hv⟩, ⟨hcol, hwidth⟩, hu⟩, hnumber⟩
    lift row to Nat using hrow
    lift col to Nat using hcol
    exact ⟨(row, col), mem_validPixels.mpr
      ⟨⟨Int.ofNat_lt.mp hheight, Int.ofNat_lt.mp hwidth⟩, ⟨hu, hv⟩, hnumber⟩, rfl⟩
  · rintro ⟨⟨row, col⟩, hp, ⟨⟩⟩
    obtain ⟨⟨hheight, hwidth⟩, ⟨hu, hv⟩, hnumber⟩ := mem_validPixels.mp hp
    exact ⟨⟨⟨⟨Int.natCast_nonneg row, Int.ofNat_lt.mpr hheight⟩, hv⟩,
      ⟨Int.natCast_nonneg col, Int.ofNat_lt.mpr hwidth⟩, hu⟩, hnumber⟩

/-- The values of an area are those of its valid pixels, each taken once. -/
theorem coveredValues_eq : (fp.coveredValues view : Multiset V) =
    (fp.validPixels view).val.map fun p => view.sample p.1 p.2 := by
  rw [coveredValues_eq_map, ← Multiset.map_coe, scannedPixels_eq, Multiset.map_map]
  rfl

variable {fp view}

theorem mem_coveredValues {v : V} :
    v ∈ fp.coveredValues view ↔ ∃ p ∈ fp.validPixels view, view.sample p.1 p.2 = v := by
  rw [← Multiset.mem_coe, coveredValues_eq, Multiset.mem_map]
  rfl

theorem coveredValues_eq_nil_iff : fp.coveredValues view = [] ↔ fp.validPixels view = ∅ := by
  rw [← Multiset.coe_eq_zero, coveredValues_eq, Multiset.map_eq_zero, Finset.val_eq_zero]

/-- How many valid pixels of an area have a value. -/
def frequency (fp : PixelFootprint Rat) (view : WindowView V) (v : V) : Nat :=
  ((fp.validPixels view).filter fun p => (view.sample p.1 p.2 == v) = true).card

theorem count_coveredValues (v : V) : (fp.coveredValues view).count v = fp.frequency view v := by
  have hcount : (fp.coveredValues view).count v =
      Multiset.countP (fun w => (w == v) = true) (fp.coveredValues view) := by
    rw [Multiset.coe_countP, List.count]
    simp only [Bool.decide_eq_true]
  rw [hcount, coveredValues_eq, Multiset.countP_map]
  rfl

end PixelFootprint

/-! ## The mode -/

/-- The single nearest to a fraction. -/
def Exact.nearestSingle (x : Rat) : Float32 :=
  if h : 0 < x.num.natAbs then
    Binary.packSingle (.div .binary32
      (.finite (if x < 0 then .negative else .positive) x.num.natAbs 0 h)
      (.finite .positive x.den 0 x.den_pos))
  else 0.0

/-- Singles as samples at exact positions. They compare and are sorted as on the machine. -/
@[reducible] def Exact.singles : Sample Float32 Rat where
  decLt := Float32.decLt
  isNaN := Float32.isNaN
  isFinite := Float32.isFinite
  nan := 0.0 / 0.0
  narrow := Exact.nearestSingle
  widen v := (Binary.toRat? (Binary.widen v)).getD 0
  totalLe v w := Machine.orderKey v ≤ Machine.orderKey w
  ofFloat := Binary.narrow
  ofText := NumberText.toFloat32
  plain := plainText32
  toJson := Json.ofFloat32

namespace Resampling

open PixelFootprint

theorem isMeasure_exact : @Sample.IsMeasure Float32 Rat _ Exact.singles _ fun v =>
    Binary.rank (Binary.unpackSingle v) :=
  have h := Binary.isMeasure_rank
  @Sample.IsMeasure.mk _ _ _ Exact.singles _ _ h.beq_iff h.lt_iff h.measure_le h.totalLe_trans
    h.totalLe_total

theorem modeIn?_of_not_finite {V K : Type} [Coordinate K] [Sample V K] (view : WindowView V)
    {fp : PixelFootprint K} (h : fp.isFinite = false) : modeIn? view fp = none := by
  rw [modeIn?_eq_none_iff, PixelFootprint.coveredValues, h]
  rfl

-- From here on singles are taken at exact positions, unless the positions are said to be doubles.
attribute [local instance (high)] Exact.singles

/-- An area that is not finite has no mode, whatever the numbers. With singles at exact positions
there is none only when no valid pixel has its centre in the area. Else going through the sorted
values run by run comes to an end with the mode. It is the value of a valid pixel, no value is that
of more pixels, and it is below all other values that as many pixels have. -/
theorem mode_most_frequent :
    (∀ (V K : Type) [Coordinate K] [Sample V K] (view : WindowView V) (fp : PixelFootprint K),
      fp.isFinite = false → modeIn? view fp = none) ∧
    ∀ (view : WindowView Float32) (fp : PixelFootprint Rat),
      (modeIn? view fp = none ↔ ∀ row < view.shape.height, ∀ col < view.shape.width,
        fp.HoldsCentre row col → (view.sample row col).isNaN = true) ∧
      ∀ v, modeIn? view fp = some v →
        (∃ first rest, (fp.coveredValues view).mergeSort Sample.totalLe = first :: rest ∧
          RunSearch (first :: rest) (first, 0) v) ∧
        (∃ p ∈ fp.validPixels view, view.sample p.1 p.2 = v) ∧
        ∀ p ∈ fp.validPixels view, let w := view.sample p.1 p.2
          fp.frequency view w ≤ fp.frequency view v ∧
            (fp.frequency view w = fp.frequency view v → (w == v) = true ∨ v < w) := by
  refine ⟨fun V K _ _ view fp => modeIn?_of_not_finite view, fun view fp => ⟨?_, fun v hmode => ?_⟩⟩
  · rw [modeIn?_eq_none_iff, coveredValues_eq_nil_iff, Finset.eq_empty_iff_forall_notMem]
    constructor
    · intro h row hrow col hcol hcentre
      by_contra hnumber
      exact h (row, col) (mem_validPixels.mpr
        ⟨⟨hrow, hcol⟩, hcentre, Bool.eq_false_of_not_eq_true hnumber⟩)
    · rintro h ⟨row, col⟩ hp
      obtain ⟨⟨hrow, hcol⟩, hcentre, hnumber⟩ := mem_validPixels.mp hp
      have hnan : Sample.isNaN (view.sample row col) = true := h row hrow col hcol hcentre
      rw [hnan] at hnumber
      cases hnumber
  · obtain ⟨hmem, hmost, hleast⟩ := isMode_of_modeIn? isMeasure_exact hmode
    refine ⟨(modeIn?_eq_some_iff isMeasure_exact).mp hmode, mem_coveredValues.mp hmem,
      fun p hp => ?_⟩
    have hp : view.sample p.1 p.2 ∈ fp.coveredValues view := mem_coveredValues.mpr ⟨p, hp, rfl⟩
    have hcount : ∀ v, (fp.coveredValues view).count v = fp.frequency view v := count_coveredValues
    exact ⟨by rw [← hcount, ← hcount]; exact hmost _ hp,
      fun heq => hleast _ hp (by rw [hcount, hcount]; exact heq)⟩

/-- Six pixels: ones, threes, one that is not valid and a seven. -/
def tiedWindow : WindowView Float32 := ⟨⟨2, 3⟩, #[1.0, 1.0, 3.0, 3.0, 0.0 / 0.0, 7.0]⟩

theorem mode_most_frequent_tied :
    @modeIn? Float32 Float _ Machine.instSampleFloat32Float tiedWindow ⟨0.0, 0.0, 1.0 / 0.0, 2.0⟩ =
      none ∧
    modeIn? tiedWindow (⟨0, 0, 3, 2⟩ : PixelFootprint Rat) = some 1.0 ∧
    PixelFootprint.frequency ⟨0, 0, 3, 2⟩ tiedWindow 3.0 =
      PixelFootprint.frequency ⟨0, 0, 3, 2⟩ tiedWindow 1.0 ∧
    (((3.0 : Float32) == 1.0) = true ∨ (1.0 : Float32) < 3.0) := by
  have hfinite : (⟨0.0, 0.0, 1.0 / 0.0, 2.0⟩ : PixelFootprint Float).isFinite = false := by
    decide +kernel
  have hcovered : PixelFootprint.coveredValues ⟨0, 0, 3, 2⟩ tiedWindow =
      [1.0, 1.0, 3.0, 3.0, 7.0] := by decide +kernel
  have hmode : modeIn? tiedWindow (⟨0, 0, 3, 2⟩ : PixelFootprint Rat) = some 1.0 := by
    rw [modeIn?, hcovered, List.mergeSort_of_pairwise (by decide +kernel)]
    decide +kernel
  have hpixel : (0, 2) ∈ PixelFootprint.validPixels ⟨0, 0, 3, 2⟩ tiedWindow := by decide +kernel
  have hsame : PixelFootprint.frequency ⟨0, 0, 3, 2⟩ tiedWindow 3.0 =
      PixelFootprint.frequency ⟨0, 0, 3, 2⟩ tiedWindow 1.0 := by
    decide +kernel
  obtain ⟨hnone, hspec⟩ := mode_most_frequent
  obtain ⟨-, -, hmost⟩ := (hspec tiedWindow ⟨0, 0, 3, 2⟩).2 1.0 hmode
  exact ⟨@hnone Float32 Float _ Machine.instSampleFloat32Float tiedWindow _ hfinite, hmode, hsame,
    (hmost (0, 2) hpixel).2 hsame⟩

end Resampling

end Mosaic
