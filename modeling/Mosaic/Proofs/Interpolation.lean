import Mosaic.Proofs.Centre

/-!
# Interpolation between pixels

Interpolation looks at pixels round a position, which may lie outside the window or have no number.
In exact arithmetic it has a result exactly where the pixel under the position has a number
(`interpolation_valid`): that pixel is one of the two by two between whose centres the position lies,
and these are among the four by four of a spline, so that a method with all its pixels never has a
number where the simpler ones have none, and the others step back to the pixel itself. Between four
pixels the result is a mean with weights, and it lies between the numbers of its neighbours.
-/

namespace Mosaic

open Exact (Reading)

/-! ## Pixels with a number -/

namespace WindowView

variable {view : WindowView Reading} {row col : Int} {x : Rat}

/-- The window has a pixel at a row and a column, and its sample is this number. -/
def HasValue (view : WindowView Reading) (row col : Int) (x : Rat) : Prop :=
  ∃ i j : Nat, row = i ∧ col = j ∧ i < view.shape.height ∧ j < view.shape.width ∧
    view.data[i * view.shape.width + j]? = some ⟨some x⟩

theorem hasValue_iff : view.HasValue row col x ↔ view.sample row col = ⟨some x⟩ := by
  constructor
  · rintro ⟨i, j, rfl, rfl, hi, hj, hdata⟩
    rw [sample_of_inside hi hj, hdata, Option.getD_some]
  · intro h
    have hinside : (0 ≤ row ∧ row < view.shape.height) ∧ 0 ≤ col ∧ col < view.shape.width := by
      by_contra houtside
      rw [sample_of_outside houtside] at h
      cases h
    obtain ⟨⟨hrow, hi⟩, hcol, hj⟩ := hinside
    obtain ⟨i, rfl⟩ := Int.eq_ofNat_of_zero_le hrow
    obtain ⟨j, rfl⟩ := Int.eq_ofNat_of_zero_le hcol
    refine ⟨i, j, rfl, rfl, Int.ofNat_lt.mp hi, Int.ofNat_lt.mp hj, ?_⟩
    rw [sample_of_inside (Int.ofNat_lt.mp hi) (Int.ofNat_lt.mp hj)] at h
    cases hdata : view.data[i * view.shape.width + j]? with
    | none =>
      rw [hdata] at h
      cases h
    | some v =>
      rw [hdata] at h
      exact congrArg some h

theorem isNaN_sample_iff :
    Sample.isNaN (view.sample row col) = true ↔ ¬∃ x, view.HasValue row col x := by
  simp only [hasValue_iff]
  constructor
  · rintro h ⟨x, hx⟩
    rw [hx] at h
    cases h
  · intro h
    by_contra hnumber
    exact h (Reading.eq_some_of_not_isNaN (Bool.eq_false_iff.mpr hnumber))

end WindowView

namespace Resampling

/-! ## The cell of a position -/

section Cell

variable {u v : Rat} {view : WindowView Reading}

/-- The pixel under a position is one of the two between whose centres it lies. -/
theorem floor_eq_cell (x : Rat) : ⌊x⌋ = ⌊x - 1 / 2⌋ ∨ ⌊x⌋ = ⌊x - 1 / 2⌋ + 1 := by
  have hlow : ⌊x - 1 / 2⌋ ≤ ⌊x⌋ := Int.floor_mono (by linarith)
  have hhigh : ⌊x⌋ ≤ ⌊x - 1 / 2⌋ + 1 := by
    rw [← Int.floor_add_one]
    exact Int.floor_mono (by linarith)
  omega

/-- The cell begins with the pixel before the position by half a pixel, and the rest is the way. -/
theorem cellOf_eq (x : Rat) :
    (cellOf (x - 0.5) : Int × Reading) = (⌊x - 1 / 2⌋, ⟨some (Int.fract (x - 1 / 2))⟩) := by
  have hhalf : x - 0.5 = x - 1 / 2 := by norm_num
  rw [hhalf]
  unfold cellOf
  rw [Exact.toInt_floor]
  rfl

theorem nearestAt_eq (view : WindowView Reading) (u v : Rat) :
    nearestAt view u v = view.sample ⌊v⌋ ⌊u⌋ := by
  unfold nearestAt
  simp only [Exact.isFinite_eq, Bool.and_self, if_true, Exact.toInt_floor]
  rfl

/-- The samples of the four pixels between whose centres a position lies. -/
def cornersOf (view : WindowView Reading) (u v : Rat) : List Reading :=
  [view.sample ⌊v - 1 / 2⌋ ⌊u - 1 / 2⌋, view.sample ⌊v - 1 / 2⌋ (⌊u - 1 / 2⌋ + 1),
    view.sample (⌊v - 1 / 2⌋ + 1) ⌊u - 1 / 2⌋, view.sample (⌊v - 1 / 2⌋ + 1) (⌊u - 1 / 2⌋ + 1)]

/-- The numbers of those that have one. -/
def neighbours (view : WindowView Reading) (u v : Rat) : List Rat :=
  (cornersOf view u v).filterMap Reading.value?

theorem sample_mem_cornersOf (view : WindowView Reading) (u v : Rat) {k l : Int} (hk : 0 ≤ k)
    (hk' : k ≤ 1) (hl : 0 ≤ l) (hl' : l ≤ 1) :
    view.sample (⌊v - 1 / 2⌋ + k) (⌊u - 1 / 2⌋ + l) ∈ cornersOf view u v := by
  unfold cornersOf
  rcases (show k = 0 ∨ k = 1 by omega) with rfl | rfl <;>
    rcases (show l = 0 ∨ l = 1 by omega) with rfl | rfl <;> simp

/-- The pixel under a position is one of the four between whose centres it lies. -/
theorem exists_corner (view : WindowView Reading) (u v : Rat) :
    ∃ k l : Int, (0 ≤ k ∧ k ≤ 1) ∧ (0 ≤ l ∧ l ≤ 1) ∧
      nearestAt view u v = view.sample (⌊v - 1 / 2⌋ + k) (⌊u - 1 / 2⌋ + l) := by
  have hv := floor_eq_cell v
  have hu := floor_eq_cell u
  refine ⟨⌊v⌋ - ⌊v - 1 / 2⌋, ⌊u⌋ - ⌊u - 1 / 2⌋, by omega, by omega, ?_⟩
  rw [nearestAt_eq, add_sub_cancel, add_sub_cancel]

theorem mem_neighbours {x : Rat} (h : (⟨some x⟩ : Reading) ∈ cornersOf view u v) :
    x ∈ neighbours view u v :=
  List.mem_filterMap.mpr ⟨_, h, rfl⟩

end Cell

/-! ## Between four pixels -/

section Bilinear

variable {view : WindowView Reading} {u v : Rat}

/-- The line through the values at zero and one. -/
def lineAt (p : Int → Rat) (t : Rat) : Rat := p 0 * (1 - t) + p 1 * t

/-- A mean with weights lies between what its parts lie between. -/
theorem lineAt_mem_Icc {p : Int → Rat} {t lo hi : Rat} (ht : t ∈ Set.Ico 0 1)
    (h0 : p 0 ∈ Set.Icc lo hi) (h1 : p 1 ∈ Set.Icc lo hi) : lineAt p t ∈ Set.Icc lo hi := by
  obtain ⟨hlow, hhigh⟩ := ht
  have hrest : 0 ≤ 1 - t := by linarith
  unfold lineAt
  constructor
  · have hfirst := mul_le_mul_of_nonneg_right h0.1 hrest
    have hsecond := mul_le_mul_of_nonneg_right h1.1 hlow
    linarith
  · have hfirst := mul_le_mul_of_nonneg_right h0.2 hrest
    have hsecond := mul_le_mul_of_nonneg_right h1.2 hlow
    linarith

/-- Bilinear interpolation with all four neighbours: along the rows and then between them. -/
theorem bilinearAt_of_values {g : Int → Int → Rat}
    (h : ∀ k l : Int, 0 ≤ k → k ≤ 1 → 0 ≤ l → l ≤ 1 →
      view.sample (⌊v - 1 / 2⌋ + k) (⌊u - 1 / 2⌋ + l) = ⟨some (g k l)⟩) :
    bilinearAt view u v = ⟨some (lineAt (fun k => lineAt (g k) (Int.fract (u - 1 / 2)))
      (Int.fract (v - 1 / 2)))⟩ := by
  have h00 := h 0 0 (by omega) (by omega) (by omega) (by omega)
  have h01 := h 0 1 (by omega) (by omega) (by omega) (by omega)
  have h10 := h 1 0 (by omega) (by omega) (by omega) (by omega)
  have h11 := h 1 1 (by omega) (by omega) (by omega) (by omega)
  simp only [add_zero] at h00 h01 h10 h11
  unfold bilinearAt
  simp only [Exact.isFinite_eq, Bool.and_self, if_true, cellOf_eq, h00, h01, h10, h11]
  have hvalue : (g 0 0 * (1.0 - Int.fract (u - 1 / 2)) + g 0 1 * Int.fract (u - 1 / 2)) *
        (1.0 - Int.fract (v - 1 / 2)) +
      (g 1 0 * (1.0 - Int.fract (u - 1 / 2)) + g 1 1 * Int.fract (u - 1 / 2)) *
        Int.fract (v - 1 / 2) =
      lineAt (fun k => lineAt (g k) (Int.fract (u - 1 / 2))) (Int.fract (v - 1 / 2)) := by
    unfold lineAt
    norm_num
  exact congrArg (Reading.mk ∘ some) hvalue

/-- With a neighbour missing the pixel under the position is taken; otherwise all four have numbers. -/
theorem bilinearAt_cases (view : WindowView Reading) (u v : Rat) :
    bilinearAt view u v = nearestAt view u v ∨
      ∃ g : Int → Int → Rat, ∀ k l : Int, 0 ≤ k → k ≤ 1 → 0 ≤ l → l ≤ 1 →
        view.sample (⌊v - 1 / 2⌋ + k) (⌊u - 1 / 2⌋ + l) = ⟨some (g k l)⟩ := by
  by_cases hvalid : ∀ k l : Int, 0 ≤ k → k ≤ 1 → 0 ≤ l → l ≤ 1 →
      Sample.isNaN (view.sample (⌊v - 1 / 2⌋ + k) (⌊u - 1 / 2⌋ + l)) = false
  · refine .inr ⟨fun k l => ((view.sample (⌊v - 1 / 2⌋ + k) (⌊u - 1 / 2⌋ + l)).value?).getD 0, ?_⟩
    intro k l hk hk' hl hl'
    obtain ⟨x, hx⟩ := Reading.eq_some_of_not_isNaN (hvalid k l hk hk' hl hl')
    dsimp only
    rw [hx]
    rfl
  · refine .inl ?_
    unfold bilinearAt
    simp only [Exact.isFinite_eq, Bool.and_self, if_true, cellOf_eq]
    refine if_pos ?_
    by_contra hnone
    simp only [Bool.or_eq_true, not_or, Bool.not_eq_true] at hnone
    refine hvalid fun k l hk hk' hl hl' => ?_
    obtain ⟨⟨⟨h00, h01⟩, h10⟩, h11⟩ := hnone
    rcases (show k = 0 ∨ k = 1 by omega) with rfl | rfl <;>
      rcases (show l = 0 ∨ l = 1 by omega) with rfl | rfl
    · simpa only [add_zero] using h00
    · simpa only [add_zero] using h01
    · simpa only [add_zero] using h10
    · exact h11

/-- Bilinear interpolation has a result where the pixel under the position has a number. -/
theorem isNaN_bilinearAt (view : WindowView Reading) (u v : Rat) :
    Sample.isNaN (bilinearAt view u v) = Sample.isNaN (nearestAt view u v) := by
  rcases bilinearAt_cases view u v with hnearest | ⟨g, hg⟩
  · rw [hnearest]
  · obtain ⟨k, l, hk, hl, hcorner⟩ := exists_corner view u v
    rw [bilinearAt_of_values hg, hcorner, hg k l hk.1 hk.2 hl.1 hl.2]
    rfl

/-- The numbers of a list lie between its least and its greatest one. -/
theorem exists_min_max {l : List Rat} (h : l ≠ []) :
    ∃ lo hi, l.min? = some lo ∧ l.max? = some hi ∧ ∀ x ∈ l, x ∈ Set.Icc lo hi := by
  obtain ⟨lo, hlo⟩ := Option.ne_none_iff_exists'.mp fun hnone => h (List.min?_eq_none_iff.mp hnone)
  obtain ⟨hi, hhi⟩ := Option.ne_none_iff_exists'.mp fun hnone => h (List.max?_eq_none_iff.mp hnone)
  refine ⟨lo, hi, hlo, hhi, fun x hx => ⟨?_, ?_⟩⟩
  · exact (List.min?_eq_some_iff.mp hlo).2 x hx
  · exact (List.max?_eq_some_iff.mp hhi).2 x hx

/-- The result of bilinear interpolation lies between the numbers of its neighbours. -/
theorem bilinearAt_between {x : Rat} (h : bilinearAt view u v = ⟨some x⟩) :
    ∃ lo hi, (neighbours view u v).min? = some lo ∧ (neighbours view u v).max? = some hi ∧
      x ∈ Set.Icc lo hi := by
  rcases bilinearAt_cases view u v with hnearest | ⟨g, hg⟩
  · obtain ⟨k, l, hk, hl, hcorner⟩ := exists_corner view u v
    have hmem := sample_mem_cornersOf view u v hk.1 hk.2 hl.1 hl.2
    rw [← hcorner, ← hnearest, h] at hmem
    obtain ⟨lo, hi, hlo, hhi, hall⟩ := exists_min_max (List.ne_nil_of_mem (mem_neighbours hmem))
    exact ⟨lo, hi, hlo, hhi, hall x (mem_neighbours hmem)⟩
  · have hmem : ∀ k l : Int, 0 ≤ k → k ≤ 1 → 0 ≤ l → l ≤ 1 → g k l ∈ neighbours view u v := by
      intro k l hk hk' hl hl'
      apply mem_neighbours
      rw [← hg k l hk hk' hl hl']
      exact sample_mem_cornersOf view u v hk hk' hl hl'
    obtain ⟨lo, hi, hlo, hhi, hall⟩ := exists_min_max
      (List.ne_nil_of_mem (hmem 0 0 (by omega) (by omega) (by omega) (by omega)))
    have hway : ∀ y : Rat, Int.fract y ∈ Set.Ico 0 1 :=
      fun y => ⟨Int.fract_nonneg y, Int.fract_lt_one y⟩
    have hrow : ∀ k : Int, 0 ≤ k → k ≤ 1 →
        lineAt (g k) (Int.fract (u - 1 / 2)) ∈ Set.Icc lo hi := by
      intro k hk hk'
      apply lineAt_mem_Icc (hway _)
      · exact hall _ (hmem k 0 hk hk' (by omega) (by omega))
      · exact hall _ (hmem k 1 hk hk' (by omega) (by omega))
    rw [bilinearAt_of_values hg] at h
    obtain rfl := Option.some.inj (congrArg Reading.value? h)
    refine ⟨lo, hi, hlo, hhi, lineAt_mem_Icc (hway _) ?_ ?_⟩
    · exact hrow 0 (by omega) (by omega)
    · exact hrow 1 (by omega) (by omega)

end Bilinear

/-! ## Between sixteen pixels -/

section Cubic

variable {view : WindowView Reading} {u v : Rat}

/-- A spline through four numbers is a number. -/
theorem isNaN_splineOf {r : Reading × Reading × Reading × Reading} (h : anyNaN r = false) (t : Rat) :
    Sample.isNaN (splineOf r ⟨some t⟩) = false := by
  simp only [anyNaN, Bool.or_eq_false_iff] at h
  obtain ⟨⟨⟨h0, h1⟩, h2⟩, h3⟩ := h
  obtain ⟨a, ha⟩ := Reading.eq_some_of_not_isNaN h0
  obtain ⟨b, hb⟩ := Reading.eq_some_of_not_isNaN h1
  obtain ⟨c, hc⟩ := Reading.eq_some_of_not_isNaN h2
  obtain ⟨e, he⟩ := Reading.eq_some_of_not_isNaN h3
  unfold splineOf
  rw [ha, hb, hc, he]
  rfl

/-- Cubic interpolation has a result where the pixel under the position has a number. -/
theorem isNaN_cubicAt (view : WindowView Reading) (u v : Rat) :
    Sample.isNaN (cubicAt view u v) = Sample.isNaN (nearestAt view u v) := by
  unfold cubicAt
  simp only [Exact.isFinite_eq, Bool.and_self, if_true, cellOf_eq]
  split
  · exact isNaN_bilinearAt view u v
  · next hvalid =>
    simp only [Bool.or_eq_true, not_or, Bool.not_eq_true] at hvalid
    obtain ⟨⟨⟨h0, h1⟩, h2⟩, h3⟩ := hvalid
    have hway (k : Int) (hk : anyNaN (rowOfFour view k ⌊u - 1 / 2⌋) = false) :
        Sample.isNaN (splineOf (rowOfFour view k ⌊u - 1 / 2⌋)
          (⟨some (Int.fract (u - 1 / 2))⟩ : Reading)) = false :=
      isNaN_splineOf hk _
    have hspline : Sample.isNaN (splineOf
        (splineOf (rowOfFour view (⌊v - 1 / 2⌋ - 1) ⌊u - 1 / 2⌋) ⟨some (Int.fract (u - 1 / 2))⟩,
          splineOf (rowOfFour view ⌊v - 1 / 2⌋ ⌊u - 1 / 2⌋) ⟨some (Int.fract (u - 1 / 2))⟩,
          splineOf (rowOfFour view (⌊v - 1 / 2⌋ + 1) ⌊u - 1 / 2⌋) ⟨some (Int.fract (u - 1 / 2))⟩,
          splineOf (rowOfFour view (⌊v - 1 / 2⌋ + 2) ⌊u - 1 / 2⌋) ⟨some (Int.fract (u - 1 / 2))⟩)
        (⟨some (Int.fract (v - 1 / 2))⟩ : Reading)) = false := by
      apply isNaN_splineOf
      simp only [anyNaN, hway _ h0, hway _ h1, hway _ h2, hway _ h3, Bool.or_false]
    -- the pixel under the position is one of the two by two in the middle of the sixteen
    have hmiddle : ∀ k l : Int, 0 ≤ k → k ≤ 1 → 0 ≤ l → l ≤ 1 →
        Sample.isNaN (view.sample (⌊v - 1 / 2⌋ + k) (⌊u - 1 / 2⌋ + l)) = false := by
      intro k l hk hk' hl hl'
      simp only [anyNaN, rowOfFour, Bool.or_eq_false_iff] at h1 h2
      rcases (show k = 0 ∨ k = 1 by omega) with rfl | rfl <;>
        rcases (show l = 0 ∨ l = 1 by omega) with rfl | rfl
      · simpa only [add_zero] using h1.1.1.2
      · simpa only [add_zero] using h1.1.2
      · simpa only [add_zero] using h2.1.1.2
      · exact h2.1.2
    obtain ⟨k, l, hk, hl, hcorner⟩ := exists_corner view u v
    rw [hcorner, hmiddle k l hk.1 hk.2 hl.1 hl.2]
    exact hspline

end Cubic

/-! ## All three -/

/-- Interpolation has a result exactly where the pixel under the position has a number. Between four
pixels it lies between the least and the greatest number among them, and at the centre of a pixel it
is the sample of that pixel. -/
theorem interpolation_valid (view : WindowView Reading) :
    (∀ method : Resampling, method.isArea = false → ∀ u v : Rat, ∀ area,
      Sample.isNaN (method.sampleAt view u v area) = true ↔ ¬∃ x, view.HasValue ⌊v⌋ ⌊u⌋ x) ∧
    (∀ u v x : Rat, bilinearAt view u v = ⟨some x⟩ →
      ∃ lo hi, (neighbours view u v).min? = some lo ∧ (neighbours view u v).max? = some hi ∧
        x ∈ Set.Icc lo hi) ∧
    ∀ method : Resampling, method.isArea = false → ∀ (row col : Int) (area),
      method.sampleAt view ((col : Rat) + 1 / 2) (row + 1 / 2) area = view.sample row col := by
  refine ⟨?_, fun u v x => bilinearAt_between, ?_⟩
  · intro method harea u v area
    rw [← WindowView.isNaN_sample_iff, ← nearestAt_eq]
    cases method with
    | nearest => rfl
    | bilinear =>
      show Sample.isNaN (bilinearAt view u v) = true ↔ _
      rw [isNaN_bilinearAt]
    | cubic =>
      show Sample.isNaN (cubicAt view u v) = true ↔ _
      rw [isNaN_cubicAt]
    | mode => cases harea
    | average => cases harea
  · intro method harea row col area
    apply sampleAt_center
    intro hneeded
    rw [harea] at hneeded
    cases hneeded

/-- Two by two pixels, of which the one at the top right has no number. -/
def missingCorner : WindowView Reading := ⟨⟨2, 2⟩, #[⟨some 1⟩, ⟨none⟩, ⟨some 3⟩, ⟨some 4⟩]⟩

/-- Left of the missing pixel there is a result between the numbers of the other three, in the missing
pixel there is none, and at the centre of the last one there is its sample. -/
theorem interpolation_valid_missingCorner :
    (∃ x ∈ Set.Icc (1 : Rat) 4, bilinearAt missingCorner (9 / 10 : Rat) (9 / 10) = ⟨some x⟩) ∧
      Sample.isNaN (cubicAt missingCorner (11 / 10 : Rat) (9 / 10)) = true ∧
      cubicAt missingCorner (((1 : Int) : Rat) + 1 / 2) (((1 : Int) : Rat) + 1 / 2) = ⟨some 4⟩ := by
  have h9 : ⌊(9 / 10 : Rat)⌋ = 0 := by norm_num
  have h11 : ⌊(11 / 10 : Rat)⌋ = 1 := by norm_num
  have hcell : ⌊(9 / 10 : Rat) - 1 / 2⌋ = 0 := by norm_num
  obtain ⟨hvalid, hbetween, hcentre⟩ := interpolation_valid missingCorner
  refine ⟨?_, (hvalid .cubic rfl (11 / 10) (9 / 10) none).mpr ?_, hcentre .cubic rfl 1 1 none⟩
  · have hnumber : Sample.isNaN (bilinearAt missingCorner (9 / 10 : Rat) (9 / 10)) = false := by
      refine Bool.eq_false_iff.mpr fun hnan => ?_
      refine (hvalid .bilinear rfl (9 / 10) (9 / 10) none).mp hnan ⟨1, WindowView.hasValue_iff.mpr ?_⟩
      rw [h9]
      rfl
    obtain ⟨x, hx⟩ := Reading.eq_some_of_not_isNaN hnumber
    obtain ⟨lo, hi, hlo, hhi, hmem⟩ := hbetween _ _ x hx
    have hthree : neighbours missingCorner (9 / 10) (9 / 10) = [1, 3, 4] := by
      unfold neighbours cornersOf
      rw [hcell]
      rfl
    rw [hthree] at hlo hhi
    cases hlo
    cases hhi
    exact ⟨x, hmem, hx⟩
  · rw [← WindowView.isNaN_sample_iff, h9, h11]
    rfl

end Resampling

end Mosaic
