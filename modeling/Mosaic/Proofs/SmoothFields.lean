import Mathlib.Algebra.MvPolynomial.Degrees
import Mathlib.Algebra.Polynomial.BigOperators
import Mosaic.Proofs.Interpolation

/-!
# Interpolation of smooth fields

A window whose pixels hold a polynomial at their centres gives that polynomial back between them
(`interpolation_reproduces`): bilinear interpolation one that is linear in each variable, cubic
interpolation one that is quadratic in each. Both methods go along the rows and then between them by
one curve through equally spaced values. So it is enough that the curve gives polynomials in one
variable back, since a polynomial in two is one in each when the other is fixed.
-/

namespace Mosaic

open Exact (Reading)
open Resampling (lineAt bilinearAt cubicAt)

namespace Resampling

/-! ## Splines through numbers -/

section Spline

variable {view : WindowView Reading}

/-- The Catmull-Rom spline through the values at four whole numbers, between zero and one. -/
def splineAt (p : Int → Rat) (t : Rat) : Rat :=
  (-1 / 2 * p (-1) + 3 / 2 * p 0 - 3 / 2 * p 1 + 1 / 2 * p 2) * t ^ 3 +
    (p (-1) - 5 / 2 * p 0 + 2 * p 1 - 1 / 2 * p 2) * t ^ 2 +
    (-1 / 2 * p (-1) + 1 / 2 * p 1) * t + p 0

theorem splineOf_of_values (p : Int → Rat) (t : Rat) :
    splineOf ((⟨some (p (-1))⟩ : Reading), ⟨some (p 0)⟩, ⟨some (p 1)⟩, ⟨some (p 2)⟩) ⟨some t⟩ =
      ⟨some (splineAt p t)⟩ := by
  have hvalue : (-0.5 * p (-1) + 1.5 * p 0 - 1.5 * p 1 + 0.5 * p 2) * (t * t * t) +
        (p (-1) - 2.5 * p 0 + 2.0 * p 1 - 0.5 * p 2) * (t * t) +
        (-0.5 * p (-1) + 0.5 * p 1) * t + p 0 = splineAt p t := by
    unfold splineAt
    norm_num
    ring
  exact congrArg (Reading.mk ∘ some) hvalue

theorem rowOfFour_of_values {row col : Int} {p : Int → Rat}
    (h : ∀ l : Int, -1 ≤ l → l ≤ 2 → view.sample row (col + l) = ⟨some (p l)⟩) :
    rowOfFour view row col =
      (⟨some (p (-1))⟩, ⟨some (p 0)⟩, ⟨some (p 1)⟩, ⟨some (p 2)⟩) := by
  have h0 := h 0 (by omega) (by omega)
  rw [add_zero] at h0
  unfold rowOfFour
  rw [sub_eq_add_neg, h (-1) (by omega) (by omega), h0, h 1 (by omega) (by omega),
    h 2 (by omega) (by omega)]

/-- Cubic interpolation with all sixteen neighbours: along the rows and then between them. -/
theorem cubicAt_of_values {u v : Rat} {g : Int → Int → Rat}
    (h : ∀ k l : Int, -1 ≤ k → k ≤ 2 → -1 ≤ l → l ≤ 2 →
      view.sample (⌊v - 1 / 2⌋ + k) (⌊u - 1 / 2⌋ + l) = ⟨some (g k l)⟩) :
    cubicAt view u v = ⟨some (splineAt (fun k => splineAt (g k) (Int.fract (u - 1 / 2)))
      (Int.fract (v - 1 / 2)))⟩ := by
  have hrow : ∀ k : Int, -1 ≤ k → k ≤ 2 → rowOfFour view (⌊v - 1 / 2⌋ + k) ⌊u - 1 / 2⌋ =
      (⟨some (g k (-1))⟩, ⟨some (g k 0)⟩, ⟨some (g k 1)⟩, ⟨some (g k 2)⟩) :=
    fun k hk hk' => rowOfFour_of_values fun l hl hl' => h k l hk hk' hl hl'
  have h0 := hrow 0 (by omega) (by omega)
  rw [add_zero] at h0
  unfold cubicAt
  simp only [Exact.isFinite_eq, Bool.and_self, if_true, cellOf_eq, sub_eq_add_neg ⌊v - 1 / 2⌋ 1,
    hrow (-1) (by omega) (by omega), h0, hrow 1 (by omega) (by omega),
    hrow 2 (by omega) (by omega), splineOf_of_values]
  exact splineOf_of_values (fun k => splineAt (g k) (Int.fract (u - 1 / 2))) _

end Spline

/-! ## Polynomials along a line -/

/-- A curve through equally spaced values gives back every polynomial up to a degree. -/
def Reproduces (curve : (Int → Rat) → Rat → Rat) (degree : Nat) : Prop :=
  ∀ q : Polynomial Rat, q.natDegree ≤ degree → ∀ start t : Rat,
    curve (fun k => q.eval (start + k)) t = q.eval (start + t)

theorem lineAt_reproduces : Reproduces lineAt 1 := by
  intro q hq start t
  have heval := Polynomial.eval_eq_sum_range' (Nat.lt_succ_of_le hq)
  simp only [lineAt, heval, Finset.sum_range_succ, Finset.sum_range_zero]
  push_cast
  ring

theorem splineAt_reproduces : Reproduces splineAt 2 := by
  intro q hq start t
  have heval := Polynomial.eval_eq_sum_range' (Nat.lt_succ_of_le hq)
  simp only [splineAt, heval, Finset.sum_range_succ, Finset.sum_range_zero]
  push_cast
  ring

/-- With all variables but one fixed, a polynomial is one in that variable, of the degree that it has
there. -/
theorem exists_slice (f : MvPolynomial (Fin 2) Rat) (i : Fin 2) (point : Fin 2 → Rat) :
    ∃ q : Polynomial Rat, q.natDegree ≤ f.degreeOf i ∧
      ∀ t, q.eval t = f.eval (Function.update point i t) := by
  refine ⟨∑ m ∈ f.support, .C (f.coeff m * ∏ j ∈ Finset.univ.erase i, point j ^ m j) * .X ^ m i,
    ?_, fun t => ?_⟩
  · apply Polynomial.natDegree_sum_le_of_forall_le
    intro m hm
    exact (Polynomial.natDegree_C_mul_X_pow_le _ _).trans (MvPolynomial.monomial_le_degreeOf i hm)
  · rw [MvPolynomial.eval_eq', Polynomial.eval_finsetSum]
    refine Finset.sum_congr rfl fun m _ => ?_
    have hothers : ∏ j ∈ Finset.univ.erase i, Function.update point i t j ^ m j =
        ∏ j ∈ Finset.univ.erase i, point j ^ m j :=
      Finset.prod_congr rfl fun j hj => by rw [Function.update_of_ne (Finset.ne_of_mem_erase hj)]
    rw [← Finset.mul_prod_erase _ _ (Finset.mem_univ i), hothers, Function.update_self]
    simp only [Polynomial.eval_mul, Polynomial.eval_C, Polynomial.eval_pow, Polynomial.eval_X]
    ring

section Fields

variable {curve : (Int → Rat) → Rat → Rat} {degree : Nat} {f : MvPolynomial (Fin 2) Rat}

/-- Along one variable a curve gives a polynomial in two back. -/
theorem Reproduces.along (hcurve : Reproduces curve degree) (i : Fin 2)
    (hf : f.degreeOf i ≤ degree) (point : Fin 2 → Rat) (start t : Rat) :
    curve (fun k => f.eval (Function.update point i (start + k))) t =
      f.eval (Function.update point i (start + t)) := by
  obtain ⟨q, hq, heval⟩ := exists_slice f i point
  simp only [← heval]
  exact hcurve q (hq.trans hf) start t

/-- From the cell of a position, half a pixel before its centre, the way leads to the position. -/
theorem cell_add_fract (x : Rat) : (⌊x - 1 / 2⌋ : Rat) + 1 / 2 + Int.fract (x - 1 / 2) = x := by
  have hparts := Int.floor_add_fract (x - 1 / 2)
  linarith

/-- A curve that is taken along the rows and then between them gives a polynomial in two variables
back. -/
theorem Reproduces.field (hcurve : Reproduces curve degree) (hf : ∀ i, f.degreeOf i ≤ degree)
    (u v : Rat) :
    curve (fun k => curve (fun l =>
        f.eval ![(⌊u - 1 / 2⌋ : Rat) + 1 / 2 + l, (⌊v - 1 / 2⌋ : Rat) + 1 / 2 + k])
          (Int.fract (u - 1 / 2))) (Int.fract (v - 1 / 2)) = f.eval ![u, v] := by
  have hfirst (x y : Rat) : Function.update ![0, y] 0 x = ![x, y] := by
    ext i
    fin_cases i <;> rfl
  have hsecond (x y : Rat) : Function.update ![x, 0] 1 y = ![x, y] := by
    ext i
    fin_cases i <;> rfl
  have hrow (y : Rat) : curve (fun l => f.eval ![(⌊u - 1 / 2⌋ : Rat) + 1 / 2 + l, y])
      (Int.fract (u - 1 / 2)) = f.eval ![u, y] := by
    have hslice := hcurve.along 0 (hf 0) ![0, y] (⌊u - 1 / 2⌋ + 1 / 2) (Int.fract (u - 1 / 2))
    simpa only [hfirst, cell_add_fract] using hslice
  have hslice := hcurve.along 1 (hf 1) ![u, 0] (⌊v - 1 / 2⌋ + 1 / 2) (Int.fract (v - 1 / 2))
  simpa only [hrow, hsecond, cell_add_fract] using hslice

end Fields

end Resampling

/-! ## Windows that hold a field -/

namespace WindowView

/-- Every pixel holds the value of a polynomial, in the column and the row, at its centre. -/
def HoldsField (view : WindowView Reading) (f : MvPolynomial (Fin 2) Rat) : Prop :=
  ∀ i j : Nat, i < view.shape.height → j < view.shape.width →
    view.HasValue i j (f.eval ![(j : Rat) + 1 / 2, (i : Rat) + 1 / 2])

/-- The square block of pixels from a row and a column on lies in the window. -/
def HasBlock (view : WindowView Reading) (row col : Int) (size : Nat) : Prop :=
  (0 ≤ row ∧ row + size ≤ view.shape.height) ∧ 0 ≤ col ∧ col + size ≤ view.shape.width

instance (view : WindowView Reading) (row col : Int) (size : Nat) :
    Decidable (view.HasBlock row col size) :=
  inferInstanceAs (Decidable (_ ∧ _))

variable {view : WindowView Reading} {f : MvPolynomial (Fin 2) Rat}

theorem HoldsField.sample (hview : view.HoldsField f) {row col : Int} {size : Nat}
    (hblock : view.HasBlock row col size) {i j : Int} (hi : row ≤ i) (hi' : i < row + size)
    (hj : col ≤ j) (hj' : j < col + size) :
    view.sample i j = ⟨some (f.eval ![(j : Rat) + 1 / 2, (i : Rat) + 1 / 2])⟩ := by
  obtain ⟨⟨hrow, hbottom⟩, hcol, hright⟩ := hblock
  obtain ⟨m, rfl⟩ := Int.eq_ofNat_of_zero_le (hrow.trans hi)
  obtain ⟨n, rfl⟩ := Int.eq_ofNat_of_zero_le (hcol.trans hj)
  exact hasValue_iff.mp (hview m n (by omega) (by omega))

/-- The same in a cell, whose first pixel the others are counted from. -/
theorem HoldsField.sample_cell (hview : view.HoldsField f) {row col : Int} {size : Nat}
    (hblock : view.HasBlock row col size) {y x k l : Int} (hk : row ≤ y + k)
    (hk' : y + k < row + size) (hl : col ≤ x + l) (hl' : x + l < col + size) :
    view.sample (y + k) (x + l) =
      ⟨some (f.eval ![(x : Rat) + 1 / 2 + l, (y : Rat) + 1 / 2 + k])⟩ := by
  rw [hview.sample hblock hk hk' hl hl']
  push_cast
  rw [add_right_comm (x : Rat), add_right_comm (y : Rat)]

end WindowView

namespace Resampling

/-- In a window that holds a polynomial at its pixel centres, cubic interpolation gives the polynomial
if it is at most quadratic in each variable, wherever the four by four pixels round a position are in
the window, and bilinear interpolation if it is at most linear in each, wherever the two by two are. -/
theorem interpolation_reproduces (view : WindowView Reading) (f : MvPolynomial (Fin 2) Rat)
    (hview : view.HoldsField f) :
    ((∀ i, f.degreeOf i ≤ 2) → ∀ u v : Rat,
      view.HasBlock (⌊v - 1 / 2⌋ - 1) (⌊u - 1 / 2⌋ - 1) 4 →
        cubicAt view u v = ⟨some (f.eval ![u, v])⟩) ∧
    ((∀ i, f.degreeOf i ≤ 1) → ∀ u v : Rat,
      view.HasBlock ⌊v - 1 / 2⌋ ⌊u - 1 / 2⌋ 2 →
        bilinearAt view u v = ⟨some (f.eval ![u, v])⟩) := by
  constructor
  · intro hf u v hblock
    rw [cubicAt_of_values fun k l hk hk' hl hl' =>
      hview.sample_cell hblock (by omega) (by omega) (by omega) (by omega)]
    rw [splineAt_reproduces.field hf]
  · intro hf u v hblock
    rw [bilinearAt_of_values fun k l hk hk' hl hl' =>
      hview.sample_cell hblock (by omega) (by omega) (by omega) (by omega)]
    rw [lineAt_reproduces.field hf]

/-- Four by four pixels, each with the product of its column and row at the centre. -/
def productWindow : WindowView Reading where
  shape := ⟨4, 4⟩
  data := (Array.range 16).map fun k =>
    ⟨some ((((k % 4 : Nat) : Rat) + 1 / 2) * (((k / 4 : Nat) : Rat) + 1 / 2))⟩

theorem interpolation_reproduces_productWindow :
    cubicAt productWindow (9 / 5 : Rat) (21 / 10) = ⟨some (189 / 50)⟩ ∧
      bilinearAt productWindow (9 / 5 : Rat) (21 / 10) = ⟨some (189 / 50)⟩ := by
  have hview : productWindow.HoldsField (.X 0 * .X 1) := by
    intro i j hi hj
    have hdata : ∀ i < 4, ∀ j < 4, productWindow.data[i * 4 + j]? =
        some ⟨some (((j : Rat) + 1 / 2) * ((i : Rat) + 1 / 2))⟩ := by decide +kernel
    refine ⟨i, j, rfl, rfl, hi, hj, (hdata i hi j hj).trans ?_⟩
    simp
  have hdegree (i : Fin 2) : (.X 0 * .X 1 : MvPolynomial (Fin 2) Rat).degreeOf i ≤ 1 := by
    refine (MvPolynomial.degreeOf_mul_le i _ _).trans ?_
    simp only [MvPolynomial.degreeOf_X]
    fin_cases i <;> decide
  have hu : ⌊(9 / 5 : Rat) - 1 / 2⌋ = 1 := by norm_num
  have hv : ⌊(21 / 10 : Rat) - 1 / 2⌋ = 1 := by norm_num
  have hvalue : (.X 0 * .X 1 : MvPolynomial (Fin 2) Rat).eval ![9 / 5, 21 / 10] = 189 / 50 := by
    simp
    norm_num
  rw [← hvalue]
  obtain ⟨hcubic, hbilinear⟩ := interpolation_reproduces productWindow _ hview
  refine ⟨hcubic (fun i => (hdegree i).trans one_le_two) _ _ ?_, hbilinear hdegree _ _ ?_⟩
  · rw [hu, hv]
    decide
  · rw [hu, hv]
    decide

end Resampling

end Mosaic
