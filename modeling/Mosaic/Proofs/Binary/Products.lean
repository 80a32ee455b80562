import Mosaic.Proofs.Binary.Rounding

/-!
# Products and quotients of floats

The product and the quotient of two floats are the floats nearest to the exact product and quotient,
and their sign is that of the exact one even where they are zero. A quotient is computed to the bits
of the format and a remainder, and the remainder becomes the guard bits (`shows_quotient`).
-/

namespace Mosaic.Binary

open Float.Model (Format UnpackedFloat totalExponent)
open Float.Model.UnpackedFloat (Sign ExtendedMantissa)

/-! ## Signs -/

/-- The sign of a float; what is not a number counts as positive. -/
def signOf : UnpackedFloat → Sign
  | .finite s .. | .zero s | .infinity s => s
  | .notANumber => .positive

theorem signOf_roundWithAccuracy (spec : Format) (s : Sign) (m : Nat) (e : Int)
    (acc : UnpackedFloat.Accuracy) :
    signOf (UnpackedFloat.roundWithAccuracy spec s m e acc) = s := by
  unfold UnpackedFloat.roundWithAccuracy
  dsimp only
  rw [apply_dite signOf]
  exact dite_eq_ite.trans (ite_self s)

theorem signOf_normalize (spec : Format) {m : Int} (hm : 0 ≤ m) (e : Int) :
    signOf (UnpackedFloat.normalize spec m e .positive) = .positive := by
  unfold UnpackedFloat.normalize
  rcases hm.eq_or_lt with rfl | hpos
  · rw [compare_eq_iff_eq.mpr rfl]
    rfl
  · rw [compare_gt_iff_gt.mpr hpos]
    exact signOf_roundWithAccuracy ..

theorem IsFloatOf.signOf_of_pos {spec : Format} {a : Rat} {u : UnpackedFloat}
    (hu : IsFloatOf spec a u) (ha : 0 < a) : signOf u = .positive := by
  obtain ⟨-, -, rfl⟩ := hu
  match u with
  | .zero _ | .infinity _ | .notANumber => exact absurd ha (lt_irrefl 0)
  | .finite .positive m e hm => rfl
  | .finite .negative m e hm => exact absurd ha (valueOf_neg m e hm).not_gt

/-- A finite float is given by its value and its sign. -/
theorem IsFloatOf.eq_of_signOf {spec : Format} {a : Rat} {u v : UnpackedFloat}
    (hu : IsFloatOf spec a u) (hv : IsFloatOf spec a v) (hsign : signOf u = signOf v) : u = v := by
  by_cases ha : a = 0
  · subst ha
    obtain ⟨s, rfl⟩ := exists_eq_zero hu.isFinite hu.value
    obtain ⟨s', rfl⟩ := exists_eq_zero hv.isFinite hv.value
    exact congrArg _ hsign
  · exact hu.unique hv ha

theorem apply_mul (s s' : Sign) : (s * s').apply 1 = s.apply 1 * s'.apply 1 := by
  cases s <;> cases s' <;> rfl

theorem div_eq_mul (s s' : Sign) : s / s' = s * s' := by
  cases s <;> cases s' <;> rfl

theorem valueOf_eq_sign_mul (s : Sign) (m : Nat) (e : Int) (hm : 0 < m) :
    valueOf (.finite s m e hm) = (s.apply 1 : Int) * (m * 2 ^ e) := (sign_mul s m e).symm

/-! ## Products -/

variable {spec : Format} {a b : Rat} {u v : UnpackedFloat}

/-- A mantissa that is at least full is written with an exponent that is small enough. -/
theorem le_exponentOf_of_full {m : Nat} (hm : 2 ^ spec.mantissaBitsWithoutImplicit ≤ m) (e : Int) :
    e ≤ exponentOf spec ((m : Rat) * 2 ^ e) := by
  have hle : (2 : Rat) ^ ((spec.mantissaBitsWithoutImplicit : Int) + e) ≤ m * 2 ^ e := by
    rw [zpow_add₀ two_ne_zero, zpow_natCast]
    exact mul_le_mul_of_nonneg_right (by exact_mod_cast hm) (two_zpow_pos e).le
  have := le_exponentOf_of_le spec hle
  unfold Format.mantissaBits at this
  omega

/-- The product of two finite floats is rounded once. -/
theorem IsFloatOf.mul (hmin : spec.minExponent ≤ 0) (hu : IsFloatOf spec a u)
    (hv : IsFloatOf spec b v) :
    IsFloatOf spec (nearest spec (a * b)) (UnpackedFloat.mul spec u v) := by
  obtain ⟨hfinite, hcanonical, rfl⟩ := hu
  obtain ⟨hfinite', hcanonical', rfl⟩ := hv
  match u, v with
  | .zero s, .zero _ | .zero s, .finite .. =>
    rw [valueOf_zero, zero_mul, nearest_zero]
    exact ⟨rfl, trivial, rfl⟩
  | .finite .., .zero s =>
    rw [valueOf_zero, mul_zero, nearest_zero]
    exact ⟨rfl, trivial, rfl⟩
  | .finite s m e hm, .finite s' m' e' hm' =>
    have hpos := Nat.mul_pos hm hm'
    obtain ⟨-, hlow, hfull⟩ := hcanonical
    obtain ⟨-, hlow', hfull'⟩ := hcanonical'
    -- of two exponents that are not the least one, the mantissas are full
    have hexp : e + e' ≤ exponentOf spec ((m * m' : Nat) * 2 ^ (e + e')) := by
      rcases hlow.eq_or_lt with rfl | hlt
      · rcases le_or_gt e' 0 with hle | hgt
        · exact le_trans (by omega) (minExponent_le_exponentOf spec _)
        · exact le_exponentOf_of_full
            ((hfull' (hmin.trans_lt hgt)).trans (Nat.le_mul_of_pos_left m' hm)) _
      · exact le_exponentOf_of_full ((hfull hlt).trans (Nat.le_mul_of_pos_right m hm')) _
    have hround := isFloatOf_roundWithAccuracy spec (s * s') hpos hexp
    have hvalue : ((((s * s').apply (m * m' : Nat) : Int)) : Rat) * 2 ^ (e + e') =
        valueOf (.finite s m e hm) * valueOf (.finite s' m' e' hm') := by
      rw [valueOf_eq_sign_mul, valueOf_eq_sign_mul, ← sign_mul, apply_mul, zpow_add₀ two_ne_zero]
      push_cast
      ring
    rw [hvalue] at hround
    exact hround

theorem signOf_mul (hu : u.isFinite = true) (hv : v.isFinite = true) :
    signOf (UnpackedFloat.mul spec u v) = signOf u * signOf v := by
  match u, v with
  | .zero _, .zero _ | .zero _, .finite .. | .finite .., .zero _ => rfl
  | .finite s m e hm, .finite s' m' e' hm' => exact signOf_roundWithAccuracy ..

/-! ## Quotients -/

/-- The guard bits that belong to a remainder. -/
theorem ofMantissaAndAccuracy_fraction (m r : Nat) {b : Nat} (hb : 0 < b) :
    ExtendedMantissa.ofMantissaAndAccuracy m (UnpackedFloat.accuracyOfFraction r b) =
      ⟨m, decide (b ≤ 2 * r), decide (r ≠ 0 ∧ 2 * r ≠ b)⟩ := by
  unfold UnpackedFloat.accuracyOfFraction
  split_ifs with hr
  · subst hr
    simp [ExtendedMantissa.ofMantissaAndAccuracy, hb.ne']
  · rcases lt_trichotomy (2 * r) b with h | h | h
    · rw [compare_lt_iff_lt.mpr h]
      simp [ExtendedMantissa.ofMantissaAndAccuracy, hr, h.not_ge, h.ne]
    · rw [compare_eq_iff_eq.mpr h]
      simp [ExtendedMantissa.ofMantissaAndAccuracy, h]
    · rw [compare_gt_iff_gt.mpr h]
      simp [ExtendedMantissa.ofMantissaAndAccuracy, hr, h.le, h.ne']

/-- The remainder of a division tells where the quotient lies between two whole numbers. -/
theorem shows_quotient (a : Nat) {b : Nat} (hb : 0 < b) :
    Shows (.ofMantissaAndAccuracy (a / b) (UnpackedFloat.accuracyOfFraction (a % b) b))
      ((a : Rat) / b) := by
  have hb' : (0 : Rat) < b := by exact_mod_cast hb
  have hfract : Int.fract ((a : Rat) / b) = (a % b : Nat) / b :=
    Int.fract_div_natCast_eq_div_natCast_mod
  have hhalf : ((a % b : Nat) : Rat) / b = 1 / 2 ↔ 2 * (a % b) = b := by
    rw [div_eq_div_iff hb'.ne' two_ne_zero, mul_comm, one_mul]
    exact_mod_cast Iff.rfl
  have hround : 1 / 2 ≤ ((a % b : Nat) : Rat) / b ↔ b ≤ 2 * (a % b) := by
    rw [div_le_div_iff₀ two_pos hb', one_mul, mul_comm]
    exact_mod_cast Iff.rfl
  have hzero : ((a % b : Nat) : Rat) / b = 0 ↔ a % b = 0 := by
    rw [div_eq_zero_iff, or_iff_left hb'.ne', Nat.cast_eq_zero]
  rw [ofMantissaAndAccuracy_fraction _ _ hb]
  refine ⟨?_, ?_, ?_⟩
  · rw [Rat.floor_natCast_div_natCast, Int.natCast_ediv]
  · rw [decide_eq_true_iff, hfract, hround]
  · rw [decide_eq_true_iff, hfract, Ne, Ne, Ne, Ne, hzero, hhalf]

/-- The size of a quotient is that of the difference of the sizes or one below. -/
theorem targetExponent_le_exponentOf_quotient (spec : Format) {m m' : Nat} (hm : 0 < m)
    (hm' : 0 < m') (e e' : Int) :
    spec.targetExponent (totalExponent m e - totalExponent m' e') ≤
      exponentOf spec ((m : Rat) * 2 ^ e / (m' * 2 ^ e')) := by
  have hlow : (2 : Rat) ^ (totalExponent m e - totalExponent m' e' - 1) ≤
      (m : Rat) * 2 ^ e / (m' * 2 ^ e') := by
    have hsize := (Int.zpow_le_iff_le_log one_lt_two (magnitude_pos hm e)).mpr (log_scaled hm e).ge
    have hsize' := (Int.lt_zpow_iff_log_lt one_lt_two (magnitude_pos hm' e')).mpr
      ((log_scaled hm' e').trans_lt (Int.lt_succ _))
    rw [le_div_iff₀ (magnitude_pos hm' e')]
    calc (2 : Rat) ^ (totalExponent m e - totalExponent m' e' - 1) * (m' * 2 ^ e')
        ≤ 2 ^ (totalExponent m e - totalExponent m' e' - 1) *
            ((2 : Nat) : Rat) ^ ((m'.log2 + e' : Int) + 1) :=
          mul_le_mul_of_nonneg_left hsize'.le (two_zpow_pos _).le
      _ = ((2 : Nat) : Rat) ^ ((m.log2 : Int) + e) := by
          rw [Nat.cast_two, ← zpow_add₀ two_ne_zero]
          congr 1
          unfold totalExponent
          ring
      _ ≤ m * 2 ^ e := hsize
  have := le_exponentOf_of_le spec hlow
  have := minExponent_le_exponentOf spec ((m : Rat) * 2 ^ e / (m' * 2 ^ e'))
  unfold Format.targetExponent
  omega

/-- A quotient in units of a power of two is that of the shifted mantissas. -/
theorem quotient_scaled (m m' : Nat) {e e' unit : Int} {n : Nat} (h : unit + n = e - e') :
    (m : Rat) * 2 ^ e / (m' * 2 ^ e') / 2 ^ unit = ((m <<< n : Nat) : Rat) / m' := by
  have he : e = unit + n + e' := by omega
  have hunit := (two_zpow_pos unit).ne'
  have hdivisor := (two_zpow_pos e').ne'
  rw [Nat.shiftLeft_eq, he, zpow_add₀ two_ne_zero, zpow_add₀ two_ne_zero, zpow_natCast]
  push_cast
  field_simp

/-- The quotient of two finite floats, canonical or not, is rounded once. -/
theorem isFloatOf_div_finite (spec : Format) (s s' : Sign) {m m' : Nat} (hm : 0 < m) (hm' : 0 < m')
    (e e' : Int) :
    IsFloatOf spec
      (nearest spec (((s / s').apply 1 : Int) * ((m : Rat) * 2 ^ e / (m' * 2 ^ e'))))
      (UnpackedFloat.div spec (.finite s m e hm) (.finite s' m' e' hm')) := by
  have htotal := targetExponent_le_exponentOf_quotient spec hm hm' e e'
  generalize htarget : spec.targetExponent (totalExponent m e - totalExponent m' e') = target at htotal
  obtain ⟨n, hn⟩ := Int.le.dest (min_le_left (e - e') target)
  have hshift : (e - e' - min (e - e') target).toNat = n := by omega
  have hunfold : UnpackedFloat.div spec (.finite s m e hm) (.finite s' m' e' hm') =
      UnpackedFloat.roundWithAccuracy spec (s / s') (m <<< n / m') (min (e - e') target)
        (UnpackedFloat.accuracyOfFraction (m <<< n % m') m') := by
    unfold UnpackedFloat.div UnpackedFloat.divCore
    dsimp only
    rw [htarget, hshift]
  rw [hunfold]
  refine isFloatOf_of_shows spec (s / s') (div_pos (magnitude_pos hm e) (magnitude_pos hm' e')) ?_
    ((min_le_right _ _).trans htotal)
  rw [quotient_scaled m m' hn]
  exact shows_quotient _ hm'

/-- The quotient of two finite floats is rounded once. -/
theorem IsFloatOf.div (hu : IsFloatOf spec a u) (hv : IsFloatOf spec b v) (hb : b ≠ 0) :
    IsFloatOf spec (nearest spec (a / b)) (UnpackedFloat.div spec u v) := by
  obtain ⟨hfinite, -, rfl⟩ := hu
  obtain ⟨hfinite', -, rfl⟩ := hv
  match u, v with
  | _, .zero _ => exact absurd rfl hb
  | .zero s, .finite .. =>
    rw [valueOf_zero, zero_div, nearest_zero]
    exact ⟨rfl, trivial, rfl⟩
  | .finite s m e hm, .finite s' m' e' hm' =>
    have hvalue : valueOf (.finite s m e hm) / valueOf (.finite s' m' e' hm') =
        ((s / s').apply 1 : Int) * ((m : Rat) * 2 ^ e / (m' * 2 ^ e')) := by
      rw [valueOf_eq_sign_mul, valueOf_eq_sign_mul, div_eq_mul, apply_mul]
      cases s <;> cases s' <;> simp [Sign.apply, neg_div, div_neg]
    rw [hvalue]
    exact isFloatOf_div_finite spec s s' hm hm' e e'

theorem signOf_div (hu : u.isFinite = true) (hv : v.isFinite = true) (hb : valueOf v ≠ 0) :
    signOf (UnpackedFloat.div spec u v) = signOf u / signOf v := by
  match u, v with
  | _, .zero _ => exact absurd rfl hb
  | .zero _, .finite .. => rfl
  | .finite .., .finite .. => exact signOf_roundWithAccuracy ..

end Mosaic.Binary
