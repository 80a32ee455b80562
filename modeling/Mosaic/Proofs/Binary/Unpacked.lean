import Mathlib.Order.WithBot
import Mosaic.Proofs.Binary.Nearest

/-!
# Unpacked floats as fractions

An unpacked float that is finite stands for a fraction (`valueOf`). Among all the ways to write one
fraction with a mantissa and an exponent a format has a preferred one, which fills the mantissa as
far as the least exponent allows (`IsCanonical`). Canonical floats compare as their values do, and
one that is not zero is given by its value. Rounding with guard bits (`UnpackedFloat.round`) gives
the canonical float of the nearest number of the format.
-/

namespace Mosaic.Binary

open Float.Model (Format UnpackedFloat totalExponent)
open Float.Model.UnpackedFloat (Sign ExtendedMantissa)

/-- The fraction that a finite float stands for; zero for the others. -/
def valueOf : UnpackedFloat → Rat
  | .finite sign mantissa exponent _ => (sign.apply mantissa : Int) * 2 ^ exponent
  | _ => 0

/-- The mantissa is as long as the format has room for, unless the exponent is the least one. -/
def IsCanonical (spec : Format) : UnpackedFloat → Prop
  | .finite _ mantissa exponent _ =>
    mantissa < 2 ^ spec.mantissaBits ∧ spec.minExponent ≤ exponent ∧
      (spec.minExponent < exponent → 2 ^ spec.mantissaBitsWithoutImplicit ≤ mantissa)
  | _ => True

theorem apply_ne_zero {s : Sign} {m : Nat} (hm : 0 < m) : s.apply m ≠ 0 := by
  cases s <;> simp only [Sign.apply] <;> omega

theorem abs_apply (s : Sign) (m : Nat) : |s.apply m| = m := by
  cases s <;> simp [Sign.apply]

theorem valueOf_zero (s : Sign) : valueOf (.zero s) = 0 :=
  rfl

theorem valueOf_finite (s : Sign) (m : Nat) (e : Int) (hm : 0 < m) :
    valueOf (.finite s m e hm) = (s.apply m : Int) * 2 ^ e :=
  rfl

theorem abs_valueOf_finite (s : Sign) (m : Nat) (e : Int) (hm : 0 < m) :
    |valueOf (.finite s m e hm)| = m * 2 ^ e := by
  rw [valueOf_finite, abs_mul, abs_of_pos (two_zpow_pos e), ← Int.cast_abs, abs_apply, Int.cast_natCast]

theorem valueOf_finite_ne_zero (s : Sign) (m : Nat) (e : Int) (hm : 0 < m) :
    valueOf (.finite s m e hm) ≠ 0 :=
  mul_ne_zero (Int.cast_ne_zero.mpr (apply_ne_zero hm)) (two_zpow_pos e).ne'

theorem exists_eq_zero {u : UnpackedFloat} (hfinite : u.isFinite = true) (h : valueOf u = 0) :
    ∃ s, u = .zero s := by
  match u with
  | .zero s => exact ⟨s, rfl⟩
  | .finite s m e hm => exact absurd h (valueOf_finite_ne_zero s m e hm)

/-- The size of a fraction is that of its mantissa, moved by the exponent. -/
theorem log_scaled {m : Nat} (hm : 0 < m) (e : Int) :
    Int.log 2 ((m : Rat) * 2 ^ e) = m.log2 + e := by
  have hpos : (0 : Rat) < m * 2 ^ e := mul_pos (by exact_mod_cast hm) (two_zpow_pos e)
  have hlow : (2 : Rat) ^ m.log2 ≤ m := by exact_mod_cast Nat.log2_self_le hm.ne'
  have hhigh : (m : Rat) < 2 ^ (m.log2 + 1) := by exact_mod_cast Nat.lt_log2_self
  apply le_antisymm
  · refine Int.lt_add_one_iff.mp ((Int.lt_zpow_iff_log_lt one_lt_two hpos).mp ?_)
    push_cast
    rw [show (m.log2 : Int) + e + 1 = ((m.log2 + 1 : Nat) : Int) + e by push_cast; ring,
      zpow_add₀ two_ne_zero, zpow_natCast]
    exact mul_lt_mul_of_pos_right hhigh (two_zpow_pos e)
  · refine (Int.zpow_le_iff_le_log one_lt_two hpos).mp ?_
    push_cast
    rw [zpow_add₀ two_ne_zero, zpow_natCast]
    exact mul_le_mul_of_nonneg_right hlow (two_zpow_pos e).le

theorem exponentOf_scaled (spec : Format) {m : Nat} (hm : 0 < m) (e : Int) :
    exponentOf spec ((m : Rat) * 2 ^ e) = spec.targetExponent (totalExponent m e) := by
  have hpos : (0 : Rat) < m * 2 ^ e := mul_pos (by exact_mod_cast hm) (two_zpow_pos e)
  rw [exponentOf, abs_of_pos hpos, log_scaled hm, totalExponent]
  congr 1
  ring

/-- The exponent of a canonical float is the one that belongs to its size. -/
theorem exponentOf_valueOf {spec : Format} {s : Sign} {m : Nat} {e : Int} {hm : 0 < m}
    (h : IsCanonical spec (.finite s m e hm)) :
    exponentOf spec (valueOf (.finite s m e hm)) = e := by
  obtain ⟨hlt, hmin, hfull⟩ := h
  have hlog : m.log2 < spec.mantissaBits := (Nat.log2_lt hm.ne').mpr hlt
  rw [← exponentOf_abs, abs_valueOf_finite, exponentOf_scaled spec hm]
  unfold Format.targetExponent totalExponent
  rcases hmin.lt_or_eq with hmin | rfl
  · have hge : spec.mantissaBitsWithoutImplicit ≤ m.log2 := (Nat.le_log2 hm.ne').mpr (hfull hmin)
    unfold Format.mantissaBits at *
    omega
  · omega

theorem sign_mul (s : Sign) (m : Nat) (e : Int) :
    ((s.apply 1 : Int) : Rat) * (m * 2 ^ e) = (s.apply m : Int) * 2 ^ e := by
  cases s <;> simp [Sign.apply]

/-- A finite float with the exponent that belongs to its size is canonical. -/
theorem isCanonical_of_exponentOf {spec : Format} (s : Sign) {m : Nat} {e : Int} (hm : 0 < m)
    (h : exponentOf spec ((m : Rat) * 2 ^ e) = e) : IsCanonical spec (.finite s m e hm) := by
  have hpos : (0 : Rat) < m * 2 ^ e := mul_pos (by exact_mod_cast hm) (two_zpow_pos e)
  have hcancel : ∀ n : Nat, (2 : Rat) ^ ((n : Int) + e) = (2 ^ n : Nat) * 2 ^ e := by
    intro n
    rw [zpow_add₀ two_ne_zero, zpow_natCast]
    push_cast
    rfl
  refine ⟨?_, h ▸ minExponent_le_exponentOf spec _, fun hmin => ?_⟩
  · have hlt := abs_lt_mantissa_overflow spec ((m : Rat) * 2 ^ e)
    rw [h, abs_of_pos hpos, hcancel] at hlt
    exact_mod_cast lt_of_mul_lt_mul_right hlt (two_zpow_pos e).le
  · have hle := mantissa_full_le spec hpos.ne' (h.symm ▸ hmin)
    rw [h, abs_of_pos hpos, hcancel] at hle
    exact_mod_cast le_of_mul_le_mul_right hle (two_zpow_pos e)

/-- A canonical float that is not zero is given by its value. -/
theorem eq_of_valueOf_eq {spec : Format} {u v : UnpackedFloat} (hu : IsCanonical spec u)
    (hv : IsCanonical spec v) (hfinite : valueOf u ≠ 0) (h : valueOf u = valueOf v) : u = v := by
  match u, v with
  | .finite s m e hm, .finite s' m' e' hm' =>
    have he : e = e' := by
      rw [← exponentOf_valueOf hu, ← exponentOf_valueOf hv, h]
    subst he
    have hmantissa : s.apply m = s'.apply m' := by
      have := mul_right_cancel₀ (two_zpow_pos e).ne' h
      exact_mod_cast this
    have hm : m = m' := by
      have := congrArg abs hmantissa
      rw [abs_apply, abs_apply] at this
      exact_mod_cast this
    subst hm
    cases s <;> cases s' <;> simp only [Sign.apply] at hmantissa <;> first | rfl | omega
  | .zero _, _ | .notANumber, _ | .infinity _, _ => exact absurd rfl hfinite
  | .finite .., .zero _ | .finite .., .notANumber | .finite .., .infinity _ =>
    exact absurd h hfinite

/-- The value of a canonical float is a number of the format. -/
theorem nearest_valueOf {spec : Format} {u : UnpackedFloat} (h : IsCanonical spec u) :
    nearest spec (valueOf u) = valueOf u := by
  match u with
  | .finite s m e hm =>
    refine nearest_of_scaled spec ?_ h.2.1
    rw [abs_apply]
    exact_mod_cast h.1.le
  | .zero _ | .notANumber | .infinity _ => exact nearest_zero spec

/-- A canonical float with a given value. -/
structure IsFloatOf (spec : Format) (q : Rat) (u : UnpackedFloat) : Prop where
  isFinite : u.isFinite = true
  isCanonical : IsCanonical spec u
  value : valueOf u = q

/-- A finite float that is not zero is given by its value. -/
theorem IsFloatOf.unique {spec : Format} {a : Rat} {u v : UnpackedFloat} (hu : IsFloatOf spec a u)
    (hv : IsFloatOf spec a v) (ha : a ≠ 0) : u = v :=
  eq_of_valueOf_eq hu.isCanonical hv.isCanonical (hu.value ▸ ha) (hu.value.trans hv.value.symm)

theorem IsFloatOf.nearest_eq {spec : Format} {q : Rat} {u : UnpackedFloat}
    (h : IsFloatOf spec q u) : nearest spec q = q := by
  rw [← h.value, nearest_valueOf h.isCanonical]

theorem IsFloatOf.neg {spec : Format} {q : Rat} {u : UnpackedFloat} (h : IsFloatOf spec q u) :
    IsFloatOf spec (-q) u.neg := by
  obtain ⟨hfinite, hcanonical, rfl⟩ := h
  match u with
  | .zero _ => exact ⟨rfl, trivial, neg_zero.symm⟩
  | .finite .positive m e hm | .finite .negative m e hm =>
    refine ⟨rfl, hcanonical, ?_⟩
    show valueOf (.finite _ m e hm) = _
    rw [valueOf_finite, valueOf_finite]
    simp [Sign.apply]

/-! ## Order -/

/-- The place of a float in the order of all that are numbers. -/
def rank : UnpackedFloat → WithBot (WithTop Rat)
  | .infinity .negative => ⊥
  | .infinity .positive => ((⊤ : WithTop Rat) : WithBot (WithTop Rat))
  | u => ((valueOf u : WithTop Rat) : WithBot (WithTop Rat))

section Compare

variable {spec : Format} {s s' : Sign} {m m' : Nat} {e e' : Int} {hm : 0 < m} {hm' : 0 < m'}

theorem magnitude_pos (hm : 0 < m) (e : Int) : (0 : Rat) < m * 2 ^ e :=
  mul_pos (by exact_mod_cast hm) (two_zpow_pos e)

theorem exponentOf_magnitude (h : IsCanonical spec (.finite s m e hm)) :
    exponentOf spec ((m : Rat) * 2 ^ e) = e := by
  rw [← abs_valueOf_finite s m e hm, exponentOf_abs, exponentOf_valueOf h]

/-- Of two canonical floats the one with the smaller exponent is nearer to zero. -/
theorem magnitude_lt (h : IsCanonical spec (.finite s m e hm))
    (h' : IsCanonical spec (.finite s' m' e' hm')) (hlt : e < e') :
    (m : Rat) * 2 ^ e < m' * 2 ^ e' := by
  by_contra hle
  have := exponentOf_mono spec (magnitude_pos hm' e') (not_lt.mp hle)
  rw [exponentOf_magnitude h, exponentOf_magnitude h'] at this
  omega

theorem compare_magnitude (h : IsCanonical spec (.finite s m e hm))
    (h' : IsCanonical spec (.finite s' m' e' hm')) :
    (compare e e').then (compare m m') = compare ((m : Rat) * 2 ^ e) ((m' : Rat) * 2 ^ e') := by
  rcases lt_trichotomy e e' with hlt | rfl | hlt
  · rw [compare_lt_iff_lt.mpr hlt, compare_lt_iff_lt.mpr (magnitude_lt h h' hlt)]
    rfl
  · rw [compare_eq_iff_eq.mpr rfl]
    rcases lt_trichotomy m m' with hlt | rfl | hlt
    · have hvalue : (m : Rat) * 2 ^ e < m' * 2 ^ e :=
        mul_lt_mul_of_pos_right (by exact_mod_cast hlt) (two_zpow_pos e)
      rw [compare_lt_iff_lt.mpr hlt, compare_lt_iff_lt.mpr hvalue]
      rfl
    · rw [compare_eq_iff_eq.mpr rfl, compare_eq_iff_eq.mpr rfl]
      rfl
    · have hvalue : (m' : Rat) * 2 ^ e < m * 2 ^ e :=
        mul_lt_mul_of_pos_right (by exact_mod_cast hlt) (two_zpow_pos e)
      rw [compare_gt_iff_gt.mpr hlt, compare_gt_iff_gt.mpr hvalue]
      rfl
  · rw [compare_gt_iff_gt.mpr hlt, compare_gt_iff_gt.mpr (magnitude_lt h' h hlt)]
    rfl

end Compare

theorem rank_lt_rank {u v : UnpackedFloat} (hu : u.isFinite) (hv : v.isFinite) :
    rank u < rank v ↔ valueOf u < valueOf v := by
  match u, v with
  | .zero _, .zero _ | .zero _, .finite .. | .finite .., .zero _ | .finite .., .finite .. =>
    exact WithBot.coe_lt_coe.trans WithTop.coe_lt_coe

theorem bot_lt_rank {u : UnpackedFloat} (hu : u.isFinite) : ⊥ < rank u := by
  match u with
  | .zero _ | .finite .. => exact WithBot.bot_lt_coe _

theorem rank_lt_top {u : UnpackedFloat} (hu : u.isFinite) :
    rank u < ((⊤ : WithTop Rat) : WithBot _) := by
  match u with
  | .zero _ | .finite .. => exact WithBot.coe_lt_coe.mpr (WithTop.coe_lt_top _)

theorem valueOf_pos (m : Nat) (e : Int) (hm : 0 < m) : 0 < valueOf (.finite .positive m e hm) :=
  magnitude_pos hm e

theorem valueOf_neg (m : Nat) (e : Int) (hm : 0 < m) : valueOf (.finite .negative m e hm) < 0 := by
  have := magnitude_pos hm e
  rw [valueOf_finite, Sign.apply]
  push_cast
  linarith

theorem compare_neg (x y : Rat) : compare (-x) (-y) = (compare x y).swap := by
  rcases lt_trichotomy x y with h | rfl | h
  · rw [compare_lt_iff_lt.mpr h, compare_gt_iff_gt.mpr (neg_lt_neg h)]
    rfl
  · rw [compare_eq_iff_eq.mpr rfl, compare_eq_iff_eq.mpr rfl]
    rfl
  · rw [compare_gt_iff_gt.mpr h, compare_lt_iff_lt.mpr (neg_lt_neg h)]
    rfl

theorem compare_rank {u v : UnpackedFloat} (hu : u.isFinite) (hv : v.isFinite) :
    compare (rank u) (rank v) = compare (valueOf u) (valueOf v) := by
  rcases lt_trichotomy (valueOf u) (valueOf v) with h | h | h
  · rw [compare_lt_iff_lt.mpr h, compare_lt_iff_lt.mpr ((rank_lt_rank hu hv).mpr h)]
  · have hrank : rank u = rank v := by
      match u, v with
      | .zero _, .zero _ | .zero _, .finite .. | .finite .., .zero _ | .finite .., .finite .. =>
        exact congrArg (fun x : Rat => ((x : WithTop Rat) : WithBot (WithTop Rat))) h
    rw [compare_eq_iff_eq.mpr h, compare_eq_iff_eq.mpr hrank]
  · rw [compare_gt_iff_gt.mpr h, compare_gt_iff_gt.mpr ((rank_lt_rank hv hu).mpr h)]

/-- Canonical floats that are numbers compare as their places in the order. -/
theorem compare_eq {spec : Format} {u v : UnpackedFloat} (hu : IsCanonical spec u)
    (hv : IsCanonical spec v) (hun : u.isNaN = false) (hvn : v.isNaN = false) :
    u.compare v = some (compare (rank u) (rank v)) := by
  have lt {a b : UnpackedFloat} (h : rank a < rank b) :
      some Ordering.lt = some (compare (rank a) (rank b)) := by rw [compare_lt_iff_lt.mpr h]
  have gt {a b : UnpackedFloat} (h : rank b < rank a) :
      some Ordering.gt = some (compare (rank a) (rank b)) := by rw [compare_gt_iff_gt.mpr h]
  have eq {a b : UnpackedFloat} (h : rank a = rank b) :
      some Ordering.eq = some (compare (rank a) (rank b)) := by rw [compare_eq_iff_eq.mpr h]
  match u, v with
  | .infinity .negative, .infinity .negative | .infinity .positive, .infinity .positive =>
    exact eq rfl
  | .infinity .negative, .infinity .positive => exact lt (WithBot.bot_lt_coe _)
  | .infinity .positive, .infinity .negative => exact gt (WithBot.bot_lt_coe _)
  | .infinity .negative, .zero _ | .infinity .negative, .finite .. => exact lt (bot_lt_rank rfl)
  | .infinity .positive, .zero _ | .infinity .positive, .finite .. => exact gt (rank_lt_top rfl)
  | .zero _, .infinity .negative | .finite .., .infinity .negative => exact gt (bot_lt_rank rfl)
  | .zero _, .infinity .positive | .finite .., .infinity .positive => exact lt (rank_lt_top rfl)
  | .zero _, .zero _ => exact eq rfl
  | .zero _, .finite .positive m e hm => exact lt ((rank_lt_rank rfl rfl).mpr (valueOf_pos m e hm))
  | .zero _, .finite .negative m e hm => exact gt ((rank_lt_rank rfl rfl).mpr (valueOf_neg m e hm))
  | .finite .positive m e hm, .zero _ => exact gt ((rank_lt_rank rfl rfl).mpr (valueOf_pos m e hm))
  | .finite .negative m e hm, .zero _ => exact lt ((rank_lt_rank rfl rfl).mpr (valueOf_neg m e hm))
  | .finite .positive m e hm, .finite .negative m' e' hm' =>
    exact gt ((rank_lt_rank rfl rfl).mpr ((valueOf_neg m' e' hm').trans (valueOf_pos m e hm)))
  | .finite .negative m e hm, .finite .positive m' e' hm' =>
    exact lt ((rank_lt_rank rfl rfl).mpr ((valueOf_neg m e hm).trans (valueOf_pos m' e' hm')))
  -- only with equal signs do exponents and mantissas decide
  | .finite .positive m e hm, .finite .positive m' e' hm' =>
    rw [compare_rank rfl rfl]
    exact congrArg some (compare_magnitude hu hv)
  | .finite .negative m e hm, .finite .negative m' e' hm' =>
    have hneg : ∀ m e hm, valueOf (.finite .negative m e hm) = -((m : Rat) * 2 ^ e) := by
      intro m e hm
      rw [valueOf_finite, Sign.apply]
      push_cast
      ring
    rw [compare_rank rfl rfl, hneg, hneg, compare_neg, ← compare_magnitude hu hv]
    rfl

theorem IsFloatOf.rank_eq {spec : Format} {q : Rat} {u : UnpackedFloat} (h : IsFloatOf spec q u) :
    rank u = ((q : WithTop Rat) : WithBot (WithTop Rat)) := by
  obtain ⟨hfinite, -, rfl⟩ := h
  match u with
  | .zero _ | .finite .. => rfl

theorem IsFloatOf.isNaN_eq {spec : Format} {q : Rat} {u : UnpackedFloat} (h : IsFloatOf spec q u) :
    u.isNaN = false := by
  have hfinite := h.isFinite
  match u with
  | .zero _ | .finite .. => rfl

end Mosaic.Binary
