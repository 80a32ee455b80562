import Mathlib.Algebra.Order.Field.Rat
import Mathlib.Data.Int.Log
import Mathlib.Data.Rat.Floor
import Mathlib.Tactic.Linarith
import Mathlib.Tactic.Positivity
import Mathlib.Tactic.Ring

/-!
# Rounding fractions to the precision of a format

A binary format has numbers with a mantissa of `p` bits and an exponent not below a least one. How a
fraction is rounded to such a number can be said without any bits: the size of the fraction fixes
the exponent (`exponentOf`), and the fraction is rounded to a whole multiple of that power of two,
the nearest one, or of two nearest ones the one that is even (`nearest`).

Rounding keeps the order (`nearest_mono`) and keeps every number of the format
(`nearest_of_scaled`). From these two follow the bounds that the passage between widths and the
casts to whole numbers need.
-/

namespace Mosaic.Binary

open Float.Model (Format)

/-- The nearest whole number; of two nearest ones the even one. -/
def nearestEven (x : Rat) : Int :=
  if Int.fract x < 1 / 2 then ⌊x⌋ else if 1 / 2 < Int.fract x then ⌊x⌋ + 1 else ⌊x⌋ + ⌊x⌋ % 2

theorem nearestEven_intCast (n : Int) : nearestEven n = n := by
  rw [nearestEven, Int.fract_intCast, if_pos (by norm_num), Int.floor_intCast]

theorem floor_le_nearestEven (x : Rat) : ⌊x⌋ ≤ nearestEven x := by
  unfold nearestEven
  split_ifs <;> omega

theorem nearestEven_le_floor_add_one (x : Rat) : nearestEven x ≤ ⌊x⌋ + 1 := by
  unfold nearestEven
  split_ifs <;> omega

theorem nearestEven_mono {x y : Rat} (h : x ≤ y) : nearestEven x ≤ nearestEven y := by
  rcases (Int.floor_mono h).lt_or_eq with hlt | heq
  · calc nearestEven x ≤ ⌊x⌋ + 1 := nearestEven_le_floor_add_one x
      _ ≤ ⌊y⌋ := hlt
      _ ≤ nearestEven y := floor_le_nearestEven y
  · have hfract : Int.fract x ≤ Int.fract y := by
      unfold Int.fract
      rw [heq]
      linarith
    unfold nearestEven
    rw [heq]
    split_ifs <;> first | omega | linarith

/-- Rounding treats both signs alike. -/
theorem nearestEven_neg (x : Rat) : nearestEven (-x) = -nearestEven x := by
  by_cases hx : Int.fract x = 0
  · have hwhole : x = (⌊x⌋ : Rat) := by
      have := Int.self_sub_floor x
      rw [hx] at this
      linarith
    rw [hwhole, ← Int.cast_neg, nearestEven_intCast, nearestEven_intCast]
  · have hfract : Int.fract (-x) = 1 - Int.fract x := Int.fract_neg hx
    have hfloor : ⌊-x⌋ = -⌊x⌋ - 1 := by
      have h1 := Int.self_sub_floor (-x)
      have h2 := Int.self_sub_floor x
      have : (⌊-x⌋ : Rat) = ((-⌊x⌋ - 1 : Int) : Rat) := by
        push_cast
        linarith
      exact_mod_cast this
    unfold nearestEven
    rw [hfract, hfloor]
    split_ifs <;> first | omega | (exfalso; linarith)

/-- The exponent of the numbers of a format of about the size of a fraction. -/
def exponentOf (spec : Format) (x : Rat) : Int := spec.targetExponent (Int.log 2 |x| + 1)

/-- The nearest number of a format, if the exponent had no upper bound. -/
def nearest (spec : Format) (x : Rat) : Rat :=
  nearestEven (x / 2 ^ exponentOf spec x) * 2 ^ exponentOf spec x

variable (spec : Format)

theorem exponentOf_neg (x : Rat) : exponentOf spec (-x) = exponentOf spec x := by
  rw [exponentOf, exponentOf, abs_neg]

theorem exponentOf_abs (x : Rat) : exponentOf spec |x| = exponentOf spec x := by
  rw [exponentOf, exponentOf, abs_abs]

theorem minExponent_le_exponentOf (x : Rat) : spec.minExponent ≤ exponentOf spec x :=
  le_max_right _ _

theorem exponentOf_mono {x y : Rat} (hx : 0 < x) (h : x ≤ y) :
    exponentOf spec x ≤ exponentOf spec y := by
  have hlog := Int.log_mono_right (b := 2) hx h
  unfold exponentOf Format.targetExponent
  rw [abs_of_pos hx, abs_of_pos (hx.trans_le h)]
  omega

theorem nearest_neg (x : Rat) : nearest spec (-x) = -nearest spec x := by
  unfold nearest
  rw [exponentOf_neg, neg_div, nearestEven_neg]
  push_cast
  ring

theorem nearest_zero : nearest spec 0 = 0 := by
  rw [nearest, zero_div, ← Int.cast_zero, nearestEven_intCast, Int.cast_zero, zero_mul]

theorem two_zpow_pos (e : Int) : (0 : Rat) < 2 ^ e := zpow_pos two_pos e

/-- A fraction is below the power of two at which its mantissa would overflow. -/
theorem abs_lt_mantissa_overflow (x : Rat) :
    |x| < 2 ^ ((spec.mantissaBits : Int) + exponentOf spec x) := by
  rcases (abs_nonneg x).eq_or_lt with hzero | hpos
  · rw [← hzero]
    exact two_zpow_pos _
  · refine (Int.lt_zpow_iff_log_lt one_lt_two hpos).mpr ?_
    unfold exponentOf Format.targetExponent
    omega

/-- A fraction whose exponent is not the least one has a full mantissa. -/
theorem mantissa_full_le {x : Rat} (hx : x ≠ 0) (h : spec.minExponent < exponentOf spec x) :
    2 ^ ((spec.mantissaBitsWithoutImplicit : Int) + exponentOf spec x) ≤ |x| := by
  refine (Int.zpow_le_iff_le_log one_lt_two (abs_pos.mpr hx)).mpr ?_
  unfold exponentOf Format.targetExponent Format.mantissaBits at *
  push_cast at *
  omega

theorem exponentOf_le_of_lt {x : Rat} {n : Int} (hx : 0 < x) (h : x < 2 ^ n) :
    exponentOf spec x ≤ max (n - spec.mantissaBits) spec.minExponent := by
  have hlog := (Int.lt_zpow_iff_log_lt one_lt_two hx).mp h
  unfold exponentOf Format.targetExponent
  rw [abs_of_pos hx]
  omega

theorem le_exponentOf_of_le {x : Rat} {n : Int} (h : 2 ^ n ≤ x) :
    n + 1 - spec.mantissaBits ≤ exponentOf spec x := by
  have hx := (two_zpow_pos n).trans_le h
  have hlog := (Int.zpow_le_iff_le_log one_lt_two hx).mp h
  unfold exponentOf Format.targetExponent
  rw [abs_of_pos hx]
  omega

/-- The exponent of a number is fixed by the mantissa that it asks for. -/
theorem exponentOf_eq {x : Rat} {e : Int} (hmin : spec.minExponent ≤ e) (hx : 0 < x)
    (hlt : x < 2 ^ ((spec.mantissaBits : Int) + e))
    (hfull : spec.minExponent < e → 2 ^ ((spec.mantissaBitsWithoutImplicit : Int) + e) ≤ x) :
    exponentOf spec x = e := by
  have hle := exponentOf_le_of_lt spec hx hlt
  have hlow := minExponent_le_exponentOf spec x
  rcases hmin.eq_or_lt with rfl | hmin
  · omega
  · have hge := le_exponentOf_of_le spec (hfull hmin)
    unfold Format.mantissaBits at hge hle
    omega

/-- A whole multiple of a power of two is one of every smaller power. -/
theorem exists_multiple (k : Int) {e e' : Int} (h : e' ≤ e) :
    ∃ k' : Int, (k : Rat) * 2 ^ e = k' * 2 ^ e' := by
  obtain ⟨n, rfl⟩ := Int.le.dest h
  refine ⟨k * 2 ^ n, ?_⟩
  rw [zpow_add₀ two_ne_zero, zpow_natCast]
  push_cast
  ring

/-- A whole multiple of the power of two that belongs to its size is rounded to itself. -/
theorem nearest_of_multiple {x : Rat} {k : Int} (h : x = k * 2 ^ exponentOf spec x) :
    nearest spec x = x := by
  have hk : x / 2 ^ exponentOf spec x = k := (div_eq_iff (two_zpow_pos _).ne').mpr h
  rw [nearest, hk, nearestEven_intCast, ← h]

theorem exponentOf_scaled_le {k e : Int} (hzero : k ≠ 0) (hk : |k| < 2 ^ spec.mantissaBits)
    (he : spec.minExponent ≤ e) : exponentOf spec ((k : Rat) * 2 ^ e) ≤ e := by
  have hpos : (0 : Rat) < |(k : Rat) * 2 ^ e| :=
    abs_pos.mpr (mul_ne_zero (Int.cast_ne_zero.mpr hzero) (two_zpow_pos e).ne')
  have hlt : |(k : Rat) * 2 ^ e| < 2 ^ ((spec.mantissaBits : Int) + e) := by
    rw [abs_mul, abs_of_pos (two_zpow_pos e), zpow_add₀ two_ne_zero, zpow_natCast]
    exact mul_lt_mul_of_pos_right (by exact_mod_cast hk) (two_zpow_pos e)
  have hlog := (Int.lt_zpow_iff_log_lt one_lt_two hpos).mp hlt
  unfold exponentOf Format.targetExponent
  omega

/-- A number of a format is rounded to itself. -/
theorem nearest_of_scaled {k e : Int} (hk : |k| ≤ 2 ^ spec.mantissaBits)
    (he : spec.minExponent ≤ e) : nearest spec (k * 2 ^ e) = k * 2 ^ e := by
  have hsmall : ∀ {k e : Int}, |k| < 2 ^ spec.mantissaBits → spec.minExponent ≤ e →
      nearest spec (k * 2 ^ e) = k * 2 ^ e := by
    intro k e hk he
    by_cases hzero : k = 0
    · rw [hzero, Int.cast_zero, zero_mul, nearest_zero]
    · obtain ⟨k', hk'⟩ := exists_multiple k (exponentOf_scaled_le spec hzero hk he)
      exact nearest_of_multiple spec hk'
  rcases hk.lt_or_eq with hlt | heq
  · exact hsmall hlt he
  · -- A mantissa of one bit too many is a power of two: half of it has the next exponent.
    have hbits : spec.mantissaBits = spec.mantissaBitsWithoutImplicit + 1 := Nat.add_comm _ _
    rw [hbits, pow_succ] at heq
    obtain ⟨k', rfl⟩ : ∃ k', k = k' * 2 := by
      rcases abs_eq (by positivity) |>.mp heq with h | h
      · exact ⟨_, h⟩
      · exact ⟨-2 ^ spec.mantissaBitsWithoutImplicit, by rw [h, neg_mul]⟩
    have hhalf : |k'| < 2 ^ spec.mantissaBits := by
      rw [abs_mul, abs_of_pos (two_pos : (0 : Int) < 2)] at heq
      have hpow : (0 : Int) < 2 ^ spec.mantissaBitsWithoutImplicit := by positivity
      rw [hbits, pow_succ]
      omega
    have hvalue : ((k' * 2 : Int) : Rat) * 2 ^ e = k' * 2 ^ (e + 1) := by
      rw [zpow_add_one₀ two_ne_zero]
      push_cast
      ring
    rw [hvalue]
    exact hsmall hhalf (by omega)

/-- A whole number of few enough bits is rounded to itself. -/
theorem nearest_intCast (hmin : spec.minExponent ≤ 0) {n : Int} (hn : |n| ≤ 2 ^ spec.mantissaBits) :
    nearest spec n = n := by
  simpa using nearest_of_scaled spec hn hmin

/-- A power of two is rounded to itself. -/
theorem nearest_two_zpow {e : Int} (he : spec.minExponent ≤ e) : nearest spec (2 ^ e) = 2 ^ e := by
  have hone : |(1 : Int)| ≤ 2 ^ spec.mantissaBits := by
    rw [abs_one]
    exact one_le_pow₀ (by norm_num)
  simpa using nearest_of_scaled spec hone he

/-! ## Order -/

theorem abs_nearestEven_le (x : Rat) :
    |nearestEven (x / 2 ^ exponentOf spec x)| ≤ 2 ^ spec.mantissaBits := by
  have hlt := abs_lt_mantissa_overflow spec x
  rw [zpow_add₀ two_ne_zero, zpow_natCast] at hlt
  have hdiv : |x / 2 ^ exponentOf spec x| ≤ ((2 ^ spec.mantissaBits : Int) : Rat) := by
    rw [abs_div, abs_of_pos (two_zpow_pos _), div_le_iff₀ (two_zpow_pos _)]
    push_cast
    exact hlt.le
  obtain ⟨hlow, hhigh⟩ := abs_le.mp hdiv
  have h1 := nearestEven_mono hhigh
  have h2 := nearestEven_mono hlow
  rw [nearestEven_intCast] at h1
  rw [← Int.cast_neg, nearestEven_intCast] at h2
  exact abs_le.mpr ⟨h2, h1⟩

/-- What rounding gives is a number of the format. -/
theorem exists_scaled_nearest (x : Rat) :
    ∃ k e : Int, |k| ≤ 2 ^ spec.mantissaBits ∧ spec.minExponent ≤ e ∧
      nearest spec x = k * 2 ^ e :=
  ⟨_, _, abs_nearestEven_le spec x, minExponent_le_exponentOf spec x, rfl⟩

theorem nearest_nearest (x : Rat) : nearest spec (nearest spec x) = nearest spec x := by
  obtain ⟨k, e, hk, he, hx⟩ := exists_scaled_nearest spec x
  rw [hx, nearest_of_scaled spec hk he]

theorem nearest_nonneg {x : Rat} (hx : 0 ≤ x) : 0 ≤ nearest spec x := by
  have h := nearestEven_mono (div_nonneg hx (two_zpow_pos (exponentOf spec x)).le)
  rw [← Int.cast_zero, nearestEven_intCast] at h
  exact mul_nonneg (by exact_mod_cast h) (two_zpow_pos _).le

theorem nearest_mono_of_pos {x y : Rat} (hx : 0 < x) (h : x ≤ y) :
    nearest spec x ≤ nearest spec y := by
  have hy := hx.trans_le h
  rcases (exponentOf_mono spec hx h).lt_or_eq with hlt | heq
  · -- Between the two sizes lies the power of two at which the smaller mantissa overflows.
    have hupper : nearest spec x ≤ 2 ^ ((spec.mantissaBits : Int) + exponentOf spec x) := by
      rw [zpow_add₀ two_ne_zero, zpow_natCast]
      refine mul_le_mul_of_nonneg_right ?_ (two_zpow_pos _).le
      exact_mod_cast (abs_le.mp (abs_nearestEven_le spec x)).2
    have hlower : 2 ^ ((spec.mantissaBitsWithoutImplicit : Int) + exponentOf spec y) ≤
        nearest spec y := by
      have hfull := mantissa_full_le spec hy.ne'
        ((minExponent_le_exponentOf spec x).trans_lt hlt)
      rw [abs_of_pos hy, zpow_add₀ two_ne_zero, zpow_natCast] at hfull
      have hdiv : ((2 ^ spec.mantissaBitsWithoutImplicit : Int) : Rat) ≤
          y / 2 ^ exponentOf spec y := by
        rw [le_div_iff₀ (two_zpow_pos _)]
        push_cast
        exact hfull
      have hround := nearestEven_mono hdiv
      rw [nearestEven_intCast] at hround
      rw [zpow_add₀ two_ne_zero, zpow_natCast]
      refine mul_le_mul_of_nonneg_right ?_ (two_zpow_pos _).le
      exact_mod_cast hround
    refine hupper.trans (le_trans ?_ hlower)
    refine zpow_le_zpow_right₀ one_le_two ?_
    unfold Format.mantissaBits
    push_cast
    omega
  · unfold nearest
    rw [heq]
    refine mul_le_mul_of_nonneg_right ?_ (two_zpow_pos _).le
    exact_mod_cast nearestEven_mono (div_le_div_of_nonneg_right h (two_zpow_pos _).le)

/-- Rounding keeps the order. -/
theorem nearest_mono {x y : Rat} (h : x ≤ y) : nearest spec x ≤ nearest spec y := by
  rcases lt_trichotomy x 0 with hx | rfl | hx
  · rcases lt_or_ge y 0 with hy | hy
    · have hneg := nearest_mono_of_pos spec (neg_pos.mpr hy) (neg_le_neg h)
      rw [nearest_neg, nearest_neg] at hneg
      exact neg_le_neg_iff.mp hneg
    · have hneg := nearest_nonneg spec (neg_nonneg.mpr hx.le)
      rw [nearest_neg] at hneg
      exact (neg_nonneg.mp hneg).trans (nearest_nonneg spec hy)
  · rw [nearest_zero]
    exact nearest_nonneg spec h
  · exact nearest_mono_of_pos spec hx h

/-- Rounding does not pass a power of two. -/
theorem abs_nearest_le {x : Rat} {e : Int} (he : spec.minExponent ≤ e) (h : |x| ≤ 2 ^ e) :
    |nearest spec x| ≤ 2 ^ e := by
  obtain ⟨hlow, hhigh⟩ := abs_le.mp h
  have hlow := nearest_mono spec hlow
  have hhigh := nearest_mono spec hhigh
  rw [nearest_neg, nearest_two_zpow spec he] at hlow
  rw [nearest_two_zpow spec he] at hhigh
  exact abs_le.mpr ⟨hlow, hhigh⟩

/-- A whole number is rounded to a whole number. -/
theorem exists_nearest_intCast (n : Int) : ∃ k : Int, nearest spec n = k := by
  rcases le_total 0 (exponentOf spec (n : Rat)) with h | h
  · obtain ⟨k, hk⟩ := exists_multiple (nearestEven ((n : Rat) / 2 ^ exponentOf spec (n : Rat))) h
    exact ⟨k, by simpa [nearest] using hk⟩
  · obtain ⟨k, hk⟩ := exists_multiple n h
    refine ⟨n, nearest_of_multiple spec (k := k) ?_⟩
    simpa using hk

/-- What rounding gives is a whole multiple of the power of two that belongs to its size. -/
theorem exists_nearest_div (x : Rat) :
    ∃ k : Int, nearest spec x / 2 ^ exponentOf spec (nearest spec x) = k :=
  ⟨_, (div_eq_iff (two_zpow_pos _).ne').mpr (nearest_nearest spec x).symm⟩

/-- Rounding does not make a fraction smaller by a whole exponent. -/
theorem exponentOf_le_exponentOf_nearest {x : Rat} (hx : 0 < x) :
    exponentOf spec x ≤ exponentOf spec (nearest spec x) := by
  rcases (minExponent_le_exponentOf spec x).eq_or_lt with heq | hlt
  · exact heq ▸ minExponent_le_exponentOf spec _
  · have hfull := mantissa_full_le spec hx.ne' hlt
    rw [abs_of_pos hx] at hfull
    have hround := nearest_mono spec hfull
    rw [nearest_two_zpow spec (by omega)] at hround
    have hpos := (two_zpow_pos _).trans_le hround
    have hlog := (Int.zpow_le_iff_le_log one_lt_two hpos).mp hround
    unfold exponentOf Format.targetExponent Format.mantissaBits at *
    rw [abs_of_pos hpos]
    rw [abs_of_pos hx] at hlog ⊢
    push_cast at hlog ⊢
    omega

end Mosaic.Binary
