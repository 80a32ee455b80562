import Mosaic.Decimal.Basic
import Mosaic.Proofs.Binary.Sums

/-!
# The double that a decimal number stands for

A decimal number is read as the double nearest to its value, and a zero keeps the sign
(`isFloatOf_toFloat`). Few digits and a small power of ten are exact doubles, and one operation on
them rounds once; other numbers are put together from whole numbers of any size. Either way the
result depends only on the sign and on the value, so that decimals which differ in trailing zeros
are read alike (`toFloat_congr`).
-/

namespace Mosaic.Binary

open Float.Model (Format UnpackedFloat)
open Float.Model.UnpackedFloat (Sign)

theorem toRat?_eq_some_iff {x : Float} {q : Rat} :
    toRat? x = some q ↔ IsFloatOf .binary64 q (unpack x) := by
  have hcanonical := (isStorable_double x).isCanonical
  unfold toRat?
  generalize unpack x = u at hcanonical ⊢
  cases u with
  | zero s =>
    constructor
    · intro h
      cases h
      exact ⟨rfl, trivial, rfl⟩
    · intro h
      exact congrArg some h.value
  | infinity _ | notANumber =>
    refine iff_of_false nofun fun h => ?_
    cases h.isFinite
  | finite s m e hm =>
    have hvalue : (if 0 ≤ e then ((s.apply m * 2 ^ e.toNat : Int) : Rat)
        else mkRat (s.apply m) (2 ^ (-e).toNat)) = valueOf (.finite s m e hm) := by
      rw [valueOf_finite]
      split_ifs with he
      · obtain ⟨k, rfl⟩ := Int.eq_ofNat_of_zero_le he
        push_cast
        rw [Int.toNat_natCast, zpow_natCast]
      · obtain ⟨k, hk⟩ := Int.eq_ofNat_of_zero_le (Int.neg_nonneg.mpr (not_le.mp he).le)
        rw [Rat.mkRat_eq_div, hk, Int.toNat_natCast, ← neg_neg e, hk, zpow_neg, zpow_natCast,
          div_eq_mul_inv]
        push_cast
        rfl
    dsimp only
    rw [Option.some_inj, hvalue]
    exact ⟨fun h => ⟨rfl, hcanonical, h⟩, fun h => h.value⟩

/-! ## Operations on doubles -/

section Double

variable {x y : Float} {a b : Rat}

theorem unpack_mul (hx : IsFloatOf .binary64 a (unpack x)) (hy : IsFloatOf .binary64 b (unpack y))
    (h : |nearest .binary64 (a * b)| < 2 ^ 1024) :
    unpack (x * y) = UnpackedFloat.mul .binary64 (unpack x) (unpack y) :=
  unpack_ofModel ((hx.mul (by decide) hy).isStorable h)

theorem unpack_div (hx : IsFloatOf .binary64 a (unpack x)) (hy : IsFloatOf .binary64 b (unpack y))
    (hb : b ≠ 0) (h : |nearest .binary64 (a / b)| < 2 ^ 1024) :
    unpack (x / y) = UnpackedFloat.div .binary64 (unpack x) (unpack y) :=
  unpack_ofModel ((hx.div hy hb).isStorable h)

theorem unpack_neg (x : Float) : unpack (-x) = (unpack x).neg := by
  refine unpack_ofModel (u := (unpack x).neg) ?_
  have h := isStorable_double x
  match unpack x, h with
  | .zero _, _ | .infinity _, _ | .notANumber, _ => trivial
  | .finite .., h => exact h

theorem signOf_neg {u : UnpackedFloat} (hu : u.isFinite = true) : signOf u.neg = -signOf u := by
  match u with
  | .zero _ | .finite .. => rfl

end Double

/-! ## Digits and a power of ten -/

theorem isFloatOf_powerOfTen {e : Nat} (he : e ≤ 22)
    (h : e < Float.exactlyRepresentablePowersOfTen.size) :
    IsFloatOf .binary64 (10 ^ e) (unpack Float.exactlyRepresentablePowersOfTen[e]) := by
  have htable : ∀ i : Fin 23,
      toRat? (Float.exactlyRepresentablePowersOfTen.getD i 0) = some (10 ^ i.val) := by
    decide +kernel
  have hget := htable ⟨e, by omega⟩
  rw [Array.getD_eq_getD_getElem?, Array.getElem?_eq_getElem h] at hget
  exact toRat?_eq_some_iff.mp hget

/-- The power of two just below half of the smallest number is rounded to zero. -/
theorem nearest_eq_zero (spec : Format) {x : Rat} (hx : |x| < 2 ^ (spec.minExponent - 1)) :
    nearest spec x = 0 := by
  refine nearest_eq_of_abs_sub_lt spec (k := 0) (by rw [Int.cast_zero, zero_mul]) ?_
  rw [sub_zero]
  calc |x| < 2 ^ (spec.minExponent - 1) := hx
    _ = 2 ^ spec.minExponent / 2 := by rw [zpow_sub_one₀ two_ne_zero, div_eq_mul_inv]
    _ ≤ 2 ^ exponentOf spec x / 2 := by
      have := zpow_le_zpow_right₀ (one_le_two (α := Rat)) (minExponent_le_exponentOf spec x)
      linarith

theorem ten_zpow_pos (k : Int) : (0 : Rat) < 10 ^ k := zpow_pos (by norm_num) k

section Scientific

variable {m : Nat} {k : Int}

/-- The power of ten alone is out of range. -/
theorem two_pow_le_nearest (hm : m ≠ 0) (hk : 1024 ≤ k) :
    2 ^ 1024 ≤ nearest .binary64 (m * 10 ^ k) := by
  have hone : (1 : Rat) ≤ m := by exact_mod_cast Nat.one_le_iff_ne_zero.mpr hm
  have hpow : (2 : Rat) ^ (1024 : Int) ≤ m * 10 ^ k :=
    calc (2 : Rat) ^ (1024 : Int) ≤ 10 ^ (1024 : Int) :=
          zpow_le_zpow_left₀ (by decide) (by norm_num) (by norm_num)
      _ ≤ 10 ^ k := zpow_le_zpow_right₀ (by norm_num) hk
      _ ≤ m * 10 ^ k := le_mul_of_one_le_left (ten_zpow_pos k).le hone
  have hround := nearest_mono .binary64 hpow
  rw [nearest_two_zpow _ (by decide)] at hround
  exact_mod_cast hround

/-- The power of ten leaves nothing of the digits. -/
theorem nearest_eq_zero_of_small (hk : k < -(2048 + m.log2)) :
    nearest .binary64 (m * 10 ^ k) = 0 := by
  have hdigits : (m : Rat) < 2 ^ ((m.log2 + 1 : Nat) : Int) := by
    rw [zpow_natCast]
    exact_mod_cast Nat.lt_log2_self
  have hpow : (10 : Rat) ^ k ≤ 2 ^ k := by
    obtain ⟨n, hn⟩ := Int.eq_ofNat_of_zero_le (show 0 ≤ -k by omega)
    rw [← neg_neg k, hn, zpow_neg, zpow_neg, zpow_natCast, zpow_natCast]
    exact inv_anti₀ (by positivity) (pow_le_pow_left₀ (by norm_num) (by norm_num) n)
  apply nearest_eq_zero
  rw [abs_of_nonneg (mul_nonneg m.cast_nonneg (ten_zpow_pos k).le)]
  calc (m : Rat) * 10 ^ k < 2 ^ ((m.log2 + 1 : Nat) : Int) * 10 ^ k :=
        mul_lt_mul_of_pos_right hdigits (ten_zpow_pos k)
    _ ≤ 2 ^ ((m.log2 + 1 : Nat) : Int) * 2 ^ k :=
        mul_le_mul_of_nonneg_left hpow (two_zpow_pos _).le
    _ = 2 ^ (((m.log2 + 1 : Nat) : Int) + k) := (zpow_add₀ two_ne_zero _ _).symm
    _ ≤ 2 ^ (Format.binary64.minExponent - 1) := by
      have hleast : Format.binary64.minExponent = -1074 := by decide
      refine zpow_le_zpow_right₀ one_le_two ?_
      omega

/-- The digits are moved up before they are multiplied, so that no bit is lost. -/
theorem isFloatOf_shifted_mul (hm : m ≠ 0) (n : Nat) :
    IsFloatOf .binary64 (nearest .binary64 (m * 10 ^ (n : Int)))
      (UnpackedFloat.roundWithAccuracy .binary64 .positive (m <<< 53 * 10 ^ n) (-53 + 0) .exact) := by
  have hfull : 2 ^ Format.binary64.mantissaBitsWithoutImplicit ≤ m <<< 53 * 10 ^ n := by
    rw [Nat.shiftLeft_eq]
    calc 2 ^ 52 ≤ 1 * 2 ^ 53 * 1 := by norm_num
      _ ≤ m * 2 ^ 53 * 10 ^ n := Nat.mul_le_mul
          (Nat.mul_le_mul_right _ (Nat.pos_of_ne_zero hm)) (Nat.one_le_pow _ _ (by norm_num))
  have hround := isFloatOf_roundWithAccuracy .binary64 .positive (Nat.lt_of_lt_of_le (by decide) hfull)
    (le_exponentOf_of_full hfull (-53 + 0))
  have hvalue : (((Sign.positive.apply (m <<< 53 * 10 ^ n : Nat) : Int)) : Rat) * 2 ^ (-53 + 0 : Int) =
      m * 10 ^ (n : Int) := by
    rw [Sign.apply, Nat.shiftLeft_eq, zpow_natCast]
    push_cast
    norm_num
    ring
  rwa [hvalue] at hround

/-- Digits times a power of ten become the nearest double. -/
theorem isFloatOf_unpackedOfScientific (h : nearest .binary64 (m * 10 ^ k) < 2 ^ 1024) :
    IsFloatOf .binary64 (nearest .binary64 (m * 10 ^ k)) (UnpackedFloat.ofScientific .binary64 m k) ∧
      signOf (UnpackedFloat.ofScientific .binary64 m k) = .positive := by
  unfold UnpackedFloat.ofScientific
  by_cases hm : m = 0
  · rw [dif_pos hm, hm, Nat.cast_zero, zero_mul, nearest_zero]
    exact ⟨⟨rfl, trivial, rfl⟩, rfl⟩
  rw [dif_neg hm]
  by_cases hlarge : k > 2 ^ Format.binary64.exponentBits
  · exact absurd h (not_lt.mpr (two_pow_le_nearest hm (by norm_num at hlarge; omega)))
  rw [if_neg hlarge]
  by_cases hsmall : k < -(2 ^ Format.binary64.exponentBits + (m.log2 : Int))
  · rw [if_pos hsmall, nearest_eq_zero_of_small (by norm_num at hsmall; omega)]
    exact ⟨⟨rfl, trivial, rfl⟩, rfl⟩
  rw [if_neg hsmall]
  by_cases hk : 0 ≤ k
  · rw [if_pos hk]
    obtain ⟨n, rfl⟩ := Int.eq_ofNat_of_zero_le hk
    exact ⟨isFloatOf_shifted_mul hm n, signOf_roundWithAccuracy ..⟩
  · rw [if_neg hk]
    obtain ⟨n, hn⟩ := Int.eq_ofNat_of_zero_le (Int.neg_nonneg.mpr (not_le.mp hk).le)
    have hdiv := isFloatOf_div_finite .binary64 .positive .positive (Nat.pos_of_ne_zero hm)
      (Nat.pow_pos (n := (-k).toNat) (show 0 < 10 by decide)) 0 0
    have hvalue : (((Sign.positive / Sign.positive).apply 1 : Int) : Rat) *
        ((m : Rat) * 2 ^ (0 : Int) / ((10 ^ (-k).toNat : Nat) * 2 ^ (0 : Int))) = m * 10 ^ k := by
      rw [hn, Int.toNat_natCast, ← neg_neg k, hn, zpow_neg, zpow_natCast]
      push_cast
      simp [Sign.apply, div_eq_mul, div_eq_mul_inv]
    rw [hvalue] at hdiv
    exact ⟨hdiv, signOf_roundWithAccuracy ..⟩

end Scientific

/-- The power of ten that a number in scientific notation names. -/
def powerOf (down : Bool) (e : Nat) : Int := if down then -(e : Int) else e

theorem ofScientific_slow {m : Nat} {e : Nat} (h : ¬(m < 2 ^ 53 ∧ e ≤ 22)) (down : Bool) :
    Float.ofScientific m down e = .ofModel (.ofScientific m (powerOf down e)) := by
  rw [Float.ofScientific, dif_neg h]
  cases down with
  | false => rfl
  | true =>
    simp only [powerOf, if_true, Int.negOfNat_eq]
    rfl

theorem isFloatOf_ofScientific {m : Nat} {down : Bool} {e : Nat}
    (h : nearest .binary64 (m * 10 ^ powerOf down e) < 2 ^ 1024) :
    IsFloatOf .binary64 (nearest .binary64 (m * 10 ^ powerOf down e))
        (unpack (Float.ofScientific m down e)) ∧
      signOf (unpack (Float.ofScientific m down e)) = .positive := by
  have habs : |nearest .binary64 ((m : Rat) * 10 ^ powerOf down e)| < 2 ^ 1024 := by
    rwa [abs_of_nonneg (nearest_nonneg _ (mul_nonneg m.cast_nonneg (ten_zpow_pos _).le))]
  by_cases hfast : m < 2 ^ 53 ∧ e ≤ 22
  · have hsize : e < Float.exactlyRepresentablePowersOfTen.size := Nat.lt_succ_of_le hfast.2
    obtain ⟨hword, hsign⟩ := isFloatOf_word hfast.1
    have hpower := isFloatOf_powerOfTen hfast.2 hsize
    have hpos : (0 : Rat) < 10 ^ e := by positivity
    cases down with
    | true =>
      have hunfold : Float.ofScientific m true e =
          m.toUInt64.toFloat / Float.exactlyRepresentablePowersOfTen[e] := by
        rw [Float.ofScientific, dif_pos hfast]
        rfl
      have hvalue : (m : Rat) * 10 ^ powerOf true e = m / 10 ^ e := by
        rw [powerOf, if_pos rfl, zpow_neg, zpow_natCast, div_eq_mul_inv]
      rw [hvalue] at habs ⊢
      rw [hunfold, unpack_div hword hpower hpos.ne' habs]
      refine ⟨hword.div hpower hpos.ne', ?_⟩
      rw [signOf_div hword.isFinite hpower.isFinite (hpower.value.trans_ne hpos.ne'), hsign,
        hpower.signOf_of_pos hpos]
      rfl
    | false =>
      have hunfold : Float.ofScientific m false e =
          m.toUInt64.toFloat * Float.exactlyRepresentablePowersOfTen[e] := by
        rw [Float.ofScientific, dif_pos hfast]
        rfl
      have hvalue : (m : Rat) * 10 ^ powerOf false e = m * 10 ^ e := by
        rw [powerOf, if_neg Bool.false_ne_true, zpow_natCast]
      rw [hvalue] at habs ⊢
      rw [hunfold, unpack_mul hword hpower habs]
      refine ⟨hword.mul (by decide) hpower, ?_⟩
      rw [signOf_mul hword.isFinite hpower.isFinite, hsign, hpower.signOf_of_pos hpos]
      rfl
  · obtain ⟨hfloat, hsign⟩ := isFloatOf_unpackedOfScientific h
    have hunpack : unpack (.ofModel (.ofScientific m (powerOf down e))) =
        UnpackedFloat.ofScientific .binary64 m (powerOf down e) :=
      unpack_ofModel (hfloat.isStorable habs)
    rw [ofScientific_slow hfast, hunpack]
    exact ⟨hfloat, hsign⟩

end Mosaic.Binary

namespace Mosaic.Decimal

open Binary
open Float.Model (Format UnpackedFloat)
open Float.Model.UnpackedFloat (Sign)

/-- The size of a decimal number. -/
def size (d : Decimal) : Rat := d.digits * 10 ^ d.exponent

def sign (d : Decimal) : Sign := if d.negative then .negative else .positive

/-- The number itself. -/
def value (d : Decimal) : Rat := (d.sign.apply 1 : Int) * d.size

theorem size_nonneg (d : Decimal) : 0 ≤ d.size :=
  mul_nonneg d.digits.cast_nonneg (ten_zpow_pos d.exponent).le

/-- A decimal number in range is read as the nearest double, and a zero keeps the sign. -/
theorem isFloatOf_toFloat {d : Decimal} (h : nearest .binary64 d.size < 2 ^ 1024) :
    IsFloatOf .binary64 (nearest .binary64 d.value) (unpack d.toFloat) ∧
      signOf (unpack d.toFloat) = d.sign := by
  obtain ⟨negative, digits, exponent⟩ := d
  -- the size first, whichever way the exponent points
  have hsize : ∃ x : Float, toFloat ⟨negative, digits, exponent⟩ = (if negative then -x else x) ∧
      IsFloatOf .binary64 (nearest .binary64 (digits * 10 ^ exponent)) (unpack x) ∧
      signOf (unpack x) = .positive := by
    simp only [size] at h
    cases exponent with
    | ofNat e =>
      have hpower : Int.ofNat e = powerOf false e := rfl
      rw [hpower] at h ⊢
      exact ⟨_, rfl, isFloatOf_ofScientific h⟩
    | negSucc e =>
      have hpower : Int.negSucc e = powerOf true (e + 1) := rfl
      rw [hpower] at h ⊢
      exact ⟨_, rfl, isFloatOf_ofScientific h⟩
  obtain ⟨x, hx, hfloat, hsign⟩ := hsize
  rw [hx]
  cases negative with
  | false =>
    have hvalue : value ⟨false, digits, exponent⟩ = digits * 10 ^ exponent := by
      simp [value, sign, size, Sign.apply]
    rw [hvalue]
    exact ⟨hfloat, hsign⟩
  | true =>
    have hvalue : value ⟨true, digits, exponent⟩ = -(digits * 10 ^ exponent) := by
      simp [value, sign, size, Sign.apply]
    rw [hvalue, nearest_neg, if_pos rfl, unpack_neg]
    refine ⟨hfloat.neg, ?_⟩
    rw [signOf_neg hfloat.isFinite, hsign]
    rfl

/-- How a decimal number is read depends only on its sign and its size. -/
theorem toFloat_congr {d d' : Decimal} (h : nearest .binary64 d.size < 2 ^ 1024)
    (hnegative : d.negative = d'.negative) (hsize : d.size = d'.size) : d.toFloat = d'.toFloat := by
  have hsign : d.sign = d'.sign := by rw [sign, sign, hnegative]
  have hvalue : d.value = d'.value := by rw [value, value, hsign, hsize]
  obtain ⟨hfloat, hs⟩ := isFloatOf_toFloat h
  obtain ⟨hfloat', hs'⟩ := isFloatOf_toFloat (hsize ▸ h)
  rw [hvalue] at hfloat
  exact unpack_injective (hfloat.eq_of_signOf hfloat' (hs.trans (hsign.trans hs'.symm)))

end Mosaic.Decimal
