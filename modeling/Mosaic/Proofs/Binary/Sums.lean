import Mosaic.Proofs.Binary.Numbers

/-!
# Sums of doubles

The sum of two doubles is the double nearest to the sum of their values (`isFloatOf_add`), and
rounding moves a number by no more than half the distance of its neighbours (`abs_nearest_sub_le`).
So a small summand moves a large double only where the doubles are dense enough. The bits of doubles
of one sign, read as a whole number, ascend with the size of the double (`toBits_lt`).
-/

namespace Mosaic.Binary

open Float.Model (Format UnpackedFloat)
open Float.Model.UnpackedFloat (Sign)

/-! ## How far rounding moves a number -/

theorem abs_nearestEven_sub_le (x : Rat) : |nearestEven x - x| ≤ 1 / 2 := by
  have hfloor := Int.self_sub_floor x
  have hlow := Int.fract_nonneg x
  have hhigh := Int.fract_lt_one x
  rw [abs_le]
  unfold nearestEven
  split_ifs with hbelow habove
  · constructor <;> linarith
  · push_cast
    constructor <;> linarith
  · -- a tie: the even neighbour is the lower one or the upper one
    obtain h | h := Int.emod_two_eq_zero_or_one ⌊x⌋ <;> rw [h] <;> push_cast <;>
      constructor <;> linarith

theorem nearestEven_eq_of_abs_sub_lt {x : Rat} {n : Int} (h : |x - n| < 1 / 2) :
    nearestEven x = n := by
  have hround := abs_nearestEven_sub_le x
  have hclose : |((nearestEven x - n : Int) : Rat)| < 1 := by
    push_cast
    calc |(nearestEven x : Rat) - n| ≤ |nearestEven x - x| + |x - n| := abs_sub_le _ _ _
      _ < 1 := by linarith
  rw [← Int.cast_abs] at hclose
  have hzero := Int.abs_lt_one_iff.mp (by exact_mod_cast hclose : |nearestEven x - n| < 1)
  omega

/-- A number half-way between two whole numbers is rounded to the even one. -/
theorem nearestEven_eq_of_abs_sub_le {x : Rat} {n : Int} (heven : n % 2 = 0)
    (h : |x - n| ≤ 1 / 2) : nearestEven x = n := by
  rcases h.lt_or_eq with hlt | heq
  · exact nearestEven_eq_of_abs_sub_lt hlt
  · rcases (abs_eq (by norm_num)).mp heq with hx | hx
    · have hfloor : ⌊x⌋ = n := by
        rw [Int.floor_eq_iff]
        constructor <;> linarith
      have hfract : Int.fract x = 1 / 2 := by rw [← Int.self_sub_floor, hfloor, hx]
      rw [nearestEven, hfract, if_neg (lt_irrefl _), if_neg (lt_irrefl _), hfloor, heven, add_zero]
    · have hfloor : ⌊x⌋ = n - 1 := by
        rw [Int.floor_eq_iff]
        push_cast
        constructor <;> linarith
      have hfract : Int.fract x = 1 / 2 := by
        rw [← Int.self_sub_floor, hfloor]
        push_cast
        linarith
      rw [nearestEven, hfract, if_neg (lt_irrefl _), if_neg (lt_irrefl _), hfloor]
      omega

variable (spec : Format)

/-- Rounding moves a number by at most half of the last place. -/
theorem abs_nearest_sub_le (x : Rat) : |nearest spec x - x| ≤ 2 ^ exponentOf spec x / 2 := by
  have hpos := two_zpow_pos (exponentOf spec x)
  have hscaled : nearest spec x - x =
      (nearestEven (x / 2 ^ exponentOf spec x) - x / 2 ^ exponentOf spec x) *
        2 ^ exponentOf spec x := by
    rw [nearest, sub_mul, div_mul_cancel₀ _ hpos.ne']
  rw [hscaled, abs_mul, abs_of_pos hpos]
  have := mul_le_mul_of_nonneg_right (abs_nearestEven_sub_le (x / 2 ^ exponentOf spec x)) hpos.le
  linarith

/-- A number that lies closer to a multiple of its last place than half of it is rounded to that
multiple. -/
theorem nearest_eq_of_abs_sub_lt {x y : Rat} {k : Int} (hy : y = k * 2 ^ exponentOf spec x)
    (h : |x - y| < 2 ^ exponentOf spec x / 2) : nearest spec x = y := by
  have hpos := two_zpow_pos (exponentOf spec x)
  have hscaled : x / 2 ^ exponentOf spec x - k = (x - y) / 2 ^ exponentOf spec x := by
    rw [hy, sub_div, mul_div_cancel_right₀ _ hpos.ne']
  have hclose : |x / 2 ^ exponentOf spec x - k| < 1 / 2 := by
    rw [hscaled, abs_div, abs_of_pos hpos, div_lt_iff₀ hpos]
    linarith
  rw [nearest, nearestEven_eq_of_abs_sub_lt hclose, hy]

/-! ## Sums -/

theorem apply_neg (s : Sign) (m : Nat) : (-s).apply m = -s.apply m := by
  cases s
  · exact (neg_neg _).symm
  · rfl

/-- A mantissa that is written with a smaller exponent. -/
theorem decreaseExponent_scaled (m : Nat) {e target : Int} (h : target ≤ e) :
    ((UnpackedFloat.decreaseExponent m e target).1 : Rat) * 2 ^ target = m * 2 ^ e := by
  obtain ⟨n, rfl⟩ := Int.le.dest h
  have hshift : (target + n - target).toNat = n := by omega
  simp only [UnpackedFloat.decreaseExponent, Nat.shiftLeft_eq, hshift]
  push_cast
  rw [zpow_add₀ two_ne_zero, zpow_natCast]
  ring

/-- The sum of two finite floats is rounded once. -/
theorem IsFloatOf.add {spec : Format} {a b : Rat} {u v : UnpackedFloat} (hu : IsFloatOf spec a u)
    (hv : IsFloatOf spec b v) :
    IsFloatOf spec (nearest spec (a + b)) (UnpackedFloat.add spec u v) := by
  have ha := hu.nearest_eq
  have hb := hv.nearest_eq
  match u, v with
  | .zero s, .zero s' =>
    obtain ⟨-, -, rfl⟩ := hu
    obtain ⟨-, -, rfl⟩ := hv
    rw [valueOf_zero, valueOf_zero, add_zero, nearest_zero]
    cases s <;> cases s' <;> exact ⟨rfl, trivial, rfl⟩
  | .zero s, .finite s' m' e' hm' =>
    obtain ⟨-, -, rfl⟩ := hu
    rw [valueOf_zero, zero_add, hb]
    exact hv
  | .finite s m e hm, .zero s' =>
    obtain ⟨-, -, rfl⟩ := hv
    rw [valueOf_zero, add_zero, ha]
    exact hu
  | .finite s m e hm, .finite s' m' e' hm' =>
    obtain ⟨-, -, rfl⟩ := hu
    obtain ⟨-, -, rfl⟩ := hv
    -- both mantissas are written with the smaller exponent and added as whole numbers
    have hsum := isFloatOf_normalize spec
      (s.apply (UnpackedFloat.decreaseExponent m e (min e e')).1 +
        s'.apply (UnpackedFloat.decreaseExponent m' e' (min e e')).1) (min e e') .positive
    have hvalue : valueOf (.finite s m e hm) + valueOf (.finite s' m' e' hm') =
        ((s.apply (UnpackedFloat.decreaseExponent m e (min e e')).1 +
          s'.apply (UnpackedFloat.decreaseExponent m' e' (min e e')).1 : Int) : Rat) *
            2 ^ min e e' := by
      rw [Int.cast_add, add_mul, ← sign_mul, ← sign_mul,
        decreaseExponent_scaled m (min_le_left e e'),
        decreaseExponent_scaled m' (min_le_right e e'), sign_mul, sign_mul, valueOf_finite,
        valueOf_finite]
    rw [hvalue]
    exact hsum

/-- A difference is the sum with the opposite number. -/
theorem sub_eq_add (spec : Format) (u v : UnpackedFloat) :
    UnpackedFloat.sub spec u v = UnpackedFloat.add spec u v.neg := by
  match u, v with
  | .finite s m e hm, .finite s' m' e' hm' =>
    have hneg : UnpackedFloat.neg (.finite s' m' e' hm') = .finite (-s') m' e' hm' := rfl
    rw [hneg]
    unfold UnpackedFloat.sub UnpackedFloat.add
    dsimp only
    rw [apply_neg, Int.sub_eq_add_neg]
  | .notANumber, _ | .infinity _, .notANumber | .zero _, .notANumber | .finite .., .notANumber
  | .infinity _, .infinity _ | .infinity _, .zero _ | .infinity _, .finite ..
  | .zero _, .infinity _ | .finite .., .infinity _ | .zero _, .zero _ | .zero _, .finite ..
  | .finite .., .zero _ => rfl

section Double

variable {x y : Float} {a b : Rat}

theorem IsFloatOf.abs_lt (hx : IsFloatOf .binary64 a (unpack x)) : |a| < 2 ^ 1024 := by
  rw [← hx.value]
  exact (Binary.isStorable_double x).abs_valueOf_lt

/-- The sum of two doubles is the nearest double, unless it is out of range. -/
theorem isFloatOf_add (hx : IsFloatOf .binary64 a (unpack x))
    (hy : IsFloatOf .binary64 b (unpack y))
    (h : |nearest .binary64 (a + b)| < 2 ^ 1024) :
    IsFloatOf .binary64 (nearest .binary64 (a + b)) (unpack (x + y)) := by
  have hsum := hx.add hy
  have hunfold : x + y = .ofModel (.pack (UnpackedFloat.add .binary64 (unpack x) (unpack y))) := rfl
  rw [hunfold, unpack_ofModel (hsum.isStorable h)]
  exact hsum

theorem isFloatOf_sub (hx : IsFloatOf .binary64 a (unpack x))
    (hy : IsFloatOf .binary64 b (unpack y))
    (h : |nearest .binary64 (a - b)| < 2 ^ 1024) :
    IsFloatOf .binary64 (nearest .binary64 (a - b)) (unpack (x - y)) := by
  have hsum := hx.add hy.neg
  have hunfold : x - y = .ofModel (.pack (UnpackedFloat.sub .binary64 (unpack x) (unpack y))) := rfl
  rw [← sub_eq_add_neg] at hsum
  rw [hunfold, sub_eq_add, unpack_ofModel (hsum.isStorable h)]
  exact hsum

/-- Adding a finite double to an infinite one changes nothing. -/
theorem add_of_infinite {s : Sign} (hx : unpack x = .infinity s)
    (hy : IsFloatOf .binary64 b (unpack y)) : unpack (x + y) = unpack x := by
  have hunfold : x + y = .ofModel (.pack (UnpackedFloat.add .binary64 (unpack x) (unpack y))) := rfl
  have hsum : UnpackedFloat.add .binary64 (.infinity s) (unpack y) = .infinity s := by
    match unpack y, hy.isFinite with
    | .zero _, _ | .finite .., _ => rfl
  rw [hunfold, hx, hsum, unpack_ofModel (u := .infinity s) trivial]

theorem sub_of_infinite {s : Sign} (hx : unpack x = .infinity s)
    (hy : IsFloatOf .binary64 b (unpack y)) : unpack (x - y) = unpack x := by
  have hunfold : x - y = .ofModel (.pack (UnpackedFloat.sub .binary64 (unpack x) (unpack y))) := rfl
  have hdiff : UnpackedFloat.sub .binary64 (.infinity s) (unpack y) = .infinity s := by
    match unpack y, hy.isFinite with
    | .zero _, _ | .finite .., _ => rfl
  rw [hunfold, hx, hdiff, unpack_ofModel (u := .infinity s) trivial]

/-- A double is given by its sign, mantissa and exponent. -/
theorem unpack_injective : Function.Injective unpack := by
  intro x y h
  have hbits : ∀ z : Float, UnpackedFloat.pack .binary64 (unpack z) = z.toBits.toBitVec :=
    fun z => pack_unpack (by decide) z.toModel.valid
  have hpacked := congrArg (UnpackedFloat.pack .binary64) h
  rw [hbits, hbits] at hpacked
  obtain ⟨⟨x, hx⟩⟩ := x
  obtain ⟨⟨y, hy⟩⟩ := y
  have hxy : x = y := UInt64.eq_of_toBitVec_eq hpacked
  subst hxy
  rfl

end Double

/-! ## The order of the bits -/

/-- The bits of a float without its sign: the mantissa counts the floats of one exponent, and the
exponents follow each other. -/
theorem toNat_pack {spec : Format} {s : Sign} {m : Nat} {e : Int} {hm : 0 < m}
    (h : IsStorable spec (.finite s m e hm)) :
    (UnpackedFloat.pack spec (.finite s m e hm)).toNat =
      s.toBitVec.toNat * 2 ^ (spec.exponentBits + spec.mantissaBitsWithoutImplicit) +
        ((e - spec.minExponent).toNat * 2 ^ spec.mantissaBitsWithoutImplicit + m) := by
  have hcomponents : ∀ (x : BitVec spec.exponentBits) (f : BitVec spec.mantissaBitsWithoutImplicit),
      (UnpackedFloat.packComponents spec s x f).toNat =
        s.toBitVec.toNat * 2 ^ (spec.exponentBits + spec.mantissaBitsWithoutImplicit) +
          (x.toNat * 2 ^ spec.mantissaBitsWithoutImplicit + f.toNat) := by
    intro x f
    have hshift : ∀ {n k : Nat} (a : BitVec n) (b : BitVec k),
        (a ++ b).toNat = a.toNat * 2 ^ k + b.toNat := by
      intro n k a b
      rw [BitVec.toNat_append, ← Nat.shiftLeft_add_eq_or_of_lt b.isLt, Nat.shiftLeft_eq]
    rw [UnpackedFloat.packComponents, hshift, hshift, pow_add]
    ring
  have hbiased := minExponent_biased spec
  obtain ⟨hlt, rfl, hroom⟩ | ⟨hlow, hhigh, n, hpos, hn, rfl⟩ := h.subnormal_or_normal
  · have hf : (BitVec.ofNat spec.mantissaBitsWithoutImplicit m).toNat = m := Nat.mod_eq_of_lt hlt
    rw [pack_subnormal hm hlt hroom, hcomponents, hf, sub_self]
    simp
  · have hx : (BitVec.ofNat spec.exponentBits n).toNat = n := Nat.mod_eq_of_lt (by omega)
    have hf := implicit_add_ofNat hlow hhigh
    obtain ⟨k, rfl⟩ := Nat.exists_eq_succ_of_ne_zero hpos.ne'
    have hexp : (((k + 1 : Nat) : Int) - (spec.exponentBias + spec.mantissaBitsWithoutImplicit) -
        spec.minExponent).toNat = k := by omega
    rw [pack_normal hlow hhigh hn, hcomponents, hx, hexp, Nat.succ_mul, Nat.add_assoc, hf]

/-- Of two floats of one sign the larger one has the larger bits. -/
theorem toNat_pack_lt {spec : Format} {s : Sign} {m m' : Nat} {e e' : Int} {hm : 0 < m}
    {hm' : 0 < m'} (h : IsStorable spec (.finite s m e hm))
    (h' : IsStorable spec (.finite s m' e' hm'))
    (hlt : |valueOf (.finite s m e hm)| < |valueOf (.finite s m' e' hm')|) :
    (UnpackedFloat.pack spec (.finite s m e hm)).toNat <
      (UnpackedFloat.pack spec (.finite s m' e' hm')).toNat := by
  rw [abs_valueOf_finite, abs_valueOf_finite] at hlt
  rw [toNat_pack h, toNat_pack h']
  refine Nat.add_lt_add_left ?_ _
  obtain ⟨hhigh, hmin, -⟩ := h.isCanonical
  obtain ⟨-, -, hfull⟩ := h'.isCanonical
  rcases lt_trichotomy e e' with hexp | rfl | hexp
  · -- a mantissa has one bit more than its field, and this bit stands for the next exponent
    have hm' := hfull (hmin.trans_lt hexp)
    have hbits := two_pow_mantissaBits spec
    have hstep : (e - spec.minExponent).toNat + 1 ≤ (e' - spec.minExponent).toNat := by omega
    have hfield := Nat.mul_le_mul_right (2 ^ spec.mantissaBitsWithoutImplicit) hstep
    rw [Nat.succ_mul] at hfield
    omega
  · have hmantissa : m < m' := by
      exact_mod_cast lt_of_mul_lt_mul_right hlt (two_zpow_pos e).le
    exact Nat.add_lt_add_left hmantissa _
  · exact absurd hlt (magnitude_lt h'.isCanonical h.isCanonical hexp).not_gt

/-- The bits of doubles of one sign ascend with the size of the double. -/
theorem toBits_lt {x y : Float} {a b : Rat} (hx : IsFloatOf .binary64 a (unpack x))
    (hy : IsFloatOf .binary64 b (unpack y)) (hsign : 0 < a * b) (hlt : |a| < |b|) :
    x.toBits.toNat < y.toBits.toNat := by
  have hbits : ∀ z : Float,
      (UnpackedFloat.pack .binary64 (unpack z)).toNat = z.toBits.toNat :=
    fun z => congrArg BitVec.toNat (pack_unpack (by decide) z.toModel.valid)
  have hstorable := isStorable_double x
  have hstorable' := isStorable_double y
  rw [← hbits x, ← hbits y]
  obtain ⟨-, -, rfl⟩ := hx
  obtain ⟨-, -, rfl⟩ := hy
  revert hstorable hstorable' hsign hlt
  match unpack x, unpack y with
  | .finite s m e hm, .finite s' m' e' hm' =>
    intro hstorable hstorable' hsign hlt
    have hs : s = s' := by
      have hpos := valueOf_pos m e hm
      have hneg := valueOf_neg m e hm
      have hpos' := valueOf_pos m' e' hm'
      have hneg' := valueOf_neg m' e' hm'
      cases s <;> cases s' <;> first
        | rfl
        | exact absurd hsign (mul_neg_of_neg_of_pos hneg hpos').not_gt
        | exact absurd hsign (mul_neg_of_pos_of_neg hpos hneg').not_gt
    subst hs
    exact toNat_pack_lt hstorable hstorable' hlt
  | .zero _, v | .notANumber, v | .infinity _, v =>
    intro _ _ hsign
    exact absurd hsign (zero_mul (valueOf v)).not_gt
  | .finite s m e hm, .zero _ | .finite s m e hm, .notANumber | .finite s m e hm, .infinity _ =>
    intro _ _ hsign
    exact absurd hsign (mul_zero (valueOf (.finite s m e hm))).not_gt

end Mosaic.Binary
