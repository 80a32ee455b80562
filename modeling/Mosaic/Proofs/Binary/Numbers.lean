import Mosaic.Binary.Rounding
import Mosaic.Proofs.Binary.Packed
import Mosaic.Proofs.Binary.Products
import Mosaic.Proofs.Exact

/-!
# Doubles and singles as numbers

What the operations on machine numbers do to the values. Comparisons are those of the places in the
order of numbers. A whole number of at most 53 bits becomes a double without rounding, widening
keeps the value of a single, narrowing takes the nearest one, and rounding a double to a whole
number is the same as rounding its fraction.
-/

namespace Mosaic.Binary

open Float.Model (Format UnpackedFloat)
open Float.Model.UnpackedFloat (Sign)

/-! ## Bits -/

theorem isStorable_double (x : Float) : IsStorable .binary64 (unpack x) :=
  isStorable_unpack (by decide) _

theorem isStorable_single (y : Float32) : IsStorable .binary32 (unpackSingle y) :=
  isStorable_unpack (by decide) _

/-- A double below the first power of two out of range can be stored. -/
theorem IsFloatOf.isStorable {q : Rat} {u : UnpackedFloat} (h : IsFloatOf .binary64 q u)
    (hq : |q| < 2 ^ 1024) : IsStorable .binary64 u := by
  refine isStorable_of_lt (by decide) h.isCanonical ?_
  rw [h.value]
  exact hq

/-- A double that is not too large can be stored. -/
theorem IsFloatOf.isStorable_double {q : Rat} {u : UnpackedFloat} (h : IsFloatOf .binary64 q u)
    (hq : |q| < 2 ^ 128) : IsStorable .binary64 u :=
  h.isStorable (hq.trans (pow_lt_pow_right₀ one_lt_two (by decide)))

/-- A single that is not too large can be stored. -/
theorem IsFloatOf.isStorable_single {q : Rat} {u : UnpackedFloat} (h : IsFloatOf .binary32 q u)
    (hq : |q| < 2 ^ 128) : IsStorable .binary32 u := by
  refine isStorable_of_lt (by decide) h.isCanonical ?_
  rw [h.value]
  exact hq

theorem unpack_ofModel {u : UnpackedFloat} (h : IsStorable .binary64 u) :
    unpack (.ofModel (.pack u)) = u :=
  unpack_pack h

theorem unpack_packed {u : UnpackedFloat} (h : IsStorable .binary64 u) : unpack (pack u) = u := by
  have hbits : pack u = .ofModel (.pack (UnpackedFloat.unpack .binary64
      (UnpackedFloat.pack .binary64 u))) := rfl
  rw [hbits, unpack_pack h, unpack_ofModel h]

theorem unpackSingle_packed {u : UnpackedFloat} (h : IsStorable .binary32 u) :
    unpackSingle (packSingle u) = u := by
  have hbits : packSingle u = .ofModel (.pack (UnpackedFloat.unpack .binary32
      (UnpackedFloat.pack .binary32 u))) := rfl
  have hmodel : unpackSingle (.ofModel (.pack u)) = u := unpack_pack h
  rw [hbits, unpack_pack h, hmodel]

/-- A single is given by its sign, mantissa and exponent. -/
theorem unpackSingle_injective : Function.Injective unpackSingle := by
  intro x y h
  have hbits : ∀ z : Float32, UnpackedFloat.pack .binary32 (unpackSingle z) = z.toBits.toBitVec :=
    fun z => pack_unpack (by decide) z.toModel.valid
  have := (hbits x).symm.trans ((congrArg (UnpackedFloat.pack .binary32) h).trans (hbits y))
  obtain ⟨⟨x, hx⟩⟩ := x
  obtain ⟨⟨y, hy⟩⟩ := y
  have hxy : x = y := UInt32.eq_of_toBitVec_eq this
  subst hxy
  rfl

/-! ## Order -/

theorem lt_iff {x y : Float} (hx : x.isNaN = false) (hy : y.isNaN = false) :
    x < y ↔ rank (unpack x) < rank (unpack y) := by
  have hlt : x < y ↔ (unpack x).compare (unpack y) = some .lt :=
    decide_eq_true_iff.trans beq_iff_eq
  rw [hlt, compare_eq (isStorable_double x).isCanonical (isStorable_double y).isCanonical hx hy,
    Option.some_inj, compare_lt_iff_lt]

theorem le_iff {x y : Float} (hx : x.isNaN = false) (hy : y.isNaN = false) :
    x ≤ y ↔ rank (unpack x) ≤ rank (unpack y) := by
  have hle : x ≤ y ↔ ((unpack x).compare (unpack y)).any Ordering.isLE = true := decide_eq_true_iff
  rw [hle, compare_eq (isStorable_double x).isCanonical (isStorable_double y).isCanonical hx hy,
    Option.any_some, ← compare_le_iff_le, Ordering.isLE_iff_ne_gt]

theorem double_beq_iff {x y : Float} (hx : x.isNaN = false) (hy : y.isNaN = false) :
    (x == y) = true ↔ rank (unpack x) = rank (unpack y) := by
  have hbeq : (x == y) = true ↔ (unpack x).compare (unpack y) = some .eq := by
    show ((unpack x).compare (unpack y) == some .eq) = true ↔ _
    exact beq_iff_eq
  rw [hbeq, compare_eq (isStorable_double x).isCanonical (isStorable_double y).isCanonical hx hy,
    Option.some_inj, compare_eq_iff_eq]

theorem eq_notANumber {u : UnpackedFloat} (h : u.isNaN = true) : u = .notANumber := by
  cases u <;> first | rfl | exact absurd h Bool.false_ne_true

theorem compare_eq_none {u v : UnpackedFloat} (h : u.isNaN = true ∨ v.isNaN = true) :
    u.compare v = none := by
  rcases h with h | h
  · rw [eq_notANumber h]
    cases v <;> rfl
  · rw [eq_notANumber h]
    obtain ⟨_ | _⟩ | _ | _ | ⟨_ | _⟩ := u <;> rfl

/-- What is not a number is neither below nor above anything. -/
theorem not_lt_of_isNaN {x y : Float} (h : x.isNaN = true ∨ y.isNaN = true) : ¬x < y := by
  intro hlt
  have hcompare : (unpack x).compare (unpack y) = some .lt := beq_iff_eq.mp (of_decide_eq_true hlt)
  have hnone : (unpack x).compare (unpack y) = none := compare_eq_none h
  rw [hnone] at hcompare
  exact absurd hcompare (by decide)

/-- What lies above a fraction is a larger one or infinite. -/
theorem lt_rank_iff {spec : Format} {u : UnpackedFloat} (hu : IsCanonical spec u)
    (hnumber : u.isNaN = false) {b : Rat} :
    ((b : WithTop Rat) : WithBot (WithTop Rat)) < rank u ↔
      (∃ a, IsFloatOf spec a u ∧ b < a) ∨ u = .infinity .positive := by
  match u with
  | .infinity .positive =>
    exact iff_of_true (WithBot.coe_lt_coe.mpr (WithTop.coe_lt_top b)) (.inr rfl)
  | .infinity .negative =>
    refine iff_of_false not_lt_bot ?_
    rintro (⟨a, ha, -⟩ | h)
    · cases ha.isFinite
    · cases h
  | .zero _ | .finite .. =>
    constructor
    · intro h
      exact .inl ⟨_, ⟨rfl, hu, rfl⟩, WithTop.coe_lt_coe.mp (WithBot.coe_lt_coe.mp h)⟩
    · rintro (⟨a, ha, h⟩ | h)
      · rw [ha.rank_eq]
        exact WithBot.coe_lt_coe.mpr (WithTop.coe_lt_coe.mpr h)
      · cases h

/-- What lies below a fraction is a smaller one or infinite. -/
theorem rank_lt_iff {spec : Format} {u : UnpackedFloat} (hu : IsCanonical spec u)
    (hnumber : u.isNaN = false) {b : Rat} :
    rank u < ((b : WithTop Rat) : WithBot (WithTop Rat)) ↔
      (∃ a, IsFloatOf spec a u ∧ a < b) ∨ u = .infinity .negative := by
  match u with
  | .infinity .negative => exact iff_of_true (WithBot.bot_lt_coe _) (.inr rfl)
  | .infinity .positive =>
    refine iff_of_false (WithBot.coe_lt_coe.not.mpr not_top_lt) ?_
    rintro (⟨a, ha, -⟩ | h)
    · cases ha.isFinite
    · cases h
  | .zero _ | .finite .. =>
    constructor
    · intro h
      exact .inl ⟨_, ⟨rfl, hu, rfl⟩, WithTop.coe_lt_coe.mp (WithBot.coe_lt_coe.mp h)⟩
    · rintro (⟨a, ha, h⟩ | h)
      · rw [ha.rank_eq]
        exact WithBot.coe_lt_coe.mpr (WithTop.coe_lt_coe.mpr h)
      · cases h

section Finite

variable {x y : Float} {b : Rat}

/-- What is above a finite double is a larger number or infinite. -/
theorem IsFloatOf.lt_iff (hy : IsFloatOf .binary64 b (unpack y)) :
    y < x ↔ (∃ a, IsFloatOf .binary64 a (unpack x) ∧ b < a) ∨ unpack x = .infinity .positive := by
  cases hx : x.isNaN with
  | true =>
    have hu := eq_notANumber (u := unpack x) hx
    rw [hu]
    refine iff_of_false (not_lt_of_isNaN (.inr hx)) ?_
    rintro (⟨a, ha, -⟩ | h)
    · cases ha.isFinite
    · cases h
  | false =>
    rw [Binary.lt_iff hy.isNaN_eq hx, hy.rank_eq]
    exact lt_rank_iff (Binary.isStorable_double x).isCanonical hx

/-- Finite doubles compare as their values do. -/
theorem IsFloatOf.lt_iff_lt {a : Rat} (hx : IsFloatOf .binary64 a (unpack x))
    (hy : IsFloatOf .binary64 b (unpack y)) : x < y ↔ a < b := by
  rw [Binary.lt_iff hx.isNaN_eq hy.isNaN_eq, hx.rank_eq, hy.rank_eq, WithBot.coe_lt_coe,
    WithTop.coe_lt_coe]

theorem IsFloatOf.le_iff_le {a : Rat} (hx : IsFloatOf .binary64 a (unpack x))
    (hy : IsFloatOf .binary64 b (unpack y)) : x ≤ y ↔ a ≤ b := by
  rw [Binary.le_iff hx.isNaN_eq hy.isNaN_eq, hx.rank_eq, hy.rank_eq, WithBot.coe_le_coe,
    WithTop.coe_le_coe]

theorem IsFloatOf.beq_iff_eq {a : Rat} (hx : IsFloatOf .binary64 a (unpack x))
    (hy : IsFloatOf .binary64 b (unpack y)) : (x == y) = true ↔ a = b := by
  rw [double_beq_iff hx.isNaN_eq hy.isNaN_eq, hx.rank_eq, hy.rank_eq, WithBot.coe_inj,
    WithTop.coe_inj]

/-- What is below a finite double is a smaller number or infinite. -/
theorem IsFloatOf.gt_iff (hy : IsFloatOf .binary64 b (unpack y)) :
    x < y ↔ (∃ a, IsFloatOf .binary64 a (unpack x) ∧ a < b) ∨ unpack x = .infinity .negative := by
  cases hx : x.isNaN with
  | true =>
    have hu := eq_notANumber (u := unpack x) hx
    rw [hu]
    refine iff_of_false (not_lt_of_isNaN (.inl hx)) ?_
    rintro (⟨a, ha, -⟩ | h)
    · cases ha.isFinite
    · cases h
  | false =>
    rw [Binary.lt_iff hx hy.isNaN_eq, hy.rank_eq]
    exact rank_lt_iff (Binary.isStorable_double x).isCanonical hx

end Finite

theorem single_lt_iff {x y : Float32} (hx : x.isNaN = false) (hy : y.isNaN = false) :
    x < y ↔ rank (unpackSingle x) < rank (unpackSingle y) := by
  have hlt : x < y ↔ (unpackSingle x).compare (unpackSingle y) = some .lt :=
    decide_eq_true_iff.trans beq_iff_eq
  rw [hlt, compare_eq (isStorable_single x).isCanonical (isStorable_single y).isCanonical hx hy,
    Option.some_inj, compare_lt_iff_lt]

theorem single_le_iff {x y : Float32} (hx : x.isNaN = false) (hy : y.isNaN = false) :
    x ≤ y ↔ rank (unpackSingle x) ≤ rank (unpackSingle y) := by
  have hle : x ≤ y ↔ ((unpackSingle x).compare (unpackSingle y)).any Ordering.isLE = true :=
    decide_eq_true_iff
  rw [hle, compare_eq (isStorable_single x).isCanonical (isStorable_single y).isCanonical hx hy,
    Option.any_some, ← compare_le_iff_le, Ordering.isLE_iff_ne_gt]

theorem single_beq_iff {x y : Float32} (hx : x.isNaN = false) (hy : y.isNaN = false) :
    (x == y) = true ↔ rank (unpackSingle x) = rank (unpackSingle y) := by
  have hbeq : (x == y) = true ↔ (unpackSingle x).compare (unpackSingle y) = some .eq := by
    show ((unpackSingle x).compare (unpackSingle y) == some .eq) = true ↔ _
    exact beq_iff_eq
  rw [hbeq, compare_eq (isStorable_single x).isCanonical (isStorable_single y).isCanonical hx hy,
    Option.some_inj, compare_eq_iff_eq]

/-! ## Whole numbers -/

theorem abs_natCast_lt {n : Nat} (hn : n < 2 ^ 53) : |(n : Rat)| < 2 ^ 128 := by
  rw [Nat.abs_cast]
  exact lt_trans (by exact_mod_cast hn) (pow_lt_pow_right₀ one_lt_two (by decide : 53 < 128))

/-- A machine word of at most 53 bits becomes a double without rounding. -/
theorem isFloatOf_word {n : Nat} (hn : n < 2 ^ 53) :
    IsFloatOf .binary64 n (unpack n.toUInt64.toFloat) ∧
      signOf (unpack n.toUInt64.toFloat) = .positive := by
  have hcast : ((n : Nat) : Rat) = ((n : Int) : Rat) := (Int.cast_natCast n).symm
  have hmodel : IsFloatOf .binary64 n (UnpackedFloat.ofNat .binary64 n) := by
    have h := isFloatOf_normalize .binary64 n 0 .positive
    rw [zpow_zero, mul_one, nearest_intCast, ← hcast] at h
    · exact h
    · decide
    · rw [abs_of_nonneg (by positivity)]
      exact_mod_cast hn.le
  have hword : n.toUInt64.toFloat = .ofModel (.pack (UnpackedFloat.ofNat .binary64 n)) := by
    have hmod : n.toUInt64.toNat = n := Nat.mod_eq_of_lt (by omega)
    show Float.ofModel (.pack (UnpackedFloat.ofNat .binary64 n.toUInt64.toNat)) = _
    rw [hmod]
  rw [hword, unpack_ofModel (hmodel.isStorable_double (abs_natCast_lt hn))]
  exact ⟨hmodel, signOf_normalize .binary64 (Int.natCast_nonneg n) 0⟩

theorem isFloatOf_ofNat {n : Nat} (hn : n < 2 ^ 53) :
    IsFloatOf .binary64 n (unpack (Float.ofNat n)) := by
  have hone : unpack (Float.ofBits 0x3FF0000000000000) =
      .finite .positive (2 ^ 52) (-52) (by decide) := rfl
  -- a literal of so few digits is a machine word times the zeroth power of ten
  have hfast : Float.ofNat n = n.toUInt64.toFloat * Float.ofBits 0x3FF0000000000000 := by
    show Float.ofScientific n false 0 = _
    rw [Float.ofScientific, dif_pos ⟨hn, by decide⟩]
    rfl
  have hmul : n.toUInt64.toFloat * Float.ofBits 0x3FF0000000000000 =
      .ofModel (.pack (UnpackedFloat.mul .binary64 (unpack n.toUInt64.toFloat)
        (unpack (Float.ofBits 0x3FF0000000000000)))) := rfl
  have hunit : IsFloatOf .binary64 1 (.finite .positive (2 ^ 52) (-52) (by decide)) :=
    ⟨rfl, ⟨by decide, by decide, fun _ => le_rfl⟩, by
      rw [valueOf_finite]
      norm_num [Sign.apply]⟩
  have hword := (isFloatOf_word hn).1
  have hproduct := hword.mul (by decide) hunit
  rw [mul_one, hword.nearest_eq] at hproduct
  rw [hfast, hmul, hone, unpack_ofModel (hproduct.isStorable_double (abs_natCast_lt hn))]
  exact hproduct

/-- A whole number of at most 53 bits becomes a double without rounding. -/
theorem isFloatOf_ofInt {n : Int} (hn : |n| < 2 ^ 53) :
    IsFloatOf .binary64 n (unpack (Float.ofInt n)) := by
  cases n with
  | ofNat k =>
    have hk : k < 2 ^ 53 := by
      rw [Int.ofNat_eq_natCast, Nat.abs_cast] at hn
      exact_mod_cast hn
    rw [Int.ofNat_eq_natCast, Int.cast_natCast]
    exact isFloatOf_ofNat hk
  | negSucc k =>
    have hk : k + 1 < 2 ^ 53 := by
      rw [Int.negSucc_eq, abs_neg, abs_of_nonneg (by positivity)] at hn
      exact_mod_cast hn
    have h := (isFloatOf_ofNat hk).neg
    have hbound : |(-((k + 1 : Nat) : Rat))| < 2 ^ 128 := by
      rw [abs_neg]
      exact abs_natCast_lt hk
    have hneg : Float.ofInt (.negSucc k) =
        .ofModel (.pack (unpack (Float.ofNat (k + 1))).neg) := rfl
    have hvalue : ((Int.negSucc k : Int) : Rat) = -((k + 1 : Nat) : Rat) := by
      rw [Int.negSucc_eq]
      push_cast
      ring
    rw [hneg, unpack_ofModel (h.isStorable_double hbound), hvalue]
    exact h

/-! ## Widening and narrowing -/

theorem isFloatOf_widen {y : Float32} {q : Rat} (h : IsFloatOf .binary32 q (unpackSingle y)) :
    IsFloatOf .binary64 q (unpack (widen y)) := by
  have hstorable := isStorable_single y
  obtain ⟨hfinite, hcanonical, rfl⟩ := h
  unfold widen
  match unpackSingle y, hfinite, hcanonical, hstorable with
  | .zero s, _, _, _ =>
    dsimp only
    rw [unpack_packed (u := .zero s) trivial]
    exact ⟨rfl, trivial, rfl⟩
  | .finite s m e hm, _, ⟨hlt, hmin, _⟩, hstorable =>
    have h := isFloatOf_round .binary64 s hm e
    rw [nearest_of_scaled] at h
    · dsimp only
      rw [unpack_packed (h.isStorable_double hstorable.abs_valueOf_lt)]
      exact h
    · rw [abs_apply]
      have hbits : (2 : Nat) ^ Format.binary32.mantissaBits ≤ 2 ^ Format.binary64.mantissaBits :=
        Nat.pow_le_pow_right two_pos (by decide)
      exact_mod_cast (hlt.trans_le hbits).le
    · exact le_trans (by decide) hmin

theorem valueOf_eq_zero {u : UnpackedFloat} (h : u.isFinite = false) : valueOf u = 0 := by
  match u with
  | .infinity _ | .notANumber => rfl

/-- Zeros, infinities and what is not a number are widened as they are. -/
theorem unpack_widen_special {y : Float32} (h : valueOf (unpackSingle y) = 0) :
    unpack (widen y) = unpackSingle y := by
  unfold widen
  match unpackSingle y, h with
  | .finite s m e hm, h => exact absurd h (valueOf_finite_ne_zero s m e hm)
  | .infinity s, _ | .notANumber, _ | .zero s, _ => exact unpack_packed trivial

/-- Widening keeps the place in the order. -/
theorem rank_widen (y : Float32) : rank (unpack (widen y)) = rank (unpackSingle y) := by
  by_cases h : (unpackSingle y).isFinite = true
  · have hy : IsFloatOf .binary32 _ (unpackSingle y) := ⟨h, (isStorable_single y).isCanonical, rfl⟩
    rw [hy.rank_eq, (isFloatOf_widen hy).rank_eq]
  · rw [unpack_widen_special (valueOf_eq_zero (Bool.eq_false_iff.mpr h))]

theorem isNaN_widen (y : Float32) : (widen y).isNaN = y.isNaN := by
  show (unpack (widen y)).isNaN = (unpackSingle y).isNaN
  by_cases h : (unpackSingle y).isFinite = true
  · have hy : IsFloatOf .binary32 _ (unpackSingle y) := ⟨h, (isStorable_single y).isCanonical, rfl⟩
    rw [hy.isNaN_eq, (isFloatOf_widen hy).isNaN_eq]
  · rw [unpack_widen_special (valueOf_eq_zero (Bool.eq_false_iff.mpr h))]

/-- Zeros, infinities and what is not a number are narrowed as they are. -/
theorem unpackSingle_narrow_special {x : Float} (h : valueOf (unpack x) = 0) :
    unpackSingle (narrow x) = unpack x := by
  unfold narrow
  match unpack x, h with
  | .finite s m e hm, h => exact absurd h (valueOf_finite_ne_zero s m e hm)
  | .infinity s, _ | .notANumber, _ | .zero s, _ => exact unpackSingle_packed trivial

/-- Narrowing takes the nearest single. -/
theorem isFloatOf_narrow {x : Float} {q : Rat} (h : IsFloatOf .binary64 q (unpack x))
    (hq : |q| ≤ 2 ^ (64 : Int)) :
    IsFloatOf .binary32 (nearest .binary32 q) (unpackSingle (narrow x)) := by
  obtain ⟨hfinite, hcanonical, rfl⟩ := h
  unfold narrow
  match unpack x, hfinite, hcanonical, hq with
  | .zero s, _, _, _ =>
    dsimp only
    rw [unpackSingle_packed (u := .zero s) trivial]
    exact ⟨rfl, trivial, (nearest_zero _).symm⟩
  | .finite s m e hm, _, hcanonical, hq =>
    have h := isFloatOf_round .binary32 s hm e
    have hbound : |nearest .binary32 (valueOf (.finite s m e hm))| ≤ 2 ^ (64 : Int) :=
      abs_nearest_le _ (by decide) hq
    dsimp only
    rw [unpackSingle_packed (h.isStorable_single (hbound.trans_lt (by norm_num)))]
    exact h

/-- Narrowing keeps the sign, also of what becomes zero. -/
theorem signOf_narrow {x : Float} {q : Rat} (h : IsFloatOf .binary64 q (unpack x))
    (hq : |q| ≤ 2 ^ (64 : Int)) : signOf (unpackSingle (narrow x)) = signOf (unpack x) := by
  obtain ⟨hfinite, -, rfl⟩ := h
  unfold narrow
  match unpack x, hfinite, hq with
  | .zero s, _, _ =>
    dsimp only
    rw [unpackSingle_packed (u := .zero s) trivial]
  | .finite s m e hm, _, hq =>
    have h := isFloatOf_round .binary32 s hm e
    have hbound : |nearest .binary32 (valueOf (.finite s m e hm))| ≤ 2 ^ (64 : Int) :=
      abs_nearest_le _ (by decide) hq
    dsimp only
    rw [unpackSingle_packed (h.isStorable_single (hbound.trans_lt (by norm_num)))]
    exact signOf_roundWithAccuracy ..

/-! ## Rounding to a whole number -/

/-- A mantissa with places behind the point is rounded as its fraction is. -/
theorem wholeOf_nearest (s : Sign) (m : Nat) {e : Int} (he : e < 0) :
    wholeOf .nearest s m e = Exact.round ((s.apply m : Int) * 2 ^ e : Rat) := by
  obtain ⟨k, hk⟩ := Int.eq_ofNat_of_zero_le (Int.neg_nonneg.mpr he.le)
  have hdiv : (m : Rat) * 2 ^ e = m / (2 ^ k : Nat) := by
    rw [← neg_neg e, hk, zpow_neg, zpow_natCast, div_eq_mul_inv]
    push_cast
    rfl
  have hround : Exact.round ((m : Rat) * 2 ^ e) = ((2 * m + 2 ^ k) / (2 * 2 ^ k) : Nat) := by
    have hhalf : (m : Rat) / (2 ^ k : Nat) + 1 / 2 = (2 * m + 2 ^ k : Nat) / (2 * 2 ^ k : Nat) := by
      push_cast
      field_simp
    rw [Exact.round_of_nonneg (mul_nonneg m.cast_nonneg (two_zpow_pos e).le), hdiv, hhalf,
      Rat.floor_natCast_div_natCast, Int.natCast_ediv]
  have hunfold : wholeOf .nearest s m e = s.apply ((2 * m + 2 ^ k) / (2 * 2 ^ k) : Nat) := by
    have hnat : (-e).toNat = k := by omega
    rw [wholeOf, if_neg (not_le.mpr he), hnat]
  rw [hunfold, ← hround]
  cases s with
  | positive => rw [Sign.apply, Sign.apply, Int.cast_natCast]
  | negative =>
    rw [Sign.apply, Sign.apply, Int.cast_neg, Int.cast_natCast, neg_mul, Exact.round_neg]

/-- A float without places behind the point is a whole number. -/
theorem exists_whole {m : Nat} {e : Int} (he : 0 ≤ e) (s : Sign) :
    ∃ n : Int, ((s.apply m : Int) * 2 ^ e : Rat) = n := by
  obtain ⟨k, rfl⟩ := Int.eq_ofNat_of_zero_le he
  exact ⟨s.apply m * 2 ^ k, by push_cast; rw [zpow_natCast]⟩

theorem abs_wholeOf_nearest_lt (s : Sign) {m : Nat} (hm : m < 2 ^ 53) {e : Int} (he : e < 0) :
    |wholeOf .nearest s m e| < 2 ^ 53 := by
  have hbound : |((s.apply m : Int) * 2 ^ e : Rat)| ≤ ((2 ^ 52 : Int) : Rat) := by
    rw [abs_mul, abs_of_pos (two_zpow_pos e), ← Int.cast_abs, abs_apply, Int.cast_natCast]
    have hpow : (2 : Rat) ^ e ≤ 2 ^ (-1 : Int) := zpow_le_zpow_right₀ one_le_two (by omega)
    calc (m : Rat) * 2 ^ e ≤ 2 ^ 53 * 2 ^ (-1 : Int) :=
          mul_le_mul (by exact_mod_cast hm.le) hpow (two_zpow_pos e).le (by positivity)
      _ = ((2 ^ 52 : Int) : Rat) := by norm_num
  rw [wholeOf_nearest s m he]
  exact (Exact.abs_round_le hbound).trans_lt (by norm_num)

/-- Rounding a double to a whole number is rounding its fraction. -/
theorem isFloatOf_toWhole {x : Float} {q : Rat} (h : IsFloatOf .binary64 q (unpack x)) :
    IsFloatOf .binary64 (Exact.round q : Int) (unpack (Binary.round x)) := by
  obtain ⟨hfinite, hcanonical, rfl⟩ := h
  unfold Binary.round toWhole
  match hu : unpack x, hfinite, hcanonical with
  | .zero s, _, _ =>
    dsimp only
    rw [hu]
    exact ⟨rfl, trivial, (congrArg Int.cast Exact.round_zero).symm⟩
  | .finite s m e hm, _, hcanonical =>
    dsimp only
    by_cases he : 0 ≤ e
    · obtain ⟨n, hn⟩ := exists_whole (m := m) he s
      rw [if_pos he, hu, valueOf_finite, hn, Exact.round_intCast, ← hn]
      exact ⟨rfl, hcanonical, rfl⟩
    · have hn := wholeOf_nearest s m (not_le.mp he)
      have hlt := abs_wholeOf_nearest_lt s hcanonical.1 (not_le.mp he)
      rw [if_neg he, valueOf_finite, ← hn]
      split
      -- what rounds to zero keeps its sign, and the value of both zeros is zero
      · next hzero =>
        rw [hzero]
        cases s with
        | positive => exact ⟨rfl, trivial, rfl⟩
        | negative => exact ⟨rfl, trivial, rfl⟩
      · exact isFloatOf_ofInt hlt

theorem abs_wholeOf_down_le (s : Sign) {m : Nat} (hm : 0 < m) {e : Int} (he : e < 0) :
    |wholeOf .down s m e| ≤ m := by
  have hunit : 2 ≤ 2 ^ (-e).toNat := by
    obtain ⟨k, hk⟩ := Nat.exists_eq_add_one.mpr (show 0 < (-e).toNat by omega)
    have hpos := Nat.one_le_two_pow (n := k)
    rw [hk, Nat.pow_succ]
    omega
  have hless : m / 2 ^ (-e).toNat < m := Nat.div_lt_self hm hunit
  unfold wholeOf
  rw [if_neg (not_le.mpr he)]
  cases s with
  | positive =>
    show |((m / 2 ^ (-e).toNat : Nat) : Int)| ≤ m
    rw [abs_of_nonneg (Int.natCast_nonneg _)]
    exact_mod_cast hless.le
  | negative =>
    show |if m % 2 ^ (-e).toNat == 0 then -((m / 2 ^ (-e).toNat : Nat) : Int)
      else -((m / 2 ^ (-e).toNat + 1 : Nat) : Int)| ≤ m
    split_ifs
    · rw [abs_neg, abs_of_nonneg (Int.natCast_nonneg _)]
      exact_mod_cast hless.le
    · rw [abs_neg, abs_of_nonneg (Int.natCast_nonneg _)]
      exact_mod_cast hless

/-- The largest whole number not above a double is a whole number. -/
theorem exists_isFloatOf_floor {x : Float} {q : Rat} (h : IsFloatOf .binary64 q (unpack x)) :
    ∃ n : Int, IsFloatOf .binary64 n (unpack (Binary.floor x)) := by
  obtain ⟨hfinite, hcanonical, -⟩ := h
  unfold Binary.floor toWhole
  match hu : unpack x, hfinite, hcanonical with
  | .zero s, _, _ =>
    dsimp only
    rw [hu]
    exact ⟨0, rfl, trivial, rfl⟩
  | .finite s m e hm, _, hcanonical =>
    dsimp only
    split_ifs with he
    · obtain ⟨n, hn⟩ := exists_whole (m := m) he s
      rw [hu]
      exact ⟨n, rfl, hcanonical, hn⟩
    · have hlt := (abs_wholeOf_down_le s hm (not_le.mp he)).trans_lt
        (show ((m : Nat) : Int) < 2 ^ 53 by exact_mod_cast hcanonical.1)
      split
      · cases s with
        | positive => exact ⟨0, rfl, trivial, rfl⟩
        | negative => exact ⟨0, rfl, trivial, rfl⟩
      · exact ⟨_, isFloatOf_ofInt hlt⟩

/-- Zeros, infinities and what is not a number are rounded to themselves. -/
theorem round_special {x : Float} (h : valueOf (unpack x) = 0) : Binary.round x = x := by
  unfold Binary.round toWhole
  match unpack x, h with
  | .finite s m e hm, h => exact absurd h (valueOf_finite_ne_zero s m e hm)
  | .infinity s, _ | .notANumber, _ | .zero s, _ => rfl

end Mosaic.Binary
