import Mosaic.Product.DataType
import Mosaic.Proofs.Binary.Numbers

/-!
# Casting singles to integer types

An integer type rounds a single, moves the whole number into its range and narrows it again. The
last step may round once more: the ends of a wide range need not be singles. What a cast gives is
the single nearest to a whole number in the range (`isFloatOf_cast`), and a second cast leaves it
alone (`cast_cast`).
-/

namespace Mosaic

open Binary
open Float.Model (Format UnpackedFloat)

namespace DataType

/-- The whole number in a range that a number is moved to. -/
def landing (lo hi : Int) : WithBot (WithTop Rat) → Int
  | none => lo
  | some none => hi
  | some (some q) => max lo (min hi (Exact.round q))

theorem range_bounds {d : DataType} {lo hi : Int} (h : d.range? = some (lo, hi)) :
    lo ≤ 0 ∧ 0 ≤ hi ∧ |lo| ≤ 2 ^ 32 ∧ |hi| ≤ 2 ^ 32 := by
  cases d <;> simp only [range?, Option.some.injEq, Prod.mk.injEq, reduceCtorEq] at h <;>
    obtain ⟨rfl, rfl⟩ := h <;> decide

/-! ## Moving a double into a range -/

section Clamp

variable {lo hi : Int} {x : Float}

theorem clamp_unfold (lo hi : Int) (x : Float) :
    Coordinate.clamp (Coordinate.ofInt lo) (Coordinate.ofInt hi) x =
      if x < Float.ofInt lo then Float.ofInt lo
      else if Float.ofInt hi < x then Float.ofInt hi
      else x :=
  rfl

/-- Whether a double lies below a whole number can be seen from its place in the order. -/
theorem lt_ofInt_iff {n : Int} (hn : |n| ≤ 2 ^ 32) (hx : x.isNaN = false) :
    x < Float.ofInt n ↔ rank (unpack x) < (((n : Rat) : WithTop Rat) : WithBot (WithTop Rat)) := by
  have h := isFloatOf_ofInt (hn.trans_lt (by norm_num))
  rw [lt_iff hx h.isNaN_eq, h.rank_eq]

theorem ofInt_lt_iff {n : Int} (hn : |n| ≤ 2 ^ 32) (hx : x.isNaN = false) :
    Float.ofInt n < x ↔ (((n : Rat) : WithTop Rat) : WithBot (WithTop Rat)) < rank (unpack x) := by
  have h := isFloatOf_ofInt (hn.trans_lt (by norm_num))
  rw [lt_iff h.isNaN_eq hx, h.rank_eq]

theorem isFloatOf_clamp (hle : lo ≤ hi) (hlo : |lo| ≤ 2 ^ 32) (hhi : |hi| ≤ 2 ^ 32) {n : Int}
    (hx : IsFloatOf .binary64 n (unpack x)) :
    IsFloatOf .binary64 (max lo (min hi n) : Int)
      (unpack (Coordinate.clamp (Coordinate.ofInt lo) (Coordinate.ofInt hi) x)) := by
  rw [clamp_unfold]
  simp only [lt_ofInt_iff hlo hx.isNaN_eq, ofInt_lt_iff hhi hx.isNaN_eq, hx.rank_eq,
    WithBot.coe_lt_coe, WithTop.coe_lt_coe, Int.cast_lt]
  split_ifs with hlow hhigh
  · rw [min_eq_right (by omega), max_eq_left hlow.le]
    exact isFloatOf_ofInt (hlo.trans_lt (by norm_num))
  · rw [min_eq_left hhigh.le, max_eq_right hle]
    exact isFloatOf_ofInt (hhi.trans_lt (by norm_num))
  · rw [min_eq_right (not_lt.mp hhigh), max_eq_right (not_lt.mp hlow)]
    exact hx

theorem clamp_of_isNaN (hx : x.isNaN = true) :
    Coordinate.clamp (Coordinate.ofInt lo) (Coordinate.ofInt hi) x = x := by
  rw [clamp_unfold, if_neg (not_lt_of_isNaN (.inl hx)), if_neg (not_lt_of_isNaN (.inr hx))]

end Clamp

/-! ## The cast -/

section Cast

variable {d : DataType} {lo hi : Int} {z : Float32}

theorem cast_unfold (h : d.range? = some (lo, hi)) (z : Float32) :
    d.cast z = narrow (Coordinate.clamp (Coordinate.ofInt lo) (Coordinate.ofInt hi)
      (Binary.round (widen z))) := by
  unfold cast
  rw [h]
  rfl

theorem isFloatOf_landing (hle : lo ≤ hi) (hlo : |lo| ≤ 2 ^ 32) (hhi : |hi| ≤ 2 ^ 32) {x : Float}
    (hx : x.isNaN = false) :
    IsFloatOf .binary64 (landing lo hi (rank (unpack x)))
      (unpack (Coordinate.clamp (Coordinate.ofInt lo) (Coordinate.ofInt hi) (Binary.round x))) := by
  have hstorable := isStorable_double x
  match hu : unpack x with
  | .notANumber => exact absurd ((congrArg UnpackedFloat.isNaN hu).symm.trans hx) (by decide)
  -- infinities are left alone by rounding and moved to the ends of the range
  | .infinity .negative =>
    have hlow : x < Float.ofInt lo := by
      rw [lt_ofInt_iff hlo hx, hu]
      exact WithBot.bot_lt_coe _
    rw [round_special (by rw [hu]; rfl), clamp_unfold, if_pos hlow]
    exact isFloatOf_ofInt (hlo.trans_lt (by norm_num))
  | .infinity .positive =>
    have hlow : ¬x < Float.ofInt lo := by
      rw [lt_ofInt_iff hlo hx, hu]
      exact not_lt.mpr (WithBot.coe_le_coe.mpr le_top)
    have hhigh : Float.ofInt hi < x := by
      rw [ofInt_lt_iff hhi hx, hu]
      exact WithBot.coe_lt_coe.mpr (WithTop.coe_lt_top _)
    rw [round_special (by rw [hu]; rfl), clamp_unfold, if_neg hlow, if_pos hhigh]
    exact isFloatOf_ofInt (hhi.trans_lt (by norm_num))
  | .zero s | .finite s m e hm =>
    have hfloat : IsFloatOf .binary64 _ (unpack x) := ⟨by rw [hu]; rfl, hstorable.isCanonical, rfl⟩
    rw [← hu, hfloat.rank_eq]
    exact isFloatOf_clamp hle hlo hhi (isFloatOf_toWhole hfloat)

/-- A number that has landed is in the range. -/
theorem landing_mem (hle : lo ≤ hi) (r : WithBot (WithTop Rat)) :
    lo ≤ landing lo hi r ∧ landing lo hi r ≤ hi := by
  match r with
  | none => exact ⟨le_rfl, hle⟩
  | some none => exact ⟨hle, le_rfl⟩
  | some (some q) => exact ⟨le_max_left _ _, max_le hle (min_le_left _ _)⟩

/-- What a cast to an integer type gives is the single nearest to a whole number in its range. -/
theorem isFloatOf_cast (h : d.range? = some (lo, hi)) (hz : z.isNaN = false) :
    IsFloatOf .binary32 (nearest .binary32 (landing lo hi (rank (unpackSingle z))))
      (unpackSingle (d.cast z)) := by
  obtain ⟨hlo, hhi, hlo', hhi'⟩ := range_bounds h
  have hland := isFloatOf_landing (hlo.trans hhi) hlo' hhi' ((isNaN_widen z).trans hz)
  rw [rank_widen] at hland
  obtain ⟨hmin, hmax⟩ := landing_mem (hlo.trans hhi) (rank (unpackSingle z))
  rw [cast_unfold h]
  refine isFloatOf_narrow hland ?_
  have hbound : |landing lo hi (rank (unpackSingle z))| ≤ 2 ^ 64 := by
    rw [abs_le] at *
    omega
  exact_mod_cast hbound

/-- What is not a number stays what it is. -/
theorem cast_of_isNaN (hz : z.isNaN = true) : d.cast z = z := by
  cases hrange : d.range? with
  | none => rw [cast, hrange]
  | some range =>
    obtain ⟨lo, hi⟩ := range
    have hsingle : unpackSingle z = .notANumber := eq_notANumber hz
    have hwiden : unpack (widen z) = .notANumber :=
      (unpack_widen_special (by rw [hsingle]; rfl)).trans hsingle
    rw [cast_unfold hrange, round_special (by rw [hwiden]; rfl),
      clamp_of_isNaN ((isNaN_widen z).trans hz)]
    apply unpackSingle_injective
    rw [unpackSingle_narrow_special (by rw [hwiden]; rfl), hwiden, hsingle]

/-- A zero keeps its sign. -/
theorem cast_of_zero {s : UnpackedFloat.Sign} (hz : unpackSingle z = .zero s) : d.cast z = z := by
  cases hrange : d.range? with
  | none => rw [cast, hrange]
  | some range =>
    obtain ⟨lo, hi⟩ := range
    obtain ⟨hlo, hhi, hlo', hhi'⟩ := range_bounds hrange
    have hwiden : unpack (widen z) = .zero s :=
      (unpack_widen_special (by rw [hz]; rfl)).trans hz
    have hnumber : (widen z).isNaN = false := congrArg UnpackedFloat.isNaN hwiden
    have hlow : ¬widen z < Float.ofInt lo := by
      rw [lt_ofInt_iff hlo' hnumber, hwiden]
      exact not_lt.mpr (WithBot.coe_le_coe.mpr (WithTop.coe_le_coe.mpr (Int.cast_nonpos.mpr hlo)))
    have hhigh : ¬Float.ofInt hi < widen z := by
      rw [ofInt_lt_iff hhi' hnumber, hwiden]
      exact not_lt.mpr (WithBot.coe_le_coe.mpr (WithTop.coe_le_coe.mpr (Int.cast_nonneg hhi)))
    rw [cast_unfold hrange, round_special (by rw [hwiden]; rfl), clamp_unfold, if_neg hlow,
      if_neg hhigh]
    apply unpackSingle_injective
    rw [unpackSingle_narrow_special (by rw [hwiden]; rfl), hwiden, hz]

/-- Narrowing a whole number of the range may leave the range, but not for another single. -/
theorem nearest_landing_nearest {n : Int} (hlo : lo ≤ n) (hhi : n ≤ hi) :
    nearest .binary32 (landing lo hi (((nearest .binary32 n : Rat) : WithTop Rat) : WithBot _)) =
      nearest .binary32 n := by
  obtain ⟨k, hk⟩ := exists_nearest_intCast .binary32 n
  have hfix : nearest .binary32 k = k := by rw [← hk, nearest_nearest]
  have hland : landing lo hi (((nearest .binary32 n : Rat) : WithTop Rat) : WithBot _) =
      max lo (min hi k) := by
    rw [hk]
    exact congrArg (fun m => max lo (min hi m)) (Exact.round_intCast k)
  have hlow : nearest .binary32 lo ≤ nearest .binary32 n :=
    nearest_mono _ (by exact_mod_cast hlo)
  have hhigh : nearest .binary32 n ≤ nearest .binary32 hi :=
    nearest_mono _ (by exact_mod_cast hhi)
  rw [hland]
  -- a single below the range can only be the nearest one to the lower end, and a single above it
  -- the nearest one to the upper end
  rcases lt_or_ge k lo with hbelow | hge
  · have hup : nearest .binary32 k ≤ nearest .binary32 lo :=
      nearest_mono _ (by exact_mod_cast hbelow.le)
    rw [max_eq_left (by omega)]
    rw [hfix, ← hk] at hup
    exact le_antisymm hlow hup
  rcases lt_or_ge hi k with habove | hle
  · have hdown : nearest .binary32 hi ≤ nearest .binary32 k :=
      nearest_mono _ (by exact_mod_cast habove.le)
    rw [min_eq_left habove.le, max_eq_right (by omega)]
    rw [hfix, ← hk] at hdown
    exact le_antisymm hdown hhigh
  · rw [min_eq_right hle, max_eq_right hge, hfix, hk]

/-- A second cast leaves what the first one gave. -/
theorem cast_cast (d : DataType) (z : Float32) : d.cast (d.cast z) = d.cast z := by
  cases hrange : d.range? with
  | none => simp only [cast, hrange]
  | some range =>
    obtain ⟨lo, hi⟩ := range
    cases hz : z.isNaN with
    | true => rw [cast_of_isNaN hz, cast_of_isNaN hz]
    | false =>
      obtain ⟨hlo, hhi, -, -⟩ := range_bounds hrange
      have hfirst := isFloatOf_cast hrange hz
      have hsecond := isFloatOf_cast hrange hfirst.isNaN_eq
      obtain ⟨hmin, hmax⟩ := landing_mem (hlo.trans hhi) (rank (unpackSingle z))
      rw [hfirst.rank_eq, nearest_landing_nearest hmin hmax] at hsecond
      -- the value gives the single back unless it is zero, which has two signs
      by_cases hzero : valueOf (unpackSingle (d.cast z)) = 0
      · obtain ⟨s, hs⟩ := exists_eq_zero hfirst.isFinite hzero
        exact cast_of_zero hs
      · exact unpackSingle_injective (eq_of_valueOf_eq hsecond.isCanonical hfirst.isCanonical
          (by rw [hsecond.value, ← hfirst.value]; exact hzero)
          (hsecond.value.trans hfirst.value.symm))

end Cast

end DataType

end Mosaic
