import Mosaic.Proofs.Binary.Integers
import Mosaic.Proofs.Validation

/-!
# Casts and the range of a type

A cast rounds a number, moves it into the range of the type and narrows it to a single. The order of
the last two matters: the greatest value of a 32-bit type is not a single, and the nearest one lies
past the range. So a cast moves into the range from the least value to the greatest one *as a single*
(`isFloatOf_cast_landing`). From that everything else follows: casts keep the order, leave alone what
the type can represent, and give what the type can represent for every number below the first single
past the range; what is not below it lands there (`cast_lands`).
-/

namespace Mosaic

open Binary
open Float.Model (Format UnpackedFloat)

namespace DataType

/-! ## The ends of the ranges as singles -/

/-- The greatest value of a type as a single. Values of more than 24 bits are those of the 32-bit
types, and they are rounded up. -/
def top (hi : Int) : Int := if hi ≤ 2 ^ 24 then hi else hi + 1

/-- The first single past the range, of a type whose greatest value is not a single. -/
def pastEnd? : DataType → Option Float32
  | int32 => some 2147483648.0
  | uint32 => some 4294967296.0
  | _ => none

/-- The whole number before a large power of two is rounded to it. -/
theorem nearest_pred_two_pow {e : Nat} (he : 2 ≤ e) :
    nearest .binary32 (2 ^ 24 * 2 ^ e - 1) = 2 ^ 24 * 2 ^ e := by
  have hpos : (4 : Rat) ≤ 2 ^ e := by
    calc (4 : Rat) = 2 ^ 2 := by norm_num
      _ ≤ 2 ^ e := pow_le_pow_right₀ one_le_two he
  have hscale : ∀ i : Nat, (2 : Rat) ^ ((i : Int) + (e : Int)) = 2 ^ i * 2 ^ e := by
    intro i
    rw [zpow_add₀ two_ne_zero, zpow_natCast, zpow_natCast]
  have hexp : exponentOf .binary32 (2 ^ 24 * 2 ^ e - 1) = e := by
    apply exponentOf_eq
    · exact le_trans (by decide) (Int.natCast_nonneg e)
    · linarith
    · rw [show Format.binary32.mantissaBits = 24 from rfl, hscale]
      linarith
    · intro _
      rw [show Format.binary32.mantissaBitsWithoutImplicit = 23 from rfl, hscale]
      linarith
  apply nearest_eq_of_abs_sub_lt .binary32 (k := 2 ^ 24)
  · rw [hexp, zpow_natCast]
    norm_num
  · rw [hexp, zpow_natCast, sub_sub_cancel_left, abs_neg, abs_one]
    linarith

section Range

variable {d : DataType} {lo hi : Int}

/-- What the ranges of the integer types have in common. -/
structure IsRange (lo hi : Int) : Prop where
  bottom : |lo| ≤ 2 ^ 32
  zero : lo ≤ 0 ∧ 0 ≤ hi
  lt : lo < hi
  le_top : hi ≤ top hi
  top_le : top hi ≤ 2 ^ 32
  bottom_small : -(2 ^ 24) ≤ lo ∨ 4 ∣ lo
  top_small : top hi ≤ 2 ^ 24 ∨ 4 ∣ top hi

theorem isRange_of_range? (h : d.range? = some (lo, hi)) : IsRange lo hi := by
  cases d <;> simp only [range?, Option.some.injEq, Prod.mk.injEq, reduceCtorEq] at h <;>
    obtain ⟨rfl, rfl⟩ := h <;> constructor <;> decide

/-- The least value of a type is a single. -/
theorem nearest_bottom (h : d.range? = some (lo, hi)) : nearest .binary32 lo = lo := by
  cases d <;> simp only [range?, Option.some.injEq, Prod.mk.injEq, reduceCtorEq] at h <;>
    obtain ⟨rfl, rfl⟩ := h
  case int32 =>
    have hpow := nearest_two_zpow .binary32 (e := 31) (by decide)
    rw [Int.cast_neg, nearest_neg]
    exact_mod_cast congrArg Neg.neg hpow
  all_goals exact nearest_intCast .binary32 (by decide) (by decide)

/-- The greatest value of a type as a single. -/
theorem nearest_top (h : d.range? = some (lo, hi)) : nearest .binary32 hi = top hi := by
  cases d <;> simp only [range?, Option.some.injEq, Prod.mk.injEq, reduceCtorEq] at h <;>
    obtain ⟨rfl, rfl⟩ := h
  case int32 =>
    have h := nearest_pred_two_pow (e := 7) (by decide)
    norm_num at h
    exact_mod_cast h
  case uint32 =>
    have h := nearest_pred_two_pow (e := 8) (by decide)
    norm_num at h
    exact_mod_cast h
  all_goals exact nearest_intCast .binary32 (by decide) (by decide)

end Range

/-! ## Where a cast lands -/

section Landing

variable {d : DataType} {lo hi : Int} {v w : Float32}

theorem landing_finite (lo hi : Int) (q : Rat) :
    landing lo hi ((q : WithTop Rat) : WithBot (WithTop Rat)) = max lo (min hi (Exact.round q)) :=
  rfl

theorem landing_mono (hle : lo ≤ hi) {r r' : WithBot (WithTop Rat)} (h : r ≤ r') :
    landing lo hi r ≤ landing lo hi r' := by
  match r, r' with
  | none, r' => exact (landing_mem hle r').1
  | some none, some none => exact le_rfl
  | some (some _), some none => exact (landing_mem hle _).2
  | some (some a), some (some b) =>
    have hround : Exact.round a ≤ Exact.round b :=
      Exact.round_mono (WithTop.coe_le_coe.mp (WithBot.coe_le_coe.mp h))
    exact max_le_max_left lo (min_le_min_left hi hround)

/-- Narrowing after the move into the range is a move into the narrowed range: a single that is
rounded to a whole number stays a single. -/
theorem nearest_landing (h : d.range? = some (lo, hi)) (u : UnpackedFloat)
    (hu : nearest .binary32 (valueOf u) = valueOf u) :
    nearest .binary32 (landing lo hi (rank u)) = landing lo (top hi) (rank u) := by
  have hlo := nearest_bottom h
  have hhi := nearest_top h
  have hmono : Monotone (nearest .binary32) := fun _ _ => nearest_mono _
  have hfinite : nearest .binary32 (landing lo hi ((valueOf u : WithTop Rat) : WithBot _)) =
      landing lo (top hi) ((valueOf u : WithTop Rat) : WithBot _) := by
    rw [landing_finite, landing_finite]
    push_cast
    rw [hmono.map_max, hmono.map_min, hlo, hhi, nearest_round _ (by decide) hu]
  match u with
  | .infinity .negative => exact hlo
  | .infinity .positive => exact hhi
  | .zero _ | .finite .. | .notANumber => exact hfinite

/-- A cast moves a number into the range from the least value of the type to the greatest one as a
single. -/
theorem isFloatOf_cast_landing (h : d.range? = some (lo, hi)) (hv : v.isNaN = false) :
    IsFloatOf .binary32 (landing lo (top hi) (rank (unpackSingle v))) (unpackSingle (d.cast v)) := by
  have hcast := isFloatOf_cast h hv
  rwa [nearest_landing h _ (nearest_valueOf (isStorable_single v).isCanonical)] at hcast

/-- Casts keep the order. -/
theorem cast_mono (h : d.range? = some (lo, hi)) (hv : v.isNaN = false) (hw : w.isNaN = false)
    (hle : v ≤ w) : d.cast v ≤ d.cast w := by
  have hrange := isRange_of_range? h
  have hends : lo ≤ top hi := hrange.lt.le.trans hrange.le_top
  have hrank := (single_le_iff hv hw).mp hle
  rw [(isFloatOf_cast_landing h hv).single_le_iff_le (isFloatOf_cast_landing h hw)]
  exact_mod_cast landing_mono hends hrank

end Landing

/-! ## What a type can represent -/

section Represent

variable {d : DataType} {lo hi : Int} {v : Float32}

/-- An integer type can represent the whole numbers in its range. -/
theorem canRepresent_iff (h : d.range? = some (lo, hi)) :
    d.canRepresent v = true ↔
      ∃ n : Int, lo ≤ n ∧ n ≤ hi ∧ IsFloatOf .binary32 n (unpackSingle v) := by
  constructor
  · exact exists_whole_of_canRepresent h
  · rintro ⟨n, hlow, hhigh, hn⟩
    obtain ⟨-, -, hlo, hhi⟩ := range_bounds h
    have hx := isFloatOf_widen hn
    have hwhole := ((isFloatOf_floor hx).beq_iff_eq hx).mpr rfl
    have hlow := ((isFloatOf_ofInt (hlo.trans_lt (by norm_num))).le_iff_le hx).mpr
      (Int.cast_le.mpr hlow)
    have hhigh := (hx.le_iff_le (isFloatOf_ofInt (hhi.trans_lt (by norm_num)))).mpr
      (Int.cast_le.mpr hhigh)
    simp only [canRepresent, h, Bool.and_eq_true, decide_eq_true_eq]
    exact ⟨⟨⟨hn.isFinite, hwhole⟩, hlow⟩, hhigh⟩

/-- A cast leaves alone what the type can represent. -/
theorem cast_of_canRepresent (h : d.range? = some (lo, hi)) (hv : d.canRepresent v = true) :
    d.cast v = v := by
  obtain ⟨n, hlow, hhigh, hn⟩ := (canRepresent_iff h).mp hv
  have hcast := isFloatOf_cast_landing h hn.isNaN_eq
  have htop := (isRange_of_range? h).le_top
  have hland : landing lo (top hi) (rank (unpackSingle v)) = n := by
    rw [hn.rank_eq, landing_finite, Exact.round_intCast]
    omega
  rw [hland] at hcast
  -- the value gives the single back unless it is zero, which has two signs
  by_cases hzero : n = 0
  · obtain ⟨s, hs⟩ := exists_eq_zero hn.isFinite (by rw [hn.value, hzero, Int.cast_zero])
    exact cast_of_zero hs
  · exact unpackSingle_injective (hcast.unique hn (Int.cast_ne_zero.mpr hzero))

end Represent

/-! ## Past the end of a range -/

section PastEnd

variable {d : DataType} {lo hi : Int} {u : UnpackedFloat} {v x : Float32}

/-- Where the greatest value of a type is a single, nothing lies past the end. -/
theorem top_of_pastEnd? (h : d.range? = some (lo, hi)) (hpast : d.pastEnd? = none) :
    top hi = hi := by
  cases d <;> simp only [range?, Option.some.injEq, Prod.mk.injEq, reduceCtorEq] at h <;>
    obtain ⟨rfl, rfl⟩ := h
  case int32 | uint32 => cases hpast
  all_goals decide

/-- Elsewhere the first single past the range is the number after the greatest value. -/
theorem isFloatOf_pastEnd? (h : d.range? = some (lo, hi)) (hpast : d.pastEnd? = some x) :
    top hi = hi + 1 ∧ 2 ^ 24 < top hi ∧ IsFloatOf .binary32 (top hi) (unpackSingle x) := by
  cases d <;> simp only [pastEnd?, Option.some.injEq, reduceCtorEq] at hpast <;>
    simp only [range?, Option.some.injEq, Prod.mk.injEq] at h <;> obtain ⟨rfl, rfl⟩ := h <;>
    subst hpast
  case int32 =>
    have hx : unpackSingle 2147483648.0 = .finite .positive (2 ^ 23) 8 (by decide) := rfl
    exact ⟨by decide, by decide, isFloatOf_positive hx (by norm_num [top])⟩
  case uint32 =>
    have hx : unpackSingle 4294967296.0 = .finite .positive (2 ^ 23) 9 (by decide) := rfl
    exact ⟨by decide, by decide, isFloatOf_positive hx (by norm_num [top])⟩

/-- A single is moved to the upper end only when it does not lie below: from half the end on all
singles are whole numbers, so that rounding does not reach the end. -/
theorem landing_lt_iff {t : Int} (hlo : lo < t) (ht : 2 ^ 24 < t) (hnumber : u.isNaN = false)
    (hu : nearest .binary32 (valueOf u) = valueOf u) :
    landing lo t (rank u) < t ↔ rank u < (((t : Rat) : WithTop Rat) : WithBot (WithTop Rat)) := by
  have hfinite : landing lo t ((valueOf u : WithTop Rat) : WithBot (WithTop Rat)) < t ↔
      ((valueOf u : WithTop Rat) : WithBot (WithTop Rat)) <
        (((t : Rat) : WithTop Rat) : WithBot (WithTop Rat)) := by
    rw [landing_finite, WithBot.coe_lt_coe, WithTop.coe_lt_coe]
    constructor
    · intro hland
      by_contra hge
      have hround := Exact.round_mono (not_lt.mp hge)
      rw [Exact.round_intCast] at hround
      omega
    · intro hlt
      have hround : Exact.round (valueOf u) < t := by
        rcases le_or_gt (2 ^ 23) |valueOf u| with hlarge | hsmall
        · obtain ⟨k, hk⟩ := exists_intCast_of_large _ hu hlarge
          rw [hk, Exact.round_intCast]
          rw [hk] at hlt
          exact_mod_cast hlt
        · have hbound : |valueOf u| ≤ ((2 ^ 23 : Int) : Rat) := by
            push_cast
            exact hsmall.le
          have hround := (le_abs_self _).trans (Exact.abs_round_le hbound)
          omega
      omega
  match u, hnumber with
  | .infinity .negative, _ => exact iff_of_true hlo (WithBot.bot_lt_coe _)
  | .infinity .positive, _ =>
    refine iff_of_false (lt_irrefl t) ?_
    exact not_lt.mpr (WithBot.coe_le_coe.mpr le_top)
  | .zero _, _ | .finite .., _ => exact hfinite

/-- A cast gives what the type can represent for the numbers below the first single past the range,
and that single for all others. Casts keep the order and leave alone what the type can represent. -/
theorem cast_lands (hinteger : d.isInteger = true) (hv : v.isNaN = false) :
    (d.canRepresent (d.cast v) = true ↔ ∀ x ∈ d.pastEnd?, v < x) ∧
      (∀ x ∈ d.pastEnd?, x ≤ v → d.cast v = x) ∧
      (∀ w : Float32, w.isNaN = false → v ≤ w → d.cast v ≤ d.cast w) ∧
      (d.canRepresent v = true → d.cast v = v) := by
  obtain ⟨⟨lo, hi⟩, h⟩ := Option.isSome_iff_exists.mp hinteger
  have hcast := isFloatOf_cast_landing h hv
  have hrange := isRange_of_range? h
  have hends : lo ≤ top hi := hrange.lt.le.trans hrange.le_top
  obtain ⟨hlow, hhigh⟩ := landing_mem hends (rank (unpackSingle v))
  have hrepresent : d.canRepresent (d.cast v) = true ↔
      landing lo (top hi) (rank (unpackSingle v)) ≤ hi := by
    rw [canRepresent_iff h]
    constructor
    · rintro ⟨n, -, hn, hfloat⟩
      have heq : landing lo (top hi) (rank (unpackSingle v)) = n := by
        exact_mod_cast hcast.value.symm.trans hfloat.value
      rwa [heq]
    · exact fun hle => ⟨_, hlow, hle, hcast⟩
  have hbelow : ∀ x ∈ d.pastEnd?, (v < x ↔
      landing lo (top hi) (rank (unpackSingle v)) ≤ hi) := by
    intro x hx
    obtain ⟨htop, hlarge, hfloat⟩ := isFloatOf_pastEnd? h hx
    have hland := landing_lt_iff (u := unpackSingle v) (hrange.lt.trans_le hrange.le_top) hlarge
      hv (nearest_valueOf (isStorable_single v).isCanonical)
    rw [single_lt_iff hv hfloat.isNaN_eq, hfloat.rank_eq, ← hland]
    omega
  refine ⟨?_, ?_, fun w hw hle => cast_mono h hv hw hle, cast_of_canRepresent h⟩
  · rw [hrepresent]
    cases hpast : d.pastEnd? with
    | none =>
      have htop := top_of_pastEnd? h hpast
      exact iff_of_true (by omega) nofun
    | some x =>
      rw [← hbelow x hpast]
      exact ⟨fun hlt _ hy => Option.some_inj.mp hy ▸ hlt, fun hall => hall x rfl⟩
  · intro x hx hle
    obtain ⟨htop, hlarge, hfloat⟩ := isFloatOf_pastEnd? h hx
    have hnot := (hbelow x hx).not.mp fun hlt => (single_lt_iff_not_le hv hfloat.isNaN_eq).mp hlt hle
    have hland : landing lo (top hi) (rank (unpackSingle v)) = top hi := by omega
    rw [hland] at hcast
    exact unpackSingle_injective (hcast.unique hfloat (Int.cast_ne_zero.mpr (by omega)))

/-- The last single before the end of a 32-bit range is left alone and cast below the end. -/
theorem cast_lands_before_end :
    int32.isInteger = true ∧ Float32.isNaN 2147483520.0 = false ∧
      int32.canRepresent (int32.cast (2147483520.0 : Float32)) = true ∧
      int32.cast (2147483520.0 : Float32) ≤ int32.cast 2147483648.0 ∧
      int32.cast (2147483520.0 : Float32) = 2147483520.0 := by
  have hnumber : Float32.isNaN 2147483520.0 = false := by decide +kernel
  obtain ⟨hrepresent, -, hmono, hsame⟩ := cast_lands (d := int32) rfl hnumber
  refine ⟨rfl, hnumber, hrepresent.mpr ?_, hmono _ (by decide +kernel) (by decide +kernel),
    hsame (by decide +kernel)⟩
  rintro x ⟨⟩
  decide +kernel

/-- The first single past the end of a 32-bit range is cast to itself and is not in the range. -/
theorem cast_past_end :
    int32.isInteger = true ∧ Float32.isNaN 2147483648.0 = false ∧
      int32.canRepresent (int32.cast (2147483648.0 : Float32)) = false := by
  decide +kernel

end PastEnd

end DataType

end Mosaic
