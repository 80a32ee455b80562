import Mosaic.Proofs.Binary.Numbers
import Mosaic.Proofs.Binary.Sums
import Mosaic.Proofs.Frequency

/-!
# The total order of singles

All singles are sorted by their bits: negative ones by falling size, then the others by rising size.
The bits of a float without its sign ascend with its magnitude (`sizeBits_lt`), infinities last. So
the total order keeps to the order of numbers (`rank_le_of_orderKey_le`); it only tells the two
zeros apart, which are equal.
-/

namespace Mosaic.Binary

open Float.Model (Format UnpackedFloat)
open Float.Model.UnpackedFloat (Sign)

/-! ## Magnitudes -/

/-- The distance of a float from zero. -/
def magnitude : UnpackedFloat → WithTop Rat
  | .infinity _ | .notANumber => ⊤
  | u => ((|valueOf u| : Rat) : WithTop Rat)

/-- The bits of a float without its sign. -/
def sizeBits (spec : Format) : UnpackedFloat → Nat
  | .zero _ => 0
  | .finite _ m e _ => (e - spec.minExponent).toNat * 2 ^ spec.mantissaBitsWithoutImplicit + m
  | .infinity _ | .notANumber =>
    (2 ^ spec.exponentBits - 1) * 2 ^ spec.mantissaBitsWithoutImplicit

section Magnitude

variable {spec : Format} {u v : UnpackedFloat}

/-- The bits of a float that is not infinite are those of no infinity. -/
theorem sizeBits_lt_infinity {s : Sign} {m : Nat} {e : Int} {hm : 0 < m}
    (h : IsStorable spec (.finite s m e hm)) (s' : Sign) :
    sizeBits spec (.finite s m e hm) < sizeBits spec (.infinity s') := by
  obtain ⟨⟨hhigh, hmin, -⟩, hroom⟩ := h
  have hbiased := minExponent_biased spec
  have hbits := two_pow_mantissaBits spec
  have hcast : ((2 ^ spec.exponentBits : Nat) : Int) = 2 ^ spec.exponentBits := by push_cast; rfl
  have hexp : (e - spec.minExponent).toNat + 2 ≤ 2 ^ spec.exponentBits - 1 := by omega
  have hfield := Nat.mul_le_mul_right (2 ^ spec.mantissaBitsWithoutImplicit) hexp
  rw [Nat.add_mul] at hfield
  show (e - spec.minExponent).toNat * 2 ^ spec.mantissaBitsWithoutImplicit + m <
    (2 ^ spec.exponentBits - 1) * 2 ^ spec.mantissaBitsWithoutImplicit
  omega

/-- The farther a float is from zero, the larger are its bits. -/
theorem sizeBits_lt (hu : IsStorable spec u) (hv : IsStorable spec v)
    (h : magnitude u < magnitude v) : sizeBits spec u < sizeBits spec v := by
  match u, v, hu, hv, h with
  | .infinity _, _, _, _, h | .notANumber, _, _, _, h => exact absurd h not_top_lt
  | .zero _, .zero _, _, _, h => exact absurd h (lt_irrefl _)
  | .finite s m e hm, .zero s', _, _, h =>
    have hlt : |valueOf (.finite s m e hm)| < |valueOf (.zero s')| := WithTop.coe_lt_coe.mp h
    rw [valueOf_zero, abs_zero] at hlt
    exact absurd hlt (abs_nonneg _).not_gt
  | .zero _, .finite s m e hm, _, _, _ =>
    exact Nat.add_pos_right _ hm
  | .zero _, .infinity _, _, _, _ | .zero _, .notANumber, _, _, _ =>
    have hfull := Nat.one_lt_two_pow spec.he.ne'
    exact Nat.mul_pos (Nat.sub_pos_of_lt hfull) (Nat.two_pow_pos _)
  | .finite s m e hm, .infinity _, hu, _, _ | .finite s m e hm, .notANumber, hu, _, _ =>
    exact sizeBits_lt_infinity hu .positive
  | .finite s m e hm, .finite s' m' e' hm', hu, hv, h =>
    have hlt : |valueOf (.finite .positive m e hm)| < |valueOf (.finite .positive m' e' hm')| := by
      rw [abs_valueOf_finite, abs_valueOf_finite, ← abs_valueOf_finite s m e hm,
        ← abs_valueOf_finite s' m' e' hm']
      exact WithTop.coe_lt_coe.mp h
    -- the sign does not count in what is storable
    have hu : IsStorable spec (.finite .positive m e hm) := hu
    have hv : IsStorable spec (.finite .positive m' e' hm') := hv
    have hbits := toNat_pack_lt hu hv hlt
    rw [toNat_pack hu, toNat_pack hv] at hbits
    exact Nat.lt_of_add_lt_add_left hbits

/-- A positive number stands in the order where its distance from zero does. -/
theorem rank_of_positive (hu : u.isNaN = false) (hsign : signOf u = .positive) :
    rank u = (magnitude u : WithBot (WithTop Rat)) := by
  match u with
  | .zero _ => rfl
  | .infinity .positive => rfl
  | .finite .positive m e hm =>
    have habs : |valueOf (.finite .positive m e hm)| = valueOf (.finite .positive m e hm) :=
      abs_of_pos (valueOf_pos m e hm)
    show ((valueOf (.finite .positive m e hm) : WithTop Rat) : WithBot (WithTop Rat)) =
      ((|valueOf (.finite .positive m e hm)| : Rat) : WithTop Rat)
    rw [habs]

theorem rank_nonpos_of_negative (hsign : signOf u = .negative) : rank u ≤ 0 := by
  match u with
  | .zero _ => exact le_rfl
  | .infinity .negative => exact bot_le
  | .finite .negative m e hm =>
    exact WithBot.coe_le_coe.mpr (WithTop.coe_le_coe.mpr (valueOf_neg m e hm).le)

theorem magnitude_nonneg (u : UnpackedFloat) : 0 ≤ magnitude u := by
  match u with
  | .infinity _ | .notANumber => exact le_top
  | .zero _ | .finite .. => exact WithTop.coe_le_coe.mpr (abs_nonneg _)

/-- Of two negative numbers the lower one is farther from zero. -/
theorem magnitude_lt_of_negative (hu : signOf u = .negative) (hv : signOf v = .negative)
    (h : rank u < rank v) : magnitude v < magnitude u := by
  match u, v, hu, hv with
  | _, .infinity .negative, _, _ => exact absurd h not_lt_bot
  | .infinity .negative, .zero _, _, _ | .infinity .negative, .finite .., _, _ =>
    exact WithTop.coe_lt_top _
  | .zero .negative, .zero .negative, _, _ => exact absurd h (lt_irrefl _)
  | .zero .negative, .finite .negative m e hm, _, _ =>
    have hlt := (rank_lt_rank rfl rfl).mp h
    exact absurd hlt (valueOf_neg m e hm).not_gt
  | .finite .negative m e hm, .zero .negative, _, _ =>
    refine WithTop.coe_lt_coe.mpr ?_
    rw [valueOf_zero, abs_zero]
    exact abs_pos.mpr (valueOf_finite_ne_zero .negative m e hm)
  | .finite .negative m e hm, .finite .negative m' e' hm', _, _ =>
    have hlt := (rank_lt_rank rfl rfl).mp h
    refine WithTop.coe_lt_coe.mpr ?_
    rw [abs_of_neg (valueOf_neg m e hm), abs_of_neg (valueOf_neg m' e' hm')]
    exact neg_lt_neg hlt

/-- The place of a float in the total order. -/
def place (spec : Format) (u : UnpackedFloat) : Int :=
  match signOf u with
  | .positive => sizeBits spec u
  | .negative => -1 - sizeBits spec u

/-- The total order keeps to the order of numbers. -/
theorem place_lt_place (hu : IsStorable spec u) (hv : IsStorable spec v) (hnumber : u.isNaN = false)
    (hnumber' : v.isNaN = false) (h : rank u < rank v) : place spec u < place spec v := by
  unfold place
  cases hsu : signOf u with
  | positive =>
    cases hsv : signOf v with
    | positive =>
      rw [rank_of_positive hnumber hsu, rank_of_positive hnumber' hsv, WithBot.coe_lt_coe] at h
      exact Int.ofNat_lt.mpr (sizeBits_lt hu hv h)
    | negative =>
      rw [rank_of_positive hnumber hsu] at h
      have hpos : (0 : WithBot (WithTop Rat)) ≤ magnitude u :=
        WithBot.coe_le_coe.mpr (magnitude_nonneg u)
      exact absurd (h.trans_le (rank_nonpos_of_negative hsv)) hpos.not_gt
  | negative =>
    cases hsv : signOf v with
    | positive =>
      dsimp only
      omega
    | negative =>
      have hlt := sizeBits_lt hv hu (magnitude_lt_of_negative hsu hsv h)
      dsimp only
      omega

end Magnitude

/-! ## Singles -/

/-- A number that is stored is its sign before the bits of its size. -/
theorem toNat_pack_single {u : UnpackedFloat} (hu : IsStorable .binary32 u)
    (hnumber : u.isNaN = false) :
    (UnpackedFloat.pack .binary32 u).toNat =
      (signOf u).toBitVec.toNat * 2 ^ 31 + sizeBits .binary32 u := by
  match u with
  | .zero .positive | .zero .negative => rfl
  | .infinity .positive | .infinity .negative => rfl
  | .finite s m e hm => exact toNat_pack hu

theorem sizeBits_single_lt {u : UnpackedFloat} (hu : IsStorable .binary32 u) :
    sizeBits .binary32 u < 2 ^ 31 := by
  have htop : sizeBits .binary32 (.infinity .positive) < 2 ^ 31 := by decide
  match u with
  | .zero _ => exact Nat.two_pow_pos 31
  | .infinity _ | .notANumber => exact htop
  | .finite s m e hm => exact (sizeBits_lt_infinity hu .positive).trans htop

theorem orderKey_eq {x : Float32} (hx : x.isNaN = false) :
    Machine.orderKey x = place .binary32 (unpackSingle x) := by
  have hstorable := isStorable_single x
  have hbits : x.toBits.toNat =
      (signOf (unpackSingle x)).toBitVec.toNat * 2 ^ 31 + sizeBits .binary32 (unpackSingle x) := by
    rw [← toNat_pack_single hstorable hx]
    exact (congrArg BitVec.toNat (pack_unpack (by decide) x.toModel.valid)).symm
  have hsize := sizeBits_single_lt hstorable
  unfold Machine.orderKey place
  rw [hbits]
  cases signOf (unpackSingle x) with
  | positive =>
    have hsign : Sign.positive.toBitVec.toNat = 0 := rfl
    rw [hsign]
    dsimp only
    split_ifs <;> omega
  | negative =>
    have hsign : Sign.negative.toBitVec.toNat = 1 := rfl
    rw [hsign]
    dsimp only
    split_ifs <;> omega

/-- The total order of singles sorts numbers. -/
theorem rank_le_of_orderKey_le {x y : Float32} (hx : x.isNaN = false) (hy : y.isNaN = false)
    (h : Machine.orderKey x ≤ Machine.orderKey y) :
    rank (unpackSingle x) ≤ rank (unpackSingle y) := by
  rw [orderKey_eq hx, orderKey_eq hy] at h
  by_contra hlt
  have := place_lt_place (isStorable_single y) (isStorable_single x) hy hx (not_le.mp hlt)
  omega

/-- Singles compare as their places in the order of numbers, and are sorted by them. -/
theorem isMeasure_rank : Sample.IsMeasure fun v : Float32 => rank (unpackSingle v) where
  beq_iff := single_beq_iff
  lt_iff := single_lt_iff
  measure_le hv hw h := rank_le_of_orderKey_le hv hw (of_decide_eq_true h)
  totalLe_trans u v w huv hvw :=
    decide_eq_true ((of_decide_eq_true huv).trans (of_decide_eq_true hvw))
  totalLe_total v w := by
    rw [Bool.or_eq_true]
    exact (Int.le_total _ _).imp decide_eq_true decide_eq_true

end Mosaic.Binary
