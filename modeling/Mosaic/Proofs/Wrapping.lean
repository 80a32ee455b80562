import Mosaic.Dataset.Basic
import Mosaic.Proofs.Binary.Sums
import Mosaic.Proofs.Outcome

/-!
# Where the wrapping of longitudes ends

The Albers projection takes whole turns off an angle, or adds them, until it lies within half a
turn. Up to `2 ^ 56` doubles lie closely enough for each turn to make a difference, and the bits of
the angle become smaller (`sub_turn_step`). Beyond, a turn is less than half the distance to the next
double, so that the rounded difference is the angle itself (`sub_turn_far`). The loops end exactly
for angles up to that limit (`exists_turnsOff_iff`), and points, boxes and footprints are carried
over exactly when their longitudes lie that near (`ends_iff_near`).
-/

namespace Mosaic

namespace Albers

open Binary
open Float.Model (Format UnpackedFloat)

/-! ## The turn in doubles -/

/-- Half a turn, as exactly as a double holds it. -/
def halfTurn : Rat := 7074237752028440 * 2 ^ (-51 : Int)

theorem three_lt_halfTurn : 3 < halfTurn := by norm_num [halfTurn]

theorem halfTurn_lt_four : halfTurn < 4 := by norm_num [halfTurn]

/-- The angle from which on a whole turn is lost in rounding. -/
def limit : Float := 72057594037927936.0

theorem isFloatOf_pi : IsFloatOf .binary64 halfTurn (unpack Angle.pi) where
  isFinite := rfl
  isCanonical := (Binary.isStorable_double _).isCanonical
  value := by
    have hunpack : unpack Angle.pi = .finite .positive 7074237752028440 (-51) (by decide) := rfl
    rw [hunpack, valueOf_finite]
    norm_num [UnpackedFloat.Sign.apply, halfTurn]

theorem isFloatOf_neg_pi : IsFloatOf .binary64 (-halfTurn) (unpack (-Angle.pi)) where
  isFinite := rfl
  isCanonical := (Binary.isStorable_double _).isCanonical
  value := by
    have hunpack : unpack (-Angle.pi) = .finite .negative 7074237752028440 (-51) (by decide) := rfl
    rw [hunpack, valueOf_finite]
    norm_num [UnpackedFloat.Sign.apply, halfTurn]

theorem isFloatOf_turn : IsFloatOf .binary64 (2 * halfTurn) (unpack (2.0 * Angle.pi)) where
  isFinite := rfl
  isCanonical := (Binary.isStorable_double _).isCanonical
  value := by
    have hunpack : unpack (2.0 * Angle.pi) = .finite .positive 7074237752028440 (-50) (by decide) :=
      rfl
    rw [hunpack, valueOf_finite]
    norm_num [UnpackedFloat.Sign.apply, halfTurn]

theorem isFloatOf_limit : IsFloatOf .binary64 (2 ^ 56) (unpack limit) where
  isFinite := rfl
  isCanonical := (Binary.isStorable_double _).isCanonical
  value := by
    have hunpack : unpack limit = .finite .positive (2 ^ 52) 4 (by decide) := rfl
    rw [hunpack, valueOf_finite]
    norm_num [UnpackedFloat.Sign.apply]

theorem isFloatOf_neg_limit : IsFloatOf .binary64 (-2 ^ 56) (unpack (-limit)) where
  isFinite := rfl
  isCanonical := (Binary.isStorable_double _).isCanonical
  value := by
    have hunpack : unpack (-limit) = .finite .negative (2 ^ 52) 4 (by decide) := rfl
    rw [hunpack, valueOf_finite]
    norm_num [UnpackedFloat.Sign.apply]

/-! ## One turn -/

section Step

variable {a : Rat}

/-- Up to the limit, the rounded difference is smaller than the angle and not below half a turn. -/
theorem nearest_sub_turn_near (hlow : halfTurn < a) (hhigh : a ≤ 2 ^ 56) :
    -halfTurn ≤ nearest .binary64 (a - 2 * halfTurn) ∧
      nearest .binary64 (a - 2 * halfTurn) < a := by
  have hturn := three_lt_halfTurn
  constructor
  · rw [← isFloatOf_neg_pi.nearest_eq]
    exact nearest_mono .binary64 (by linarith)
  · rcases le_or_gt (a - 2 * halfTurn) 0 with hneg | hpos
    · have hzero := nearest_mono .binary64 hneg
      rw [nearest_zero] at hzero
      linarith
    · -- below the limit the last place is at most 8, so rounding adds at most 4
      have hplace : exponentOf .binary64 (a - 2 * halfTurn) ≤ 3 :=
        exponentOf_le_of_lt .binary64 (n := 56) hpos (by norm_num at hhigh ⊢; linarith)
      have herror := (abs_le.mp (abs_nearest_sub_le .binary64 (a - 2 * halfTurn))).2
      have hpower : (2 : Rat) ^ exponentOf .binary64 (a - 2 * halfTurn) ≤ 2 ^ (3 : Int) :=
        zpow_le_zpow_right₀ one_le_two hplace
      norm_num at hpower
      linarith

/-- Beyond the limit, the rounded difference is the angle itself. -/
theorem nearest_sub_turn_far (ha : nearest .binary64 a = a) (hlimit : 2 ^ 56 < a) :
    nearest .binary64 (a - 2 * halfTurn) = a := by
  have hturn := three_lt_halfTurn
  have hturn' := halfTurn_lt_four
  have hplace : 4 ≤ exponentOf .binary64 a :=
    le_exponentOf_of_le .binary64 (n := 56) (by norm_num at hlimit ⊢; exact hlimit.le)
  -- doubles above the limit are multiples of 16, so the next one is far enough away
  have hnext : 2 ^ 56 + 16 ≤ a := by
    obtain ⟨k, hk⟩ := exists_multiple (nearestEven (a / 2 ^ exponentOf .binary64 a)) hplace
    have hmultiple : a = k * 2 ^ (4 : Int) := ha.symm.trans hk
    norm_num at hmultiple hlimit ⊢
    have hk : (4503599627370496 : Rat) < k := by linarith
    have hk : 4503599627370496 + 1 ≤ k := by exact_mod_cast hk
    have hk : (4503599627370496 : Rat) + 1 ≤ k := by exact_mod_cast hk
    linarith
  have hplace : 4 ≤ exponentOf .binary64 (a - 2 * halfTurn) :=
    le_exponentOf_of_le .binary64 (n := 56) (by norm_num at hnext ⊢; linarith)
  have hle : exponentOf .binary64 (a - 2 * halfTurn) ≤ exponentOf .binary64 a :=
    exponentOf_mono .binary64 (by norm_num at hnext; linarith) (by linarith)
  obtain ⟨k, hk⟩ := exists_multiple (nearestEven (a / 2 ^ exponentOf .binary64 a)) hle
  refine nearest_eq_of_abs_sub_lt .binary64 (ha.symm.trans hk) ?_
  have hpower : (2 : Rat) ^ (4 : Int) ≤ 2 ^ exponentOf .binary64 (a - 2 * halfTurn) :=
    zpow_le_zpow_right₀ one_le_two hplace
  have hdistance : |a - 2 * halfTurn - a| = 2 * halfTurn := by
    rw [sub_sub_cancel_left, abs_neg, abs_of_pos (by linarith)]
  norm_num at hpower
  rw [hdistance]
  linarith

variable {x : Float}

theorem sub_turn_near (hx : IsFloatOf .binary64 a (unpack x)) (hlow : halfTurn < a)
    (hhigh : a ≤ 2 ^ 56) :
    ∃ b, IsFloatOf .binary64 b (unpack (x - 2.0 * Angle.pi)) ∧ -halfTurn ≤ b ∧ b < a := by
  have hturn := halfTurn_lt_four
  obtain ⟨hle, hlt⟩ := nearest_sub_turn_near hlow hhigh
  refine ⟨_, isFloatOf_sub hx isFloatOf_turn ?_, hle, hlt⟩
  have hsize : |nearest .binary64 (a - 2 * halfTurn)| ≤ 2 ^ 56 :=
    abs_le.mpr ⟨by linarith, by linarith⟩
  exact hsize.trans_lt (pow_lt_pow_right₀ one_lt_two (by decide))

theorem add_turn_near (hx : IsFloatOf .binary64 a (unpack x)) (hlow : a < -halfTurn)
    (hhigh : -2 ^ 56 ≤ a) :
    ∃ b, IsFloatOf .binary64 b (unpack (x + 2.0 * Angle.pi)) ∧ b ≤ halfTurn ∧ a < b := by
  have hturn := halfTurn_lt_four
  obtain ⟨hle, hlt⟩ := nearest_sub_turn_near (a := -a) (by linarith) (by linarith)
  have hneg : nearest .binary64 (a + 2 * halfTurn) = -nearest .binary64 (-a - 2 * halfTurn) := by
    rw [← nearest_neg]
    congr 1
    ring
  refine ⟨_, isFloatOf_add hx isFloatOf_turn ?_, by linarith, by linarith⟩
  have hsize : |nearest .binary64 (a + 2 * halfTurn)| ≤ 2 ^ 56 :=
    abs_le.mpr ⟨by linarith, by linarith⟩
  exact hsize.trans_lt (pow_lt_pow_right₀ one_lt_two (by decide))

/-- Beyond the limit, taking off a turn changes nothing. -/
theorem sub_turn_far (h : limit < x) : x - 2.0 * Angle.pi = x := by
  refine unpack_injective ?_
  rcases isFloatOf_limit.lt_iff.mp h with ⟨a, ha, hlt⟩ | hinfinite
  · have hround := nearest_sub_turn_far ha.nearest_eq hlt
    have hdiff := isFloatOf_sub ha isFloatOf_turn (by rw [hround]; exact ha.abs_lt)
    rw [hround] at hdiff
    exact hdiff.unique ha (by linarith)
  · exact sub_of_infinite hinfinite isFloatOf_turn

/-- Beyond the limit, adding a turn changes nothing. -/
theorem add_turn_far (h : x < -limit) : x + 2.0 * Angle.pi = x := by
  refine unpack_injective ?_
  rcases isFloatOf_neg_limit.gt_iff.mp h with ⟨a, ha, hlt⟩ | hinfinite
  · have hround : nearest .binary64 (a + 2 * halfTurn) = a := by
      have hfar := nearest_sub_turn_far (a := -a) (by rw [nearest_neg, ha.nearest_eq]) (by linarith)
      rw [← neg_inj, ← nearest_neg, ← hfar]
      congr 1
      ring
    have hsum := isFloatOf_add ha isFloatOf_turn (by rw [hround]; exact ha.abs_lt)
    rw [hround] at hsum
    exact hsum.unique ha (by linarith)
  · exact add_of_infinite hinfinite isFloatOf_turn

end Step

/-! ## The loops -/

/-- The run of a loop from one value to another: while the test holds, one more step. -/
inductive Loop (again : Float → Prop) (step : Float → Float) : Float → Float → Prop
  | done {x} (h : ¬again x) : Loop again step x x
  | step {x z} (h : again x) (rest : Loop again step (step x) z) : Loop again step x z

/-- In a loop that ends, a step that is taken makes a difference. -/
theorem Loop.step_ne {again : Float → Prop} {step : Float → Float} {x z : Float}
    (h : Loop again step x z) (hagain : again x) : step x ≠ x := by
  intro hfixed
  induction h with
  | done hdone => exact hdone hagain
  | step _ _ ih => exact ih (hfixed.symm ▸ hagain) (by rw [hfixed, hfixed])

theorem Loop.unique {again : Float → Prop} {step : Float → Float} {x z z' : Float}
    (h : Loop again step x z) (h' : Loop again step x z') : z = z' := by
  induction h with
  | done hdone =>
    cases h' with
    | done => rfl
    | step hagain => exact absurd hagain hdone
  | step hagain _ ih =>
    cases h' with
    | done hdone => exact absurd hagain hdone
    | step _ rest => exact ih rest

/-- The run of the loop that takes off turns. -/
abbrev TurnsOff : Float → Float → Prop := Loop (Angle.pi < ·) (· - 2.0 * Angle.pi)

/-- The run of the loop that adds turns. -/
abbrev TurnsOn : Float → Float → Prop := Loop (· < -Angle.pi) (· + 2.0 * Angle.pi)

theorem wrapDown_of_not_lt {x : Float} (h : ¬Angle.pi < x) : wrapDown x = .ok x := by
  rw [wrapDown, if_neg h]

theorem wrapUp_of_not_lt {x : Float} (h : ¬x < -Angle.pi) : wrapUp x = .ok x := by
  rw [wrapUp, if_neg h]

theorem pi_lt_of_limit_lt {x : Float} (h : limit < x) : Angle.pi < x := by
  have hturn := halfTurn_lt_four
  rw [isFloatOf_pi.lt_iff]
  rcases isFloatOf_limit.lt_iff.mp h with ⟨a, ha, hlt⟩ | hinfinite
  · exact .inl ⟨a, ha, by linarith⟩
  · exact .inr hinfinite

theorem lt_neg_pi_of_lt_limit {x : Float} (h : x < -limit) : x < -Angle.pi := by
  have hturn := halfTurn_lt_four
  rw [isFloatOf_neg_pi.gt_iff]
  rcases isFloatOf_neg_limit.gt_iff.mp h with ⟨a, ha, hlt⟩ | hinfinite
  · exact .inl ⟨a, ha, by linarith⟩
  · exact .inr hinfinite

theorem wrapDown_far {x : Float} (h : limit < x) : wrapDown x = .error .endlessWrap := by
  have hpi := pi_lt_of_limit_lt h
  rw [wrapDown, if_pos hpi]
  simp only [sub_turn_far h, if_pos hpi, lt_irrefl, if_false]

theorem wrapUp_far {x : Float} (h : x < -limit) : wrapUp x = .error .endlessWrap := by
  have hpi := lt_neg_pi_of_lt_limit h
  rw [wrapUp, if_pos hpi]
  simp only [add_turn_far h, if_pos hpi, lt_irrefl, if_false]

/-- One turn off an angle up to the limit: it does not fall below minus half a turn, and where it is
still above half a turn its bits have become smaller. -/
theorem sub_turn_step {x : Float} (hpi : Angle.pi < x) (hlimit : ¬limit < x) :
    ¬x - 2.0 * Angle.pi < -Angle.pi ∧
      (Angle.pi < x - 2.0 * Angle.pi → ¬limit < x - 2.0 * Angle.pi ∧
        (x - 2.0 * Angle.pi).toBits.toNat < x.toBits.toNat) := by
  have hturn := three_lt_halfTurn
  rw [isFloatOf_limit.lt_iff, not_or] at hlimit
  obtain ⟨a, ha, hlow⟩ := (isFloatOf_pi.lt_iff.mp hpi).resolve_right hlimit.2
  have hhigh : a ≤ 2 ^ 56 := not_lt.mp fun h => hlimit.1 ⟨a, ha, h⟩
  obtain ⟨b, hb, hle, hlt⟩ := sub_turn_near ha hlow hhigh
  constructor
  · rw [hb.lt_iff_lt isFloatOf_neg_pi]
    exact not_lt.mpr hle
  · rw [isFloatOf_pi.lt_iff_lt hb, isFloatOf_limit.lt_iff_lt hb]
    intro hpos
    have hpos : 0 < b := by linarith
    refine ⟨by linarith, toBits_lt hb ha (mul_pos hpos (hpos.trans hlt)) ?_⟩
    rwa [abs_of_pos hpos, abs_of_pos (hpos.trans hlt)]

/-- One turn added to an angle down to the limit. -/
theorem add_turn_step {x : Float} (hpi : x < -Angle.pi) (hlimit : ¬x < -limit) :
    x + 2.0 * Angle.pi < -Angle.pi → ¬x + 2.0 * Angle.pi < -limit ∧
      (x + 2.0 * Angle.pi).toBits.toNat < x.toBits.toNat := by
  have hturn := three_lt_halfTurn
  rw [isFloatOf_neg_limit.gt_iff, not_or] at hlimit
  obtain ⟨a, ha, hhigh⟩ := (isFloatOf_neg_pi.gt_iff.mp hpi).resolve_right hlimit.2
  have hlow : -2 ^ 56 ≤ a := not_lt.mp fun h => hlimit.1 ⟨a, ha, h⟩
  obtain ⟨b, hb, -, hlt⟩ := add_turn_near ha hhigh hlow
  rw [hb.lt_iff_lt isFloatOf_neg_pi, hb.lt_iff_lt isFloatOf_neg_limit]
  intro hneg
  have hneg : b < 0 := by linarith
  refine ⟨by linarith, toBits_lt hb ha (mul_pos_of_neg_of_neg hneg (hlt.trans hneg)) ?_⟩
  rw [abs_of_neg hneg, abs_of_neg (hlt.trans hneg)]
  exact neg_lt_neg hlt

/-- Up to the limit the loop that takes off turns ends, and not below minus half a turn. -/
theorem wrapDown_near {x : Float} (hpi : Angle.pi < x) (hlimit : ¬limit < x) :
    ∃ z, wrapDown x = .ok z ∧ TurnsOff x z ∧ ¬z < -Angle.pi := by
  induction hbits : x.toBits.toNat using Nat.strong_induction_on generalizing x with
  | _ n ih =>
    subst hbits
    obtain ⟨hlow, hstep⟩ := sub_turn_step hpi hlimit
    rw [wrapDown, if_pos hpi]
    by_cases hy : Angle.pi < x - 2.0 * Angle.pi
    · obtain ⟨hlimit, hlt⟩ := hstep hy
      obtain ⟨z, hz, hrun, hend⟩ := ih _ hlt hy hlimit rfl
      exact ⟨z, by simp only [if_pos hy, if_pos hlt, hz], .step hpi hrun, hend⟩
    · exact ⟨_, by simp only [if_neg hy], .step hpi (.done hy), hlow⟩

/-- Down to the limit the loop that adds turns ends. -/
theorem wrapUp_near {x : Float} (hpi : x < -Angle.pi) (hlimit : ¬x < -limit) :
    ∃ z, wrapUp x = .ok z ∧ TurnsOn x z := by
  induction hbits : x.toBits.toNat using Nat.strong_induction_on generalizing x with
  | _ n ih =>
    subst hbits
    have hstep := add_turn_step hpi hlimit
    rw [wrapUp, if_pos hpi]
    by_cases hy : x + 2.0 * Angle.pi < -Angle.pi
    · obtain ⟨hlimit, hlt⟩ := hstep hy
      obtain ⟨z, hz, hrun⟩ := ih _ hlt hy hlimit rfl
      exact ⟨z, by simp only [if_pos hy, if_pos hlt, hz], .step hpi hrun⟩
    · exact ⟨_, by simp only [if_neg hy], .step hpi (.done hy)⟩

/-- The loop that takes off turns ends exactly for angles up to the limit. -/
theorem exists_turnsOff_iff (x : Float) : (∃ z, TurnsOff x z) ↔ ¬limit < x := by
  by_cases hlimit : limit < x
  · refine iff_of_false ?_ (not_not.mpr hlimit)
    rintro ⟨z, h⟩
    exact h.step_ne (pi_lt_of_limit_lt hlimit) (sub_turn_far hlimit)
  · refine iff_of_true ?_ hlimit
    by_cases hpi : Angle.pi < x
    · obtain ⟨z, -, h, -⟩ := wrapDown_near hpi hlimit
      exact ⟨z, h⟩
    · exact ⟨x, .done hpi⟩

/-- The loop that adds turns ends exactly for angles down to the limit. -/
theorem exists_turnsOn_iff (x : Float) : (∃ z, TurnsOn x z) ↔ ¬x < -limit := by
  by_cases hlimit : x < -limit
  · refine iff_of_false ?_ (not_not.mpr hlimit)
    rintro ⟨z, h⟩
    exact h.step_ne (lt_neg_pi_of_lt_limit hlimit) (add_turn_far hlimit)
  · refine iff_of_true ?_ hlimit
    by_cases hpi : x < -Angle.pi
    · obtain ⟨z, -, h⟩ := wrapUp_near hpi hlimit
      exact ⟨z, h⟩
    · exact ⟨x, .done hpi⟩

/-- Taking off turns has the result of the loop, if the loop ends. -/
theorem wrapDown_eq_ok_iff {x z : Float} : wrapDown x = .ok z ↔ TurnsOff x z := by
  by_cases hlimit : limit < x
  · rw [wrapDown_far hlimit]
    exact iff_of_false nofun fun h => h.step_ne (pi_lt_of_limit_lt hlimit) (sub_turn_far hlimit)
  · by_cases hpi : Angle.pi < x
    · obtain ⟨z', hz, hrun, -⟩ := wrapDown_near hpi hlimit
      rw [hz]
      exact ⟨fun h => by cases h; exact hrun, fun h => by rw [h.unique hrun]⟩
    · rw [wrapDown_of_not_lt hpi]
      exact ⟨fun h => by cases h; exact .done hpi, fun h => by rw [h.unique (.done hpi)]⟩

/-- Adding turns has the result of the loop, if the loop ends. -/
theorem wrapUp_eq_ok_iff {x z : Float} : wrapUp x = .ok z ↔ TurnsOn x z := by
  by_cases hlimit : x < -limit
  · rw [wrapUp_far hlimit]
    exact iff_of_false nofun fun h => h.step_ne (lt_neg_pi_of_lt_limit hlimit) (add_turn_far hlimit)
  · by_cases hpi : x < -Angle.pi
    · obtain ⟨z', hz, hrun⟩ := wrapUp_near hpi hlimit
      rw [hz]
      exact ⟨fun h => by cases h; exact hrun, fun h => by rw [h.unique hrun]⟩
    · rw [wrapUp_of_not_lt hpi]
      exact ⟨fun h => by cases h; exact .done hpi, fun h => by rw [h.unique (.done hpi)]⟩

/-! ## The projection -/

variable (p : Albers) (geo : Point Float)

/-- The angle from the central meridian to a longitude in degrees. -/
def angleTo (lon : Float) : Float := lon * (Angle.pi / 180.0) - p.lon0

/-- Whether a longitude lies near enough to be wrapped. What is not a number does. -/
def Wraps (lon : Float) : Prop := ¬limit < p.angleTo lon ∧ ¬p.angleTo lon < -limit

instance (lon : Float) : Decidable (p.Wraps lon) :=
  inferInstanceAs (Decidable (¬limit < p.angleTo lon ∧ ¬p.angleTo lon < -limit))

/-- A longitude that is near enough has an image. -/
theorem exists_forward (h : p.Wraps geo.x) : ∃ q, p.forward geo = .ok q := by
  suffices hwrapped : ∃ x z, wrapDown (p.angleTo geo.x) = .ok x ∧ wrapUp x = .ok z by
    obtain ⟨x, z, hdown, hup⟩ := hwrapped
    exact ⟨_, bind_eq_ok.mpr ⟨x, hdown, bind_eq_ok.mpr ⟨z, hup, rfl⟩⟩⟩
  obtain ⟨habove, hbelow⟩ := h
  by_cases hpi : Angle.pi < p.angleTo geo.x
  · obtain ⟨x, hx, -, hend⟩ := wrapDown_near hpi habove
    exact ⟨x, x, hx, wrapUp_of_not_lt hend⟩
  · obtain ⟨z, hz⟩ := (exists_turnsOn_iff _).mpr hbelow
    exact ⟨_, z, wrapDown_of_not_lt hpi, wrapUp_eq_ok_iff.mpr hz⟩

theorem not_pi_lt_of_lt_limit {x : Float} (h : x < -limit) : ¬Angle.pi < x := by
  have hturn := three_lt_halfTurn
  rcases isFloatOf_neg_limit.gt_iff.mp h with ⟨a, ha, hlt⟩ | hinfinite
  · rw [isFloatOf_pi.lt_iff_lt ha]
    linarith
  · rw [isFloatOf_pi.lt_iff, hinfinite]
    rintro (⟨a, ha, -⟩ | h)
    · cases ha.isFinite
    · cases h

/-- From a longitude that is too far away turns are taken off, or added, without end. -/
theorem forward_far (h : ¬p.Wraps geo.x) : p.forward geo = .error .endlessWrap := by
  rw [Wraps, not_and_or, not_not, not_not] at h
  rcases h with habove | hbelow
  · exact bind_eq_error.mpr (.inl (wrapDown_far habove))
  · exact bind_eq_error.mpr (.inr ⟨_, wrapDown_of_not_lt (not_pi_lt_of_lt_limit hbelow),
      bind_eq_error.mpr (.inl (wrapUp_far hbelow))⟩)

end Albers

/-! ## Points, boxes and footprints -/

namespace Transformer

/-- Whether a point can be carried over: only the way into the Albers projection can be endless. -/
def Reaches (t : Transformer) (pt : Point Float) : Prop :=
  t.isIdentity = false → t.target = .australianAlbers →
    Albers.australian.Wraps (t.source.toGeographic pt).x

instance (t : Transformer) (pt : Point Float) : Decidable (t.Reaches pt) :=
  inferInstanceAs (Decidable (_ → _ → _))

variable {t : Transformer} {pt : Point Float} {points : List (Point Float)}

theorem exists_reproject (hidentity : t.isIdentity = false) (h : t.Reaches pt) :
    ∃ q, Reprojection.reproject t.source t.target pt = .ok q := by
  have h := h hidentity
  obtain ⟨source, target⟩ := t
  cases target with
  | australianAlbers => exact Albers.exists_forward _ _ (h rfl)
  | wgs84 | gda94 | webMercator | utm => exact ⟨_, rfl⟩

theorem reproject_far (h : ¬t.Reaches pt) :
    Reprojection.reproject t.source t.target pt = .error .endlessWrap := by
  simp only [Reaches, Classical.not_imp] at h
  obtain ⟨-, htarget, hfar⟩ := h
  obtain ⟨source, target⟩ := t
  subst htarget
  exact Albers.forward_far _ _ hfar

theorem exists_apply (h : t.Reaches pt) : ∃ q, t.apply pt = .ok q := by
  unfold apply
  by_cases hidentity : t.isIdentity = true
  · exact ⟨pt, if_pos hidentity⟩
  · rw [if_neg hidentity]
    exact exists_reproject (Bool.eq_false_iff.mpr hidentity) h

theorem apply_far (h : ¬t.Reaches pt) : t.apply pt = .error .endlessWrap := by
  have hidentity : ¬t.isIdentity = true := fun h' => h fun h'' => absurd h' (by rw [h'']; decide)
  rw [apply, if_neg hidentity, reproject_far h]

/-- A point has an image exactly when it can be carried over. -/
theorem exists_apply_iff : (∃ q, t.apply pt = .ok q) ↔ t.Reaches pt := by
  refine ⟨fun ⟨q, h⟩ => ?_, exists_apply⟩
  by_contra hfar
  rw [apply_far hfar] at h
  cases h

theorem exists_applyAll (h : ∀ pt ∈ points, t.Reaches pt) : ∃ qs, t.applyAll points = .ok qs := by
  unfold applyAll
  by_cases hidentity : t.isIdentity = true
  · exact ⟨points, if_pos hidentity⟩
  · rw [if_neg hidentity]
    exact exists_mapM_ok.mpr fun pt hpt =>
      exists_reproject (Bool.eq_false_iff.mpr hidentity) (h pt hpt)

theorem applyAll_far (h : ∃ pt ∈ points, ¬t.Reaches pt) :
    t.applyAll points = .error .endlessWrap := by
  obtain ⟨pt, hpt, hfar⟩ := h
  have hidentity : ¬t.isIdentity = true := by
    intro h
    exact hfar fun h' => absurd h (by rw [h']; decide)
  unfold applyAll
  rw [if_neg hidentity]
  cases hall : points.mapM (Reprojection.reproject t.source t.target) with
  | ok qs =>
    obtain ⟨q, hq⟩ := exists_mapM_ok.mp ⟨qs, hall⟩ pt hpt
    rw [reproject_far hfar] at hq
    cases hq
  | error cause =>
    obtain ⟨culprit, -, hculprit⟩ := mapM_error hall
    by_cases h : t.Reaches culprit
    · obtain ⟨q, hq⟩ := exists_reproject (Bool.eq_false_iff.mpr hidentity) h
      rw [hq] at hculprit
      cases hculprit
    · rw [reproject_far h] at hculprit
      cases hculprit
      rfl

theorem applyBox_far {b : Box Float} {count : Nat}
    (h : ∃ pt ∈ densify b.corners count, ¬t.Reaches pt) :
    t.applyBox b count = .error (.aborted .endlessWrap) := by
  obtain ⟨pt, hpt, hfar⟩ := h
  have hidentity : ¬t.isIdentity = true := fun h => hfar fun h' => absurd h (by rw [h']; decide)
  rw [applyBox, if_neg hidentity, applyAll_far ⟨pt, hpt, hfar⟩]
  rfl

/-- The image of a box is sought without end exactly when that of a point of its outline is. -/
theorem applyBox_aborts_iff {b : Box Float} {count : Nat} :
    (∃ cause, t.applyBox b count = .error (.aborted cause)) ↔
      ∃ pt ∈ densify b.corners count, ¬t.Reaches pt := by
  refine ⟨fun ⟨cause, h⟩ => ?_, fun h => ⟨_, applyBox_far h⟩⟩
  by_contra hnone
  push Not at hnone
  obtain ⟨qs, hqs⟩ := exists_applyAll hnone
  rw [applyBox, hqs, Stop.liftAbort_ok, ok_bind] at h
  split at h
  · cases h
  · split at h <;> cases h

end Transformer

/-- A footprint is carried over without end exactly when a point of its outline is. -/
theorem Dataset.footprintIn_aborts_iff {d : Dataset Float} {crs : Crs} {count : Nat} :
    (∃ cause, d.footprintIn crs count = .error (.aborted cause)) ↔
      crs ≠ d.crs ∧
        ∃ pt ∈ densify d.footprint.points count, ¬(Transformer.mk d.crs crs).Reaches pt := by
  constructor
  · rintro ⟨cause, h⟩
    rw [footprintIn] at h
    split at h
    · cases h
    · next hcrs =>
      refine ⟨hcrs, ?_⟩
      by_contra hnone
      push Not at hnone
      obtain ⟨qs, hqs⟩ := Transformer.exists_applyAll hnone
      rw [hqs, Stop.liftAbort_ok, ok_bind] at h
      split at h <;> cases h
  · rintro ⟨hcrs, h⟩
    exact ⟨.endlessWrap, by rw [footprintIn, if_neg hcrs, Transformer.applyAll_far h]; rfl⟩

/-! ## Which coordinates are projected -/

/-- Wrapping an angle in the Albers projection has the results of the two loops, which end exactly
for angles up to `2 ^ 56` either way, what is not a number included. Points, boxes and footprints are
carried over exactly when the longitudes on the way into that projection lie that near. -/
theorem Albers.ends_iff_near (x : Float) (p : Albers) (geo : Point Float) (t : Transformer)
    (pt : Point Float) (b : Box Float) (d : Dataset Float) (crs : Crs) (count : Nat) :
    (∀ z, Albers.wrapDown x = .ok z ↔ Albers.TurnsOff x z) ∧
    (∀ z, Albers.wrapUp x = .ok z ↔ Albers.TurnsOn x z) ∧
    ((∃ z, Albers.TurnsOff x z) ↔ ¬Albers.limit < x) ∧
    ((∃ z, Albers.TurnsOn x z) ↔ ¬x < -Albers.limit) ∧
    ((∃ q, p.forward geo = .ok q) ↔ p.Wraps geo.x) ∧
    ((∃ q, t.apply pt = .ok q) ↔ t.Reaches pt) ∧
    ((∃ cause, t.applyBox b count = .error (.aborted cause)) ↔
      ∃ pt ∈ densify b.corners count, ¬t.Reaches pt) ∧
    ((∃ cause, d.footprintIn crs count = .error (.aborted cause)) ↔
      crs ≠ d.crs ∧
        ∃ pt ∈ densify d.footprint.points count, ¬(Transformer.mk d.crs crs).Reaches pt) := by
  refine ⟨fun z => Albers.wrapDown_eq_ok_iff, fun z => Albers.wrapUp_eq_ok_iff,
    Albers.exists_turnsOff_iff x, Albers.exists_turnsOn_iff x, ?_,
    Transformer.exists_apply_iff, Transformer.applyBox_aborts_iff, Dataset.footprintIn_aborts_iff⟩
  refine ⟨fun ⟨q, h⟩ => ?_, Albers.exists_forward p geo⟩
  by_contra hfar
  rw [Albers.forward_far p geo hfar] at h
  cases h

/-- From an infinite longitude turns are taken off without end, and so they are on the way of a
valid box of longitudes and latitudes into the Albers projection. -/
theorem Albers.endless_for_infinite_longitude :
    Albers.australian.forward ⟨1.0 / 0.0, 0.0⟩ = .error .endlessWrap ∧
      (¬∃ z, Albers.TurnsOff (Albers.australian.angleTo (1.0 / 0.0)) z) ∧
      (Box.mk (0.0 : Float) (-1.0) 1e300 1.0).isValid = true ∧
      (Transformer.mk .wgs84 .australianAlbers).applyBox ⟨0.0, -1.0, 1e300, 1.0⟩ 20 =
        .error (.aborted .endlessWrap) := by
  refine ⟨Albers.forward_far _ _ (by decide +kernel), ?_, by decide +kernel, ?_⟩
  · rw [Albers.exists_turnsOff_iff, not_not]
    decide +kernel
  · exact Transformer.applyBox_far (by decide +kernel)

end Mosaic
