import Mosaic.Proofs.Binary.Unpacked

/-!
# Rounding with guard bits

A mantissa that is too long is shifted to the right, and two bits keep what was lost: the last bit
that went out and whether one before it was set. They tell exactly where the fraction lies between
the mantissa and the next whole number (`Shows`), so that rounding by them is rounding to the
nearest whole number. A float that is rounded in this way becomes the canonical one of the nearest
number of the format (`isFloatOf_round`).
-/

namespace Mosaic.Binary

open Float.Model (Format UnpackedFloat totalExponent)
open Float.Model.UnpackedFloat (Sign ExtendedMantissa)

/-- The guard bits tell where a fraction lies between the mantissa and the next whole number. -/
structure Shows (em : ExtendedMantissa) (x : Rat) : Prop where
  whole : (em.mantissa : Int) = ⌊x⌋
  round_iff : em.roundBit = true ↔ 1 / 2 ≤ Int.fract x
  sticky_iff : em.stickyBit = true ↔ Int.fract x ≠ 0 ∧ Int.fract x ≠ 1 / 2

theorem shows_exact (m : Nat) : Shows (.ofMantissaAndAccuracy m .exact) m where
  whole := (Int.floor_natCast m).symm
  round_iff := by norm_num [ExtendedMantissa.ofMantissaAndAccuracy]
  sticky_iff := by norm_num [ExtendedMantissa.ofMantissaAndAccuracy]

/-- Halving a number moves the last bit of its whole part into the fraction. -/
theorem fract_half (x : Rat) : Int.fract (x / 2) = ((⌊x⌋ % 2 : Int) + Int.fract x) / 2 := by
  have hfloor : ⌊x / 2⌋ = ⌊x⌋ / 2 := by simpa using Int.floor_div_natCast x 2
  have hdiv : (⌊x⌋ : Rat) = 2 * (⌊x⌋ / 2 : Int) + (⌊x⌋ % 2 : Int) := by
    exact_mod_cast (Int.mul_ediv_add_emod ⌊x⌋ 2).symm
  have hx := Int.self_sub_floor x
  rw [← Int.self_sub_floor (x / 2), hfloor, ← hx, hdiv]
  ring

theorem Shows.shiftRightOne {em : ExtendedMantissa} {x : Rat} (h : Shows em x) :
    Shows em.shiftRightOne (x / 2) := by
  have hlow := Int.fract_nonneg x
  have hhigh := Int.fract_lt_one x
  -- the bit that goes out next is the parity of the mantissa; all later bits go into the sticky one
  have hmantissa : em.mantissa % 2 = 0 ∧ ⌊x⌋ % 2 = 0 ∨ em.mantissa % 2 = 1 ∧ ⌊x⌋ % 2 = 1 := by
    have := h.whole
    omega
  have hsticky : (em.roundBit || em.stickyBit) = true ↔ Int.fract x ≠ 0 := by
    rw [Bool.or_eq_true, h.round_iff, h.sticky_iff]
    constructor
    · rintro (hround | hsticky)
      · linarith
      · exact hsticky.1
    · intro hne
      by_cases hround : 1 / 2 ≤ Int.fract x
      · exact .inl hround
      · exact .inr ⟨hne, fun heq => hround heq.ge⟩
  refine ⟨?_, ?_, hsticky.trans ?_⟩
  · have hfloor : ⌊x / 2⌋ = ⌊x⌋ / 2 := by simpa using Int.floor_div_natCast x 2
    rw [hfloor, ← h.whole]
    rfl
  · rw [fract_half]
    obtain ⟨heven, hfloor⟩ | ⟨hodd, hfloor⟩ := hmantissa <;>
      simp only [ExtendedMantissa.shiftRightOne, *] <;> norm_num <;> linarith
  · rw [fract_half]
    obtain ⟨heven, hfloor⟩ | ⟨hodd, hfloor⟩ := hmantissa <;> rw [hfloor] <;> push_cast
    · constructor
      · exact fun hne => ⟨by contrapose! hne; linarith, by intro heq; linarith⟩
      · rintro ⟨hne, -⟩ heq
        exact hne (by rw [heq]; norm_num)
    · constructor
      · exact fun hne => ⟨by intro heq; linarith, by contrapose! hne; linarith⟩
      · rintro ⟨-, hne⟩ heq
        exact hne (by rw [heq]; norm_num)

theorem Shows.shiftRight {em : ExtendedMantissa} {x : Rat} (h : Shows em x) (n : Nat) :
    Shows (em >>> n) (x / 2 ^ n) := by
  induction n with
  | zero =>
    rw [pow_zero, div_one]
    exact h
  | succ n ih =>
    rw [pow_succ, ← div_div]
    exact ih.shiftRightOne

theorem Shows.roundedMantissa_eq {em : ExtendedMantissa} {x : Rat} (h : Shows em x) :
    (em.roundedMantissa : Int) = nearestEven x := by
  obtain ⟨m, round, sticky⟩ := em
  obtain ⟨hwhole, hround, hsticky⟩ := h
  simp only at hwhole hround hsticky
  have hmod : ((m % 2 : Nat) : Int) = ⌊x⌋ % 2 := by omega
  unfold nearestEven
  match round, sticky with
  | false, false | false, true =>
    have hlt : Int.fract x < 1 / 2 := not_le.mp fun h => Bool.false_ne_true (hround.mpr h)
    rw [if_pos hlt, ← hwhole]
    rfl
  | true, false =>
    have hle : 1 / 2 ≤ Int.fract x := hround.mp rfl
    have heq : Int.fract x = 1 / 2 := by
      by_contra hne
      exact Bool.false_ne_true (hsticky.mpr ⟨by linarith, hne⟩)
    rw [heq, if_neg (lt_irrefl _), if_neg (lt_irrefl _), ← hmod, ← hwhole]
    rfl
  | true, true =>
    have hle : 1 / 2 ≤ Int.fract x := hround.mp rfl
    have hne := (hsticky.mp rfl).2
    rw [if_neg (not_lt.mpr hle), if_pos (lt_of_le_of_ne hle hne.symm), ← hwhole]
    rfl

/-! ## Rounding an unpacked float -/

theorem mantissa_ofMantissaAndAccuracy (m : Nat) (acc : UnpackedFloat.Accuracy) :
    (ExtendedMantissa.ofMantissaAndAccuracy m acc).mantissa = m := by
  match acc with
  | .exact | .inexact .lt | .inexact .eq | .inexact .gt => rfl

/-- The whole part of a number that is measured in a fine enough unit has the size of the number. -/
theorem targetExponent_of_floor (spec : Format) {m : Nat} {e : Int} {x : Rat} (hx : 0 < x)
    (hm : (m : Int) = ⌊x / 2 ^ e⌋) (he : e ≤ exponentOf spec x) :
    spec.targetExponent (totalExponent m e) = exponentOf spec x := by
  have hbits : 0 < spec.mantissaBits := by unfold Format.mantissaBits; omega
  have hlt : x < (m + 1) * 2 ^ e := by
    have := Int.lt_floor_add_one (x / 2 ^ e)
    rw [← hm, div_lt_iff₀ (two_zpow_pos e)] at this
    exact_mod_cast this
  rcases Nat.eq_zero_or_pos m with rfl | hpos
  · -- the unit is larger than the number, so both have the least exponent
    have hle := exponentOf_le_of_lt spec hx (n := e) (by simpa using hlt)
    have hmin := minExponent_le_exponentOf spec x
    unfold totalExponent Format.targetExponent
    rw [Nat.log2_zero]
    omega
  · have hge : (m : Rat) * 2 ^ e ≤ x := by
      have := Int.floor_le (x / 2 ^ e)
      rw [← hm, le_div_iff₀ (two_zpow_pos e)] at this
      exact_mod_cast this
    have hlow : m.log2 + e ≤ Int.log 2 x :=
      (log_scaled hpos e).symm.le.trans (Int.log_mono_right (magnitude_pos hpos e) hge)
    have hhigh : Int.log 2 x < m.log2 + 1 + e := by
      refine (Int.lt_zpow_iff_log_lt one_lt_two hx).mp (hlt.trans_le ?_)
      push_cast
      rw [show (m.log2 : Int) + 1 + e = ((m.log2 + 1 : Nat) : Int) + e by push_cast; ring,
        zpow_add₀ two_ne_zero, zpow_natCast]
      refine mul_le_mul_of_nonneg_right ?_ (two_zpow_pos e).le
      exact_mod_cast Nat.lt_log2_self
    rw [exponentOf, abs_of_pos hx, totalExponent]
    congr 1
    omega

section WithAccuracy

variable (spec : Format) {m : Nat} {e : Int} {acc : UnpackedFloat.Accuracy} {x : Rat}

theorem shiftToTargetExponent_of_shows (hx : 0 < x)
    (h : Shows (.ofMantissaAndAccuracy m acc) (x / 2 ^ e)) (he : e ≤ exponentOf spec x) :
    ∃ em, UnpackedFloat.shiftToTargetExponent spec m e acc = (em, exponentOf spec x) ∧
      Shows em (x / 2 ^ exponentOf spec x) := by
  have hm := h.whole
  rw [mantissa_ofMantissaAndAccuracy] at hm
  have htarget := targetExponent_of_floor spec hx hm he
  obtain ⟨n, hn⟩ := Int.le.dest he
  refine ⟨ExtendedMantissa.ofMantissaAndAccuracy m acc >>> n, ?_, ?_⟩
  · simp only [UnpackedFloat.shiftToTargetExponent, UnpackedFloat.shiftToExponent,
      htarget, ← hn, add_sub_cancel_left, Int.toNat_natCast]
  · have hvalue : x / 2 ^ exponentOf spec x = x / 2 ^ e / 2 ^ n := by
      rw [← hn, zpow_add₀ two_ne_zero, zpow_natCast, div_div]
    rw [hvalue]
    exact h.shiftRight n

theorem shiftToTargetExponent_zero (e : Int) :
    (UnpackedFloat.shiftToTargetExponent spec 0 e .exact).1.mantissa = 0 := by
  have h := ((shows_exact 0).shiftRight (spec.targetExponent (totalExponent 0 e) - e).toNat).whole
  rw [Nat.cast_zero, zero_div, Int.floor_zero] at h
  exact_mod_cast h

theorem nearest_sign (s : Sign) (x : Rat) :
    nearest spec ((s.apply 1 : Int) * x) = (s.apply 1 : Int) * nearest spec x := by
  cases s <;> simp [Sign.apply, nearest_neg]

/-- A number that is known well enough in a fine enough unit is rounded to the nearest float. -/
theorem isFloatOf_of_shows (s : Sign) (hx : 0 < x)
    (h : Shows (.ofMantissaAndAccuracy m acc) (x / 2 ^ e)) (he : e ≤ exponentOf spec x) :
    IsFloatOf spec (nearest spec ((s.apply 1 : Int) * x))
      (UnpackedFloat.roundWithAccuracy spec s m e acc) := by
  obtain ⟨em, hshift, hshows⟩ := shiftToTargetExponent_of_shows spec hx h he
  have hvalue : (em.roundedMantissa : Rat) * 2 ^ exponentOf spec x = nearest spec x := by
    rw [nearest, ← hshows.roundedMantissa_eq, Int.cast_natCast]
  unfold UnpackedFloat.roundWithAccuracy
  rw [hshift, nearest_sign]
  dsimp only
  by_cases hzero : em.roundedMantissa = 0
  · rw [dif_pos (by rw [hzero]; exact shiftToTargetExponent_zero spec _), ← hvalue, hzero]
    exact ⟨rfl, trivial, by simp [valueOf_zero]⟩
  -- the second rounding is only there for a mantissa that became one bit too long: what it is given
  -- is a number of the format already, and its guard bits stay empty
  · have hpos : 0 < em.roundedMantissa := Nat.pos_of_ne_zero hzero
    have hshown : Shows (.ofMantissaAndAccuracy em.roundedMantissa .exact)
        (nearest spec x / 2 ^ exponentOf spec x) := by
      rw [← hvalue, mul_div_cancel_right₀ _ (two_zpow_pos _).ne']
      exact shows_exact _
    have hnearest : 0 < nearest spec x := hvalue ▸ magnitude_pos hpos _
    obtain ⟨em', hshift', hshows'⟩ := shiftToTargetExponent_of_shows spec hnearest hshown
      (exponentOf_le_exponentOf_nearest spec hx)
    have hwhole : (em'.mantissa : Rat) * 2 ^ exponentOf spec (nearest spec x) =
        nearest spec x := by
      obtain ⟨k, hk⟩ := exists_nearest_div spec x
      have hfloor := hshows'.whole
      rw [hk, Int.floor_intCast] at hfloor
      rw [← Int.cast_natCast, hfloor, ← hk, div_mul_cancel₀ _ (two_zpow_pos _).ne']
    have hnonzero : em'.mantissa ≠ 0 := by
      intro h
      rw [h, Nat.cast_zero, zero_mul] at hwhole
      exact hnearest.ne hwhole
    rw [hshift']
    dsimp only
    rw [dif_neg hnonzero]
    refine ⟨rfl, isCanonical_of_exponentOf s _ (by rw [hwhole]), ?_⟩
    rw [valueOf_finite, ← sign_mul, hwhole]

/-- A float that is rounded to a multiple of the right power of two needs no second rounding. -/
theorem isFloatOf_roundWithAccuracy (s : Sign) (hm : 0 < m)
    (he : e ≤ exponentOf spec (m * 2 ^ e)) :
    IsFloatOf spec (nearest spec ((s.apply m : Int) * 2 ^ e))
      (UnpackedFloat.roundWithAccuracy spec s m e .exact) := by
  have hshows : Shows (.ofMantissaAndAccuracy m .exact) ((m : Rat) * 2 ^ e / 2 ^ e) := by
    rw [mul_div_cancel_right₀ _ (two_zpow_pos e).ne']
    exact shows_exact m
  rw [← sign_mul]
  exact isFloatOf_of_shows spec s (magnitude_pos hm e) hshows he

end WithAccuracy

/-- The exponent can be made small enough for rounding without a change of the value. -/
theorem decreaseExponent_spec {m : Nat} (hm : 0 < m) (e target : Int) :
    0 < (UnpackedFloat.decreaseExponent m e target).1 ∧
      ((UnpackedFloat.decreaseExponent m e target).1 : Rat) *
        2 ^ (UnpackedFloat.decreaseExponent m e target).2 = m * 2 ^ e ∧
      (UnpackedFloat.decreaseExponent m e target).2 ≤ target := by
  refine ⟨?_, ?_, ?_⟩
  · rw [UnpackedFloat.decreaseExponent, Nat.shiftLeft_eq]
    positivity
  · simp only [UnpackedFloat.decreaseExponent, Nat.shiftLeft_eq]
    push_cast
    rw [zpow_sub₀ two_ne_zero, zpow_natCast]
    field_simp
  · simp only [UnpackedFloat.decreaseExponent]
    omega

/-- Rounding gives the canonical float of the nearest number of the format. -/
theorem isFloatOf_round (spec : Format) (s : Sign) {m : Nat} (hm : 0 < m) (e : Int) :
    IsFloatOf spec (nearest spec ((s.apply m : Int) * 2 ^ e)) (UnpackedFloat.round spec s m e) := by
  obtain ⟨hpos, hvalue, hle⟩ :=
    decreaseExponent_spec hm e (spec.targetExponent (totalExponent m e))
  have hunfold : UnpackedFloat.round spec s m e = UnpackedFloat.roundWithAccuracy spec s
      (UnpackedFloat.decreaseExponent m e (spec.targetExponent (totalExponent m e))).1
      (UnpackedFloat.decreaseExponent m e (spec.targetExponent (totalExponent m e))).2 .exact := rfl
  rw [hunfold, ← sign_mul, ← hvalue, sign_mul]
  refine isFloatOf_roundWithAccuracy spec s hpos ?_
  rwa [hvalue, exponentOf_scaled spec hm]

theorem isFloatOf_normalize (spec : Format) (m e : Int) (zeroSign : Sign) :
    IsFloatOf spec (nearest spec (m * 2 ^ e)) (UnpackedFloat.normalize spec m e zeroSign) := by
  unfold UnpackedFloat.normalize
  rcases lt_trichotomy m 0 with hlt | rfl | hlt
  · have h := isFloatOf_round spec .negative (m := (-m).toNat) (by omega) e
    rw [Sign.apply, Int.toNat_of_nonneg (by omega), neg_neg] at h
    rw [compare_lt_iff_lt.mpr hlt]
    exact h
  · rw [compare_eq_iff_eq.mpr rfl, Int.cast_zero, zero_mul, nearest_zero]
    exact ⟨rfl, trivial, rfl⟩
  · have h := isFloatOf_round spec .positive (m := m.toNat) (by omega) e
    rw [Sign.apply, Int.toNat_of_nonneg hlt.le] at h
    rw [compare_gt_iff_gt.mpr hlt]
    exact h

end Mosaic.Binary
