import Mosaic.Proofs.Binary.Sums

/-!
# Whole numbers of a format

A format with `p` bits of mantissa has every whole number up to `2 ^ p` in size. Beyond that it has
holes: from `2 ^ (p - 1)` on all its numbers are whole (`exists_intCast_of_large`), and from `2 ^ p`
on they are even (`even_of_large`). So a number of the format that is rounded to a whole number is
one of the format again, and a step by one from a large number has to be rounded back or rounded on:
it is lost where the number is a multiple of four and doubled elsewhere (`nearest_add_unit`).
-/

namespace Mosaic.Binary

open Float.Model (Format UnpackedFloat)
open Float.Model.UnpackedFloat (Sign)

section Format

variable (spec : Format) {x : Rat} {n s : Int}

/-- A number of a format is a multiple of the power of two that belongs to its size. -/
theorem exists_multiple_of_nearest (h : nearest spec x = x) :
    ∃ k : Int, x = k * 2 ^ exponentOf spec x :=
  ⟨_, h.symm⟩

theorem le_exponentOf_of_le_abs {n : Int} (h : 2 ^ n ≤ |x|) :
    n + 1 - spec.mantissaBits ≤ exponentOf spec x := by
  rw [← exponentOf_abs]
  exact le_exponentOf_of_le spec h

/-- From the size on at which the mantissa has no places behind the point, all numbers of a format
are whole. -/
theorem exists_intCast_of_large (h : nearest spec x = x)
    (hlarge : 2 ^ spec.mantissaBitsWithoutImplicit ≤ |x|) : ∃ k : Int, x = k := by
  obtain ⟨k, hk⟩ := exists_multiple_of_nearest spec h
  have hexp : 0 ≤ exponentOf spec x := by
    have hle := le_exponentOf_of_le_abs spec (x := x)
      (n := spec.mantissaBitsWithoutImplicit) (by rwa [zpow_natCast])
    unfold Format.mantissaBits at hle
    omega
  obtain ⟨k', hk'⟩ := exists_multiple k hexp
  refine ⟨k', ?_⟩
  rw [hk, hk', zpow_zero, mul_one]

/-- A number of a format that is rounded to a whole number is one of the format again. -/
theorem nearest_round (hmin : spec.minExponent ≤ 0) (h : nearest spec x = x) :
    nearest spec (Exact.round x : Int) = (Exact.round x : Int) := by
  rcases le_or_gt (2 ^ spec.mantissaBitsWithoutImplicit) |x| with hlarge | hsmall
  · obtain ⟨k, rfl⟩ := exists_intCast_of_large spec h hlarge
    rw [Exact.round_intCast]
    exact h
  · apply nearest_intCast spec hmin
    have hbits : (2 : Int) ^ spec.mantissaBitsWithoutImplicit ≤ 2 ^ spec.mantissaBits := by
      apply pow_le_pow_right₀ one_le_two
      unfold Format.mantissaBits
      omega
    have hbound : |x| ≤ ((2 ^ spec.mantissaBitsWithoutImplicit : Int) : Rat) := by
      push_cast
      exact hsmall.le
    exact (Exact.abs_round_le hbound).trans hbits

/-- A number too long for the mantissa has a positive exponent. -/
theorem one_le_exponentOf (hlarge : 2 ^ spec.mantissaBits ≤ |n|) :
    1 ≤ exponentOf spec (n : Rat) := by
  have hpow : (2 : Rat) ^ (spec.mantissaBits : Int) ≤ |(n : Rat)| := by
    rw [zpow_natCast]
    exact_mod_cast hlarge
  have hle := le_exponentOf_of_le_abs spec hpow
  omega

/-- A multiple of a power of two, as whole numbers. -/
theorem dvd_of_eq_mul_zpow {k e : Int} {i : Nat} (h : (n : Rat) = k * 2 ^ e) (hi : i ≤ e) :
    (2 ^ i : Int) ∣ n := by
  obtain ⟨k', hk'⟩ := exists_multiple k hi
  rw [hk', zpow_natCast] at h
  refine ⟨k', ?_⟩
  rw [mul_comm]
  exact_mod_cast h

/-- Whole numbers too long for the mantissa are even, if the format has them at all. -/
theorem even_of_large (h : nearest spec n = n) (hlarge : 2 ^ spec.mantissaBits ≤ |n|) : 2 ∣ n := by
  obtain ⟨k, hk⟩ := exists_multiple_of_nearest spec h
  have hdvd := dvd_of_eq_mul_zpow (i := 1) hk (one_le_exponentOf spec hlarge)
  simpa using hdvd

/-- The neighbours of a large number of a format have an exponent that is not too large for the
number itself: a power of two between them would have to be odd. -/
theorem exists_multiple_of_neighbour (h : nearest spec n = n) (hlarge : 2 ^ spec.mantissaBits ≤ |n|)
    (hs : |s| = 1) (hnext : 2 ^ spec.mantissaBits ≤ |n + s|) :
    ∃ k : Int, (n : Rat) = k * 2 ^ exponentOf spec ((n + s : Int) : Rat) := by
  obtain ⟨k, hk⟩ := exists_multiple_of_nearest spec h
  rcases le_or_gt (exponentOf spec ((n + s : Int) : Rat)) (exponentOf spec (n : Rat)) with hle | hlt
  · obtain ⟨k', hk'⟩ := exists_multiple k hle
    exact ⟨k', hk.trans hk'⟩
  · exfalso
    have hpos := one_le_exponentOf spec hlarge
    obtain ⟨i, hi⟩ : ∃ i : Nat, (spec.mantissaBits : Int) + exponentOf spec (n : Rat) = i + 1 :=
      ⟨(spec.mantissaBits + exponentOf spec (n : Rat) - 1).toNat, by omega⟩
    -- the number is below the power of two at which its mantissa overflows, its neighbour is not
    have hbelow : |n| < 2 * 2 ^ i := by
      have hover := abs_lt_mantissa_overflow spec (n : Rat)
      rw [hi, zpow_add_one₀ two_ne_zero, zpow_natCast] at hover
      have hcast : ((|n| : Int) : Rat) < ((2 * 2 ^ i : Int) : Rat) := by
        push_cast
        linarith
      exact_mod_cast hcast
    have habove : 2 * 2 ^ i ≤ |n + s| := by
      have hne : ((n + s : Int) : Rat) ≠ 0 := by
        have hbits : (0 : Int) < 2 ^ spec.mantissaBits := by positivity
        rw [Int.cast_ne_zero, ← abs_pos]
        omega
      have hfull := mantissa_full_le spec hne ((minExponent_le_exponentOf spec _).trans_lt hlt)
      have hpow : (2 : Rat) ^ ((i : Int) + 1) ≤ |((n + s : Int) : Rat)| := by
        refine le_trans (zpow_le_zpow_right₀ one_le_two ?_) hfull
        unfold Format.mantissaBits at hi
        push_cast at hi
        omega
      rw [zpow_add_one₀ two_ne_zero, zpow_natCast] at hpow
      have hcast : ((2 * 2 ^ i : Int) : Rat) ≤ ((|n + s| : Int) : Rat) := by
        push_cast at hpow ⊢
        linarith
      exact_mod_cast hcast
    have heven : 2 ∣ |n| := (dvd_abs 2 n).mpr (even_of_large spec h hlarge)
    have hstep : |n + s| ≤ |n| + 1 := hs ▸ abs_add_le n s
    omega

/-- A step by one from a large number of a format: where the number is a multiple of four the step is
lost, and elsewhere it is doubled, since of the two neighbours the next one but one is even. -/
theorem nearest_add_unit (h : nearest spec n = n) (hlarge : 2 ^ spec.mantissaBits ≤ |n|)
    (hs : |s| = 1) (hnext : 2 ^ spec.mantissaBits ≤ |n + s|) :
    nearest spec ((n + s : Int) : Rat) = if 4 ∣ n then (n : Rat) else ((n + 2 * s : Int) : Rat) := by
  obtain ⟨k, hk⟩ := exists_multiple_of_neighbour spec h hlarge hs hnext
  have hexp := one_le_exponentOf spec hnext
  unfold nearest
  generalize exponentOf spec ((n + s : Int) : Rat) = e at hk hexp ⊢
  have hpos := two_zpow_pos e
  have hquotient : ((n + s : Int) : Rat) / 2 ^ e = k + s / 2 ^ e := by
    rw [Int.cast_add, add_div, hk, mul_div_cancel_right₀ _ hpos.ne']
  have hunit : |(s : Rat)| = 1 := by exact_mod_cast hs
  rcases hexp.eq_or_lt with rfl | hexp
  · -- one place is lost, so the step ends half-way between two numbers, and the even one is taken
    have htwo : n = 2 * k := by
      have : (n : Rat) = ((2 * k : Int) : Rat) := by
        rw [hk]
        push_cast
        ring
      exact_mod_cast this
    rw [hquotient]
    split_ifs with hfour
    · have hround : nearestEven ((k : Rat) + s / 2 ^ (1 : Int)) = k := by
        apply nearestEven_eq_of_abs_sub_le (by omega)
        rw [add_sub_cancel_left, abs_div, hunit]
        norm_num
      rw [hround, hk]
    · have hodd : (k + s) % 2 = 0 := by
        rcases (abs_eq one_pos.le).mp hs with rfl | rfl <;> omega
      have hround : nearestEven ((k : Rat) + s / 2 ^ (1 : Int)) = k + s := by
        apply nearestEven_eq_of_abs_sub_le hodd
        have hdiff : (k : Rat) + s / 2 ^ (1 : Int) - ((k + s : Int) : Rat) = -(s / 2) := by
          push_cast
          ring
        rw [hdiff, abs_neg, abs_div, hunit]
        norm_num
      rw [hround, htwo]
      push_cast
      ring
  · -- two places and more are lost, and the step is too small
    have hfour : 4 ∣ n := by
      have hdvd := dvd_of_eq_mul_zpow (i := 2) hk (by omega)
      norm_num at hdvd
      exact hdvd
    have hsmall : (4 : Rat) ≤ 2 ^ e := by
      calc (4 : Rat) = 2 ^ (2 : Int) := by norm_num
        _ ≤ 2 ^ e := zpow_le_zpow_right₀ one_le_two (by omega)
    have hround : nearestEven ((k : Rat) + s / 2 ^ e) = k := by
      apply nearestEven_eq_of_abs_sub_lt
      rw [add_sub_cancel_left, abs_div, hunit, abs_of_pos hpos, div_lt_div_iff₀ hpos two_pos]
      linarith
    rw [hquotient, hround, if_pos hfour, hk]

end Format

/-! ## The floor of a whole number -/

/-- Places behind the point that hold nothing are cut off without a change. -/
theorem wholeOf_down {s : Sign} {m : Nat} {e n : Int} (he : e < 0)
    (h : ((s.apply m : Int) * 2 ^ e : Rat) = n) : wholeOf .down s m e = n := by
  obtain ⟨k, hk⟩ := Int.eq_ofNat_of_zero_le (Int.neg_nonneg.mpr he.le)
  have hscaled : s.apply m = n * (2 ^ k : Nat) := by
    have hcancel : ((s.apply m : Int) : Rat) = n * 2 ^ (k : Int) := by
      rw [← h, ← Int.ofNat_eq_natCast, ← hk, mul_assoc, ← zpow_add₀ two_ne_zero, add_neg_cancel,
        zpow_zero, mul_one]
    rw [zpow_natCast] at hcancel
    exact_mod_cast hcancel
  have hpos : 0 < 2 ^ k := Nat.two_pow_pos k
  unfold wholeOf
  rw [if_neg (not_le.mpr he), hk, Int.toNat_natCast]
  cases s with
  | positive =>
    show ((m / 2 ^ k : Nat) : Int) = n
    rw [Sign.apply] at hscaled
    rw [Int.natCast_div, hscaled, Int.mul_ediv_cancel _ (by exact_mod_cast hpos.ne')]
  | negative =>
    have hm : (m : Int) = -n * (2 ^ k : Nat) := by
      rw [Sign.apply] at hscaled
      rw [neg_mul, ← hscaled, neg_neg]
    have hexact : m % 2 ^ k = 0 := by
      have hdvd : ((2 ^ k : Nat) : Int) ∣ m := ⟨-n, hm.trans (mul_comm _ _)⟩
      exact Nat.mod_eq_zero_of_dvd (Int.natCast_dvd_natCast.mp hdvd)
    show (if m % 2 ^ k == 0 then -((m / 2 ^ k : Nat) : Int) else _) = n
    rw [if_pos (by simp [hexact]), Int.natCast_div, hm,
      Int.mul_ediv_cancel _ (by exact_mod_cast hpos.ne'), neg_neg]

/-- A whole number is its own floor. -/
theorem isFloatOf_floor {x : Float} {n : Int} (h : IsFloatOf .binary64 n (unpack x)) :
    IsFloatOf .binary64 n (unpack (Binary.floor x)) := by
  obtain ⟨hfinite, hcanonical, hvalue⟩ := h
  unfold Binary.floor toWhole
  match hu : unpack x, hfinite, hcanonical, hvalue with
  | .zero s, _, _, hvalue =>
    dsimp only
    rw [hu]
    exact ⟨rfl, trivial, hvalue⟩
  | .finite s m e hm, _, hcanonical, hvalue =>
    dsimp only
    split_ifs with he
    · rw [hu]
      exact ⟨rfl, hcanonical, hvalue⟩
    · have hwhole : wholeOf .down s m e = n := wholeOf_down (not_le.mp he) hvalue
      have hlt := (abs_wholeOf_down_le s hm (not_le.mp he)).trans_lt
        (show ((m : Nat) : Int) < 2 ^ 53 by exact_mod_cast hcanonical.1)
      have hne : n ≠ 0 := by
        rintro rfl
        exact valueOf_finite_ne_zero s m e hm (hvalue.trans Int.cast_zero)
      rw [hwhole] at hlt ⊢
      split
      · exact absurd rfl hne
      · exact isFloatOf_ofInt hlt

/-! ## Sums of singles -/

section Single

variable {x y : Float32} {a b : Rat}

theorem unpackSingle_ofModel {u : UnpackedFloat} (h : IsStorable .binary32 u) :
    unpackSingle (.ofModel (.pack u)) = u :=
  unpack_pack h

/-- The sum of two singles is the nearest single, unless it is out of range. -/
theorem isFloatOf_add_single (hx : IsFloatOf .binary32 a (unpackSingle x))
    (hy : IsFloatOf .binary32 b (unpackSingle y)) (h : |nearest .binary32 (a + b)| < 2 ^ 128) :
    IsFloatOf .binary32 (nearest .binary32 (a + b)) (unpackSingle (x + y)) := by
  have hsum := hx.add hy
  have hunfold : x + y =
      .ofModel (.pack (UnpackedFloat.add .binary32 (unpackSingle x) (unpackSingle y))) := rfl
  rw [hunfold, unpackSingle_ofModel (hsum.isStorable_single h)]
  exact hsum

theorem isFloatOf_sub_single (hx : IsFloatOf .binary32 a (unpackSingle x))
    (hy : IsFloatOf .binary32 b (unpackSingle y)) (h : |nearest .binary32 (a - b)| < 2 ^ 128) :
    IsFloatOf .binary32 (nearest .binary32 (a - b)) (unpackSingle (x - y)) := by
  have hsum := hx.add hy.neg
  have hunfold : x - y =
      .ofModel (.pack (UnpackedFloat.sub .binary32 (unpackSingle x) (unpackSingle y))) := rfl
  rw [← sub_eq_add_neg] at hsum
  rw [hunfold, sub_eq_add, unpackSingle_ofModel (hsum.isStorable_single h)]
  exact hsum

theorem isFloatOf_neg_single (hx : IsFloatOf .binary32 a (unpackSingle x)) :
    IsFloatOf .binary32 (-a) (unpackSingle (-x)) := by
  have hneg := hx.neg
  have hunfold : -x = .ofModel (.pack (unpackSingle x).neg) := rfl
  have hbound : |-a| < 2 ^ 128 := by
    rw [abs_neg, ← hx.value]
    exact (isStorable_single x).abs_valueOf_lt
  rw [hunfold, unpackSingle_ofModel (hneg.isStorable_single hbound)]
  exact hneg

/-- The value of a positive single is read off its mantissa and exponent. -/
theorem isFloatOf_positive {m : Nat} {e : Int} {hm : 0 < m}
    (hx : unpackSingle x = .finite .positive m e hm) (hvalue : (m : Rat) * 2 ^ e = a) :
    IsFloatOf .binary32 a (unpackSingle x) := by
  refine ⟨?_, (isStorable_single x).isCanonical, ?_⟩
  · rw [hx]
    rfl
  · rw [hx, valueOf_finite, ← hvalue]
    rfl

/-- Singles that are numbers are in a total order. -/
theorem single_lt_iff_not_le (hx : x.isNaN = false) (hy : y.isNaN = false) : x < y ↔ ¬y ≤ x := by
  rw [single_lt_iff hx hy, single_le_iff hy hx, not_le]

/-- Finite singles compare as their values do. -/
theorem IsFloatOf.single_le_iff_le (hx : IsFloatOf .binary32 a (unpackSingle x))
    (hy : IsFloatOf .binary32 b (unpackSingle y)) : x ≤ y ↔ a ≤ b := by
  rw [single_le_iff hx.isNaN_eq hy.isNaN_eq, hx.rank_eq, hy.rank_eq, WithBot.coe_le_coe,
    WithTop.coe_le_coe]

theorem IsFloatOf.single_beq_iff_eq (hx : IsFloatOf .binary32 a (unpackSingle x))
    (hy : IsFloatOf .binary32 b (unpackSingle y)) : (x == y) = true ↔ a = b := by
  rw [single_beq_iff hx.isNaN_eq hy.isNaN_eq, hx.rank_eq, hy.rank_eq, WithBot.coe_inj,
    WithTop.coe_inj]

end Single

end Mosaic.Binary
