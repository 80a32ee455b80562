import Mosaic.Proofs.CastRange

/-!
# Keeping valid values off nodata

A valid value that is cast to the nodata value goes one step away from it. The step is by one and is
taken among the singles, so it is not always the step that is meant (`stepped`): up to `2 ^ 24` it
leads to the next whole number, beyond that to the next single or nowhere. Where it leads nowhere, or
past the end of the range, the step the other way is taken. That is enough except for multiples of
four beyond `2 ^ 24`, from which neither step leads away: a value that is cast there stays nodata
(`castValid_avoids`).
-/

namespace Mosaic

open Binary
open Float.Model (Format UnpackedFloat)

/-! ## Steps among the singles -/

/-- Where the step by `s`, which is one or minus one, leads from a single that is a whole number. -/
def stepped (n s : Int) : Int :=
  if -(2 ^ 24) ≤ n + s ∧ n + s ≤ 2 ^ 24 then n + s else if 4 ∣ n then n else n + 2 * s

/-- A single from which no step by one leads away: a multiple of four that has too many bits. -/
def LosesSteps (x : Float32) : Prop :=
  ∃ n : Int, IsFloatOf .binary32 n (unpackSingle x) ∧ 2 ^ 24 < |n| ∧ 4 ∣ n

/-- No single that is a whole number lies between two whole numbers. -/
def AtMostOneStep (a b : Int) : Prop :=
  ∀ (x : Float32) (k : Int), IsFloatOf .binary32 k (unpackSingle x) → ¬(min a b < k ∧ k < max a b)

theorem isFloatOf_one : IsFloatOf .binary32 (1 : Int) (unpackSingle 1.0) := by
  have hone : unpackSingle 1.0 = .finite .positive (2 ^ 23) (-23) (by decide) := rfl
  exact isFloatOf_positive hone (by norm_num)

theorem nearest_stepped {n s : Int} (hn : nearest .binary32 n = n) (hs : |s| = 1) :
    nearest .binary32 ((n + s : Int) : Rat) = stepped n s := by
  unfold stepped
  split_ifs with hsmall hfour
  · exact nearest_intCast .binary32 (by decide) (abs_le.mpr hsmall)
  all_goals
    have hnext : 2 ^ 24 < |n + s| := not_le.mp (abs_le.not.mpr hsmall)
    have hlarge : 2 ^ 24 ≤ |n| := by
      have hstep : |n + s| ≤ |n| + 1 := hs ▸ abs_add_le n s
      omega
    have hround := nearest_add_unit .binary32 hn hlarge hs hnext.le
  · rwa [if_pos hfour] at hround
  · rwa [if_neg hfour] at hround

/-- From a large single a step by one is lost or doubled. -/
theorem stepped_of_large {n s : Int} (hlarge : 2 ^ 24 < |n|) (heven : 2 ∣ n) (hs : |s| = 1) :
    stepped n s = if 4 ∣ n then n else n + 2 * s := by
  have hout : ¬(-(2 ^ 24) ≤ n + s ∧ n + s ≤ 2 ^ 24) := by
    rw [lt_abs] at hlarge
    rcases (abs_eq one_pos.le).mp hs with rfl | rfl <;> omega
  rw [stepped, if_neg hout]

/-- A single that is a large whole number is even. -/
theorem two_dvd_of_large {x : Float32} {n : Int} (hx : IsFloatOf .binary32 n (unpackSingle x))
    (hlarge : 2 ^ 24 < |n|) : 2 ∣ n :=
  even_of_large .binary32 hx.nearest_eq hlarge.le

namespace DataType

/-! ## A value that is cast to nodata -/

section Nudge

variable {d : DataType} {lo hi n s : Int} {x y v nodata : Float32}

/-- A whole number that is moved into the range. -/
theorem isFloatOf_cast_intCast (h : d.range? = some (lo, hi))
    (hx : IsFloatOf .binary32 n (unpackSingle x)) :
    IsFloatOf .binary32 (max lo (min (top hi) n) : Int) (unpackSingle (d.cast x)) := by
  have hcast := isFloatOf_cast_landing h hx.isNaN_eq
  rwa [hx.rank_eq, landing_finite, Exact.round_intCast] at hcast

theorem abs_stepped_lt (hn : |n| ≤ 2 ^ 32) (hs : |s| = 1) :
    |((stepped n s : Int) : Rat)| < 2 ^ 128 := by
  have hbound : |stepped n s| < 2 ^ 33 := by
    unfold stepped
    rw [abs_le] at hn
    rw [abs_lt]
    rcases (abs_eq one_pos.le).mp hs with rfl | rfl <;> split_ifs <;> omega
  calc |((stepped n s : Int) : Rat)| < 2 ^ 33 := by exact_mod_cast hbound
    _ < 2 ^ 128 := pow_lt_pow_right₀ one_lt_two (by decide)

/-- The cast after a step up or down. -/
theorem isFloatOf_cast_add (h : d.range? = some (lo, hi))
    (hx : IsFloatOf .binary32 n (unpackSingle x)) (hn : |n| ≤ 2 ^ 32)
    (hy : IsFloatOf .binary32 s (unpackSingle y)) (hs : |s| = 1) :
    IsFloatOf .binary32 (max lo (min (top hi) (stepped n s)) : Int)
      (unpackSingle (d.cast (x + y))) := by
  apply isFloatOf_cast_intCast h
  have hstep := nearest_stepped hx.nearest_eq hs
  rw [Int.cast_add] at hstep
  rw [← hstep]
  exact isFloatOf_add_single hx hy (hstep ▸ abs_stepped_lt hn hs)

theorem isFloatOf_cast_sub (h : d.range? = some (lo, hi))
    (hx : IsFloatOf .binary32 n (unpackSingle x)) (hn : |n| ≤ 2 ^ 32)
    (hy : IsFloatOf .binary32 s (unpackSingle y)) (hs : |s| = 1) :
    IsFloatOf .binary32 (max lo (min (top hi) (stepped n (-s))) : Int)
      (unpackSingle (d.cast (x - y))) := by
  apply isFloatOf_cast_intCast h
  have hs' : |-s| = 1 := (abs_neg s).trans hs
  have hstep := nearest_stepped hx.nearest_eq hs'
  rw [Int.cast_add, Int.cast_neg, ← sub_eq_add_neg] at hstep
  rw [← hstep]
  exact isFloatOf_sub_single hx hy (hstep ▸ abs_stepped_lt hn hs')

/-- Where a valid value goes that is cast to the nodata value `n` and steps by `s` first. -/
def nudged (lo hi n s : Int) : Int :=
  if max lo (min hi (stepped n s)) = n then max lo (min hi (stepped n (-s)))
  else max lo (min hi (stepped n s))

theorem isFloatOf_castValid (h : d.range? = some (lo, hi))
    (hnodata : IsFloatOf .binary32 n (unpackSingle nodata)) (hn : |n| ≤ 2 ^ 32)
    (hcast : IsFloatOf .binary32 n (unpackSingle (d.cast v))) :
    ∃ s : Int, |s| = 1 ∧
      IsFloatOf .binary32 (nudged lo (top hi) n s) (unpackSingle (d.castValid v nodata)) := by
  have hinteger : d.isInteger = true := by rw [isInteger, h, Option.isSome_some]
  have hequal : (d.cast v == nodata) = true := (hcast.single_beq_iff_eq hnodata).mpr rfl
  obtain ⟨s, y, hy, hs, hunfold⟩ : ∃ (s : Int) (y : Float32),
      IsFloatOf .binary32 s (unpackSingle y) ∧ |s| = 1 ∧ d.castValid v nodata =
        if d.cast (d.cast v + y) == nodata then d.cast (d.cast v - y)
        else d.cast (d.cast v + y) := by
    by_cases hbelow : v < nodata
    · refine ⟨-1, -1.0, ?_, rfl, ?_⟩
      · rw [Int.cast_neg]
        exact isFloatOf_neg_single isFloatOf_one
      · simp only [castValid, hequal, hinteger, Bool.and_self, if_true, if_pos hbelow]
    · refine ⟨1, 1.0, isFloatOf_one, rfl, ?_⟩
      simp only [castValid, hequal, hinteger, Bool.and_self, if_true, if_neg hbelow]
  refine ⟨s, hs, ?_⟩
  have hup := isFloatOf_cast_add h hcast hn hy hs
  have hdown := isFloatOf_cast_sub h hcast hn hy hs
  have hback : (d.cast (d.cast v + y) == nodata) = true ↔
      max lo (min (top hi) (stepped n s)) = n :=
    (hup.single_beq_iff_eq hnodata).trans Int.cast_inj
  rw [hunfold]
  unfold nudged
  by_cases hstay : max lo (min (top hi) (stepped n s)) = n
  · rw [if_pos (hback.mpr hstay), if_pos hstay]
    exact hdown
  · rw [if_neg (hback.not.mpr hstay), if_neg hstay]
    exact hup

/-- From a large multiple of four no step leads away. -/
theorem nudged_of_dvd (hrange : IsRange lo hi) (hlow : lo ≤ n) (hhigh : n ≤ hi)
    (hlarge : 2 ^ 24 < |n|) (hfour : 4 ∣ n) (hs : |s| = 1) : nudged lo (top hi) n s = n := by
  have heven : 2 ∣ n := by omega
  have hinside : max lo (min (top hi) n) = n := by
    have htop := hrange.le_top
    omega
  unfold nudged
  rw [stepped_of_large hlarge heven hs, stepped_of_large hlarge heven ((abs_neg s).trans hs),
    if_pos hfour, if_pos hfour, hinside, if_pos rfl]

/-- From any other large even number the step leads to the next one, which is in the range. -/
theorem nudged_of_not_dvd (hrange : IsRange lo hi) (hlow : lo ≤ n) (hhigh : n ≤ hi)
    (hlarge : 2 ^ 24 < |n|) (heven : 2 ∣ n) (hfour : ¬4 ∣ n) (hs : |s| = 1) :
    nudged lo (top hi) n s = n + 2 * s := by
  obtain ⟨-, hzero, -, htop, -, hbottom, hend⟩ := hrange
  have hinside : max lo (min (top hi) (n + 2 * s)) = n + 2 * s := by
    rw [lt_abs] at hlarge
    rcases (abs_eq one_pos.le).mp hs with rfl | rfl <;> omega
  have hmoves : n + 2 * s ≠ n := by
    rcases (abs_eq one_pos.le).mp hs with rfl | rfl <;> omega
  unfold nudged
  rw [stepped_of_large hlarge heven hs, if_neg hfour, hinside, if_neg hmoves]

/-- Up to `2 ^ 24` one of the two steps leads to a whole number of the range beside the number. -/
theorem abs_nudged_sub_of_small (hrange : IsRange lo hi) (hlow : lo ≤ n) (hhigh : n ≤ hi)
    (hsmall : |n| ≤ 2 ^ 24) (hs : |s| = 1) : |nudged lo (top hi) n s - n| = 1 := by
  obtain ⟨-, hzero, hlt, htop, -, hbottom, hend⟩ := hrange
  rw [abs_le] at hsmall
  rw [abs_eq one_pos.le]
  unfold nudged stepped
  rcases (abs_eq one_pos.le).mp hs with rfl | rfl <;> split_ifs <;> omega

/-- A step leaves the nodata value unless that is a large multiple of four, and it is the shortest
one among the singles. -/
theorem nudged_ne (hrange : IsRange lo hi) (hlow : lo ≤ n) (hhigh : n ≤ hi)
    (heven : 2 ^ 24 < |n| → 2 ∣ n) (hs : |s| = 1) :
    (nudged lo (top hi) n s = n ↔ 2 ^ 24 < |n| ∧ 4 ∣ n) ∧
      (|nudged lo (top hi) n s - n| ≤ 1 ∨ 2 ^ 24 < |n| ∧ |nudged lo (top hi) n s - n| = 2) := by
  rcases le_or_gt |n| (2 ^ 24) with hsmall | hlarge
  · have hstep := abs_nudged_sub_of_small hrange hlow hhigh hsmall hs
    refine ⟨iff_of_false ?_ fun h => hsmall.not_gt h.1, .inl hstep.le⟩
    intro hstay
    rw [hstay, sub_self, abs_zero] at hstep
    exact zero_ne_one hstep
  by_cases hfour : 4 ∣ n
  · have hstay := nudged_of_dvd hrange hlow hhigh hlarge hfour hs
    refine ⟨iff_of_true hstay ⟨hlarge, hfour⟩, .inl ?_⟩
    rw [hstay, sub_self, abs_zero]
    exact zero_le_one
  · have hstep : |nudged lo (top hi) n s - n| = 2 := by
      rw [nudged_of_not_dvd hrange hlow hhigh hlarge (heven hlarge) hfour hs, add_sub_cancel_left,
        abs_mul, hs]
      rfl
    refine ⟨iff_of_false ?_ fun h => hfour h.2, .inr ⟨hlarge, hstep⟩⟩
    intro hstay
    rw [hstay, sub_self, abs_zero] at hstep
    exact two_ne_zero hstep.symm

/-- A value that is not cast to nodata is left there. -/
theorem castValid_of_ne (h : (d.cast v == nodata) = false) : d.castValid v nodata = d.cast v := by
  unfold castValid
  simp only [h, Bool.false_and]
  rfl

/-- From one large even number to the next no single is passed over. -/
theorem atMostOneStep_of_abs_sub {a b : Int} (heven : 2 ^ 24 < |a| → 2 ∣ a)
    (h : |b - a| ≤ 1 ∨ 2 ^ 24 < |a| ∧ |b - a| = 2) : AtMostOneStep a b := by
  intro x k hx hbetween
  obtain ⟨hafter, hbefore⟩ := hbetween
  rcases h with hstep | ⟨hlarge, hstep⟩
  · rw [abs_le] at hstep
    omega
  · have ha := heven hlarge
    have hk : 2 ^ 24 < |k| := by
      rw [abs_eq two_pos.le] at hstep
      rw [lt_abs] at hlarge ⊢
      omega
    have heven' := two_dvd_of_large hx hk
    rw [abs_eq two_pos.le] at hstep
    omega

/-- A valid value is not cast to nodata, unless nodata is a large multiple of four, and it is kept
off by at most one step among the singles. -/
theorem castValid_avoids (hinteger : d.isInteger = true) (hfits : d.canRepresent nodata = true)
    (hv : v.isNaN = false) :
    ((d.castValid v nodata == nodata) = true ↔ (d.cast v == nodata) = true ∧ LosesSteps nodata) ∧
      ∃ a b : Int, IsFloatOf .binary32 a (unpackSingle (d.cast v)) ∧
        IsFloatOf .binary32 b (unpackSingle (d.castValid v nodata)) ∧
        (|b - a| ≤ 1 ∨ 2 ^ 24 < |a| ∧ |b - a| = 2) ∧ AtMostOneStep a b := by
  obtain ⟨⟨lo, hi⟩, h⟩ := Option.isSome_iff_exists.mp hinteger
  obtain ⟨n, hlow, hhigh, hnodata⟩ := (canRepresent_iff h).mp hfits
  have hcast := isFloatOf_cast_landing h hv
  by_cases hequal : (d.cast v == nodata) = true
  · have hland := Int.cast_inj.mp ((hcast.single_beq_iff_eq hnodata).mp hequal)
    rw [hland] at hcast
    have hrange := isRange_of_range? h
    have hbound : |n| ≤ 2 ^ 32 := by
      have hbottom := hrange.bottom
      have htop := hrange.top_le
      have hle := hrange.le_top
      rw [abs_le] at hbottom ⊢
      omega
    obtain ⟨s, hs, hresult⟩ := isFloatOf_castValid h hnodata hbound hcast
    have heven := two_dvd_of_large hnodata
    obtain ⟨hstays, hstep⟩ := nudged_ne hrange hlow hhigh heven hs
    refine ⟨?_, n, _, hcast, hresult, hstep, atMostOneStep_of_abs_sub heven hstep⟩
    rw [hresult.single_beq_iff_eq hnodata, Int.cast_inj, hstays, and_iff_right hequal]
    constructor
    · exact fun hlost => ⟨n, hnodata, hlost⟩
    · rintro ⟨m, hm, hlost⟩
      have hmn : m = n := by exact_mod_cast hm.value.symm.trans hnodata.value
      rwa [hmn] at hlost
  · have hsame := castValid_of_ne (Bool.eq_false_iff.mpr hequal)
    have hstep : |landing lo (top hi) (rank (unpackSingle v)) -
        landing lo (top hi) (rank (unpackSingle v))| ≤ 1 := by
      rw [sub_self, abs_zero]
      exact zero_le_one
    rw [hsame]
    exact ⟨iff_of_false hequal fun hboth => hequal hboth.1, _, _, hcast, hcast, .inl hstep,
      atMostOneStep_of_abs_sub (two_dvd_of_large hcast) (.inl hstep)⟩

/-- A large even number that is no multiple of four is kept off nodata. -/
theorem castValid_avoids_even_nodata :
    uint32.isInteger = true ∧ uint32.canRepresent (16777218.0 : Float32) = true ∧
      Float32.isNaN 16777218.0 = false ∧
      (uint32.castValid (16777218.0 : Float32) 16777218.0 == 16777218.0) = false := by
  have hfits : uint32.canRepresent (16777218.0 : Float32) = true := by decide +kernel
  have hnumber : Float32.isNaN 16777218.0 = false := by decide +kernel
  refine ⟨rfl, hfits, hnumber, Bool.eq_false_iff.mpr fun hstays => ?_⟩
  have hiff := (castValid_avoids (d := uint32) rfl hfits hnumber).1
  obtain ⟨n, hn, -, hfour⟩ := (hiff.mp hstays).2
  have hu : unpackSingle 16777218.0 = .finite .positive (2 ^ 23 + 1) 1 (by decide) := rfl
  have hnodata : IsFloatOf .binary32 (16777218 : Int) (unpackSingle 16777218.0) :=
    isFloatOf_positive hu (by norm_num)
  have hvalue := hn.value.symm.trans hnodata.value
  have heq : n = 16777218 := Int.cast_inj.mp hvalue
  omega

/-- A large multiple of four is cast to nodata where it is the nodata value itself. -/
theorem castValid_of_large_nodata :
    int32.isInteger = true ∧ int32.canRepresent (33554432.0 : Float32) = true ∧
      Float32.isNaN 33554432.0 = false ∧
      (int32.castValid (33554432.0 : Float32) 33554432.0 == 33554432.0) = true := by
  decide +kernel

end Nudge

end DataType

end Mosaic
