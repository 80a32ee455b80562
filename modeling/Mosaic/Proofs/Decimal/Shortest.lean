import Mosaic.Decimal.Shortest
import Mosaic.Proofs.Decimal.Nearest

/-!
# The shortest decimal reads back

The numbers that round to a given float make up an interval (`RoundsTo`), and every hit of the
search on a decimal grid lies in it (`holds_iff`). A grid that is fine enough has a point there, and
forty steps down from the size of the float reach such a grid, so the search always ends with a hit
(`exists_shortestIn`). Read as a double, the decimal of a double is that double again
(`toFloat_of_ofFloat?`).

The decimal of a single rounds to that single (`nearest_shortestIn`), but it is read as a double
first and may then be narrowed to another single. A whole number is not: its digits end before the
point, and the double is exact (`narrow_of_ofFloat32?`).
-/

namespace Mosaic.Binary

open Float.Model (Format)

/-- How many quarters of the last place lie between a float and the lower end of its interval. -/
def quartersBelow (narrowBelow : Bool) : Nat := if narrowBelow then 1 else 2

theorem one_le_quartersBelow (narrowBelow : Bool) : (1 : Rat) ≤ quartersBelow narrowBelow := by
  cases narrowBelow <;> norm_num [quartersBelow]

theorem quartersBelow_le_two (narrowBelow : Bool) : (quartersBelow narrowBelow : Rat) ≤ 2 := by
  cases narrowBelow <;> norm_num [quartersBelow]

/-- The numbers that round to `mantissa * 2 ^ exponent`. The ends of the interval belong to it when
the mantissa is even. -/
def RoundsTo (mantissa : Nat) (exponent : Int) (narrowBelow : Bool) (y : Rat) : Prop :=
  if mantissa % 2 = 0 then
    (4 * mantissa - quartersBelow narrowBelow) * 2 ^ (exponent - 2) ≤ y ∧
      y ≤ (4 * mantissa + 2) * 2 ^ (exponent - 2)
  else
    (4 * mantissa - quartersBelow narrowBelow) * 2 ^ (exponent - 2) < y ∧
      y < (4 * mantissa + 2) * 2 ^ (exponent - 2)

theorem two_zpow_eq_quarters (e : Int) : (2 : Rat) ^ e = 4 * 2 ^ (e - 2) := by
  rw [zpow_sub₀ two_ne_zero]
  norm_num
  ring

variable {spec : Format} {m : Nat} {e : Int} {narrowBelow : Bool} {y : Rat}

/-- A number less than a quarter below the value lies in the interval. -/
theorem roundsTo_of_near (hlow : (4 * m - 1) * 2 ^ (e - 2) < y) (hhigh : y ≤ m * 2 ^ e) :
    RoundsTo m e narrowBelow y := by
  have hq := two_zpow_pos (e - 2)
  have hend : (4 * m - quartersBelow narrowBelow : Rat) * 2 ^ (e - 2) < y := by
    refine lt_of_le_of_lt (mul_le_mul_of_nonneg_right ?_ hq.le) hlow
    linarith [one_le_quartersBelow narrowBelow]
  have hother : y < (4 * m + 2) * 2 ^ (e - 2) := by
    rw [two_zpow_eq_quarters] at hhigh
    linarith
  unfold RoundsTo
  split_ifs
  · exact ⟨hend.le, hother.le⟩
  · exact ⟨hend, hother⟩

theorem RoundsTo.bounds (h : RoundsTo m e narrowBelow y) :
    (4 * m - quartersBelow narrowBelow) * 2 ^ (e - 2) ≤ y ∧ y ≤ (4 * m + 2) * 2 ^ (e - 2) := by
  unfold RoundsTo at h
  split_ifs at h
  · exact h
  · exact ⟨h.1.le, h.2.le⟩

theorem quarters_mul (c : Rat) (e : Int) : c * 2 ^ (e - 2) = c / 4 * 2 ^ e := by
  rw [two_zpow_eq_quarters e]
  ring

/-- A number at most half of the last place away, and exactly half only from an even mantissa. -/
theorem RoundsTo.nearestEven_eq (h : RoundsTo m e narrowBelow y) : nearestEven (y / 2 ^ e) = m := by
  have hpos := two_zpow_pos e
  have hquarters := quartersBelow_le_two narrowBelow
  unfold RoundsTo at h
  rw [quarters_mul, quarters_mul, ← le_div_iff₀ hpos, ← div_le_iff₀ hpos, ← lt_div_iff₀ hpos,
    ← div_lt_iff₀ hpos] at h
  split_ifs at h with heven
  · refine nearestEven_eq_of_abs_sub_le (by omega) ?_
    rw [Int.cast_natCast, abs_le]
    constructor <;> linarith
  · refine nearestEven_eq_of_abs_sub_lt ?_
    rw [Int.cast_natCast, abs_lt]
    constructor <;> linarith

/-- The float below is only half as far away where the mantissa is the least full one. -/
def isNarrowBelow (spec : Format) (m : Nat) (e : Int) : Bool :=
  m == 2 ^ spec.mantissaBitsWithoutImplicit && spec.minExponent < e

theorem zpow_natCast_add (n : Nat) (e : Int) : (2 : Rat) ^ ((n : Int) + e) = 2 ^ n * 2 ^ e := by
  rw [zpow_add₀ two_ne_zero, zpow_natCast]

theorem isNarrowBelow_iff (spec : Format) (m : Nat) (e : Int) :
    isNarrowBelow spec m e = true ↔
      m = 2 ^ spec.mantissaBitsWithoutImplicit ∧ spec.minExponent < e := by
  rw [isNarrowBelow, Bool.and_eq_true, beq_iff_eq, decide_eq_true_iff]

/-- Just below the least full mantissa the last place is half as large, and a number there is
rounded up if it is at most a quarter of the upper last place away. -/
theorem nearest_of_narrowBelow (hm : m = 2 ^ spec.mantissaBitsWithoutImplicit)
    (hmin : spec.minExponent < e) (hlow : (4 * m - 1) * 2 ^ (e - 2) ≤ y) (hlt : y < m * 2 ^ e) :
    nearest spec y = m * 2 ^ e := by
  have hq := two_zpow_pos (e - 2)
  have hhalf : (2 : Rat) ^ (e - 1) = 2 * 2 ^ (e - 2) := by
    rw [show e - 1 = e - 2 + 1 by ring, zpow_add_one₀ two_ne_zero, mul_comm]
  have hone : (1 : Rat) ≤ m := by
    rw [hm]
    exact_mod_cast Nat.one_le_two_pow
  have hfull : (2 : Rat) ^ spec.mantissaBitsWithoutImplicit = m := by
    rw [hm]
    push_cast
    rfl
  have htop : (2 : Rat) ^ spec.mantissaBits = 2 * m := by
    rw [hm]
    exact_mod_cast two_pow_mantissaBits spec
  have hexp : exponentOf spec y = e - 1 := by
    refine exponentOf_eq spec (by omega) (lt_of_lt_of_le (mul_pos (by linarith) hq) hlow) ?_ ?_
    · rw [zpow_natCast_add, htop, hhalf]
      rw [two_zpow_eq_quarters e] at hlt
      linarith
    · intro _
      rw [zpow_natCast_add, hfull, hhalf]
      nlinarith
  have hround : nearestEven (y / 2 ^ (e - 1)) = ((2 * m : Nat) : Int) := by
    have hlow' : (2 * m - 1 / 2 : Rat) ≤ y / 2 ^ (e - 1) := by
      rw [le_div_iff₀ (two_zpow_pos _), hhalf]
      linarith
    have hhigh' : y / 2 ^ (e - 1) ≤ (2 * m : Rat) := by
      rw [div_le_iff₀ (two_zpow_pos _), hhalf]
      rw [two_zpow_eq_quarters e] at hlt
      linarith
    refine nearestEven_eq_of_abs_sub_le (by omega) ?_
    push_cast
    rw [abs_le]
    constructor <;> linarith
  rw [nearest, hexp, hround, hhalf, two_zpow_eq_quarters e]
  push_cast
  ring

/-- The interval of a float is made of numbers that round to it. -/
theorem nearest_of_roundsTo {s : Float.Model.UnpackedFloat.Sign} {hm : 0 < m}
    (hc : IsCanonical spec (.finite s m e hm)) (h : RoundsTo m e (isNarrowBelow spec m e) y) :
    nearest spec y = m * 2 ^ e := by
  have hq := two_zpow_pos (e - 2)
  obtain ⟨hlow, hhigh⟩ := h.bounds
  obtain ⟨hlt, hmin, hfull⟩ := hc
  have hone : (1 : Rat) ≤ m := by exact_mod_cast hm
  have hquarters := quartersBelow_le_two (isNarrowBelow spec m e)
  have hy : 0 < y := lt_of_lt_of_le (mul_pos (by linarith) hq) hlow
  have hupper : y < 2 ^ ((spec.mantissaBits : Int) + e) := by
    have hmantissa : (m : Rat) + 1 ≤ 2 ^ spec.mantissaBits := by exact_mod_cast hlt
    rw [zpow_natCast_add, two_zpow_eq_quarters e]
    nlinarith
  have hsame : (spec.minExponent < e →
      2 ^ ((spec.mantissaBitsWithoutImplicit : Int) + e) ≤ y) → nearest spec y = m * 2 ^ e := by
    intro hlower
    rw [nearest, exponentOf_eq spec hmin hy hupper hlower, h.nearestEven_eq, Int.cast_natCast]
  rcases le_or_gt ((m : Rat) * 2 ^ e) y with hvalue | hvalue
  · refine hsame fun hlt => le_trans ?_ hvalue
    rw [zpow_natCast_add]
    exact mul_le_mul_of_nonneg_right (by exact_mod_cast hfull hlt) (two_zpow_pos e).le
  cases hnarrow : isNarrowBelow spec m e with
  | true =>
    obtain ⟨hm, he⟩ := (isNarrowBelow_iff spec m e).mp hnarrow
    have hquarter : (quartersBelow (isNarrowBelow spec m e) : Rat) = 1 := by
      rw [hnarrow]
      rfl
    rw [hquarter] at hlow
    exact nearest_of_narrowBelow hm he hlow hvalue
  | false =>
    refine hsame fun hgt => le_trans ?_ hlow
    have hne : m ≠ 2 ^ spec.mantissaBitsWithoutImplicit := by
      intro hm
      rw [(isNarrowBelow_iff spec m e).mpr ⟨hm, hgt⟩] at hnarrow
      cases hnarrow
    have hmantissa : (2 : Rat) ^ spec.mantissaBitsWithoutImplicit + 1 ≤ m := by
      exact_mod_cast Nat.lt_of_le_of_ne (hfull hgt) (Ne.symm hne)
    rw [zpow_natCast_add, two_zpow_eq_quarters e]
    nlinarith

end Mosaic.Binary

namespace Mosaic.Decimal

open Binary
open Float.Model (Format UnpackedFloat)
open Float.Model.UnpackedFloat (Sign)

/-! ## Hits on a grid -/

section Grid

variable {m : Nat} {e : Int} {narrowBelow : Bool} {power : Int} {n : Nat}

/-- The spacing of the grid and a quarter of the last place, in whole units. -/
def gridUnits (e power : Int) : Nat := 2 ^ (2 - e).toNat * 10 ^ power.toNat

def quarterUnits (e power : Int) : Nat := 2 ^ (e - 2).toNat * 10 ^ (-power).toNat

/-- Both are the fractions, measured in one common unit. -/
theorem exists_unit (e power : Int) : ∃ unit : Rat, 0 < unit ∧
    (gridUnits e power : Rat) = 10 ^ power * unit ∧
    (quarterUnits e power : Rat) = 2 ^ (e - 2) * unit := by
  have hsplit : ∀ (b : Rat) (k : Int), b ≠ 0 → b ^ k.toNat = b ^ k * b ^ (-k).toNat := by
    intro b k hb
    rw [← zpow_natCast, ← zpow_natCast, ← zpow_add₀ hb]
    congr 1
    omega
  refine ⟨2 ^ (2 - e).toNat * 10 ^ (-power).toNat, by positivity, ?_, ?_⟩
  · rw [gridUnits]
    push_cast
    rw [hsplit 10 power (by norm_num)]
    ring
  · rw [quarterUnits]
    push_cast
    rw [hsplit 2 (e - 2) two_ne_zero, neg_sub]
    ring

theorem grid_le_iff (a b : Nat) (e power : Int) :
    a * gridUnits e power ≤ b * quarterUnits e power ↔
      (a : Rat) * 10 ^ power ≤ b * 2 ^ (e - 2) := by
  obtain ⟨unit, hpos, hgrid, hquarter⟩ := exists_unit e power
  rw [← Nat.cast_le (α := Rat), Nat.cast_mul, Nat.cast_mul, hgrid, hquarter, ← mul_assoc,
    ← mul_assoc, mul_le_mul_iff_of_pos_right hpos]

theorem le_grid_iff (a b : Nat) (e power : Int) :
    b * quarterUnits e power ≤ a * gridUnits e power ↔
      (b : Rat) * 2 ^ (e - 2) ≤ a * 10 ^ power := by
  obtain ⟨unit, hpos, hgrid, hquarter⟩ := exists_unit e power
  rw [← Nat.cast_le (α := Rat), Nat.cast_mul, Nat.cast_mul, hgrid, hquarter, ← mul_assoc,
    ← mul_assoc, mul_le_mul_iff_of_pos_right hpos]

/-- The points of a grid that hold are those in the interval of the float. -/
theorem holds_iff (hm : 0 < m) :
    (Interval.ofBinary m e narrowBelow power).holds n = true ↔
      RoundsTo m e narrowBelow (n * 10 ^ power) := by
  have hlow : ((4 * m - quartersBelow narrowBelow : Nat) : Rat) =
      4 * m - quartersBelow narrowBelow := by
    have hle : quartersBelow narrowBelow ≤ 2 := by cases narrowBelow <;> decide
    rw [Nat.cast_sub (by omega)]
    push_cast
    rfl
  have hhigh : ((4 * m + 2 : Nat) : Rat) = 4 * m + 2 := by push_cast; rfl
  have hbelow := le_grid_iff n (4 * m - quartersBelow narrowBelow) e power
  have hbelow' := grid_le_iff n (4 * m - quartersBelow narrowBelow) e power
  have habove := grid_le_iff n (4 * m + 2) e power
  have habove' := le_grid_iff n (4 * m + 2) e power
  rw [hlow] at hbelow hbelow'
  rw [hhigh] at habove habove'
  have hunfold : (Interval.ofBinary m e narrowBelow power).holds n =
      if m % 2 == 0 then
        decide ((4 * m - quartersBelow narrowBelow) * quarterUnits e power ≤ n * gridUnits e power) &&
          decide (n * gridUnits e power ≤ (4 * m + 2) * quarterUnits e power)
      else
        decide ((4 * m - quartersBelow narrowBelow) * quarterUnits e power < n * gridUnits e power) &&
          decide (n * gridUnits e power < (4 * m + 2) * quarterUnits e power) := rfl
  rw [hunfold, RoundsTo]
  by_cases heven : m % 2 = 0
  · rw [if_pos (beq_iff_eq.mpr heven), if_pos heven, Bool.and_eq_true, decide_eq_true_iff,
      decide_eq_true_iff, hbelow, habove]
  · rw [if_neg (by simpa using heven), if_neg heven, Bool.and_eq_true, decide_eq_true_iff,
      decide_eq_true_iff, ← not_le, ← not_le, hbelow', habove', not_le, not_le]

theorem holds_of_hit? {i : Interval} (h : i.hit? = some n) : i.holds n = true := by
  unfold Interval.hit? at h
  simp only at h
  split at h
  · split_ifs at h <;> cases h <;> assumption
  · cases h
    assumption
  · cases h
    assumption
  · cases h

/-- A grid whose last point below the value is less than a quarter away has a hit. -/
theorem isSome_hit?_of_near (hm : 0 < m)
    (h : (4 * m - 1 : Rat) * 2 ^ (e - 2) <
      (4 * m * quarterUnits e power / gridUnits e power : Nat) * 10 ^ power) :
    (Interval.ofBinary m e narrowBelow power).hit?.isSome := by
  have hvalue : (Interval.ofBinary m e narrowBelow power).value = 4 * m * quarterUnits e power := rfl
  have hgrid : (Interval.ofBinary m e narrowBelow power).grid = gridUnits e power := rfl
  have hbelow : ((4 * m * quarterUnits e power / gridUnits e power : Nat) : Rat) * 10 ^ power ≤
      m * 2 ^ e := by
    have := (grid_le_iff _ (4 * m) e power).mp
      (Nat.div_mul_le_self (4 * m * quarterUnits e power) (gridUnits e power))
    push_cast at this ⊢
    rw [two_zpow_eq_quarters e]
    linarith
  have hholds : (Interval.ofBinary m e narrowBelow power).holds
      (4 * m * quarterUnits e power / gridUnits e power) = true :=
    (holds_iff hm).mpr (roundsTo_of_near h hbelow)
  unfold Interval.hit?
  rw [hvalue, hgrid]
  simp only [hholds]
  split <;> first | rfl | contradiction

theorem gridUnits_pos (e power : Int) : 0 < gridUnits e power :=
  Nat.mul_pos (Nat.pow_pos two_pos) (Nat.pow_pos (by decide))

/-- A grid that is finer than a quarter of the last place has a hit. -/
theorem isSome_hit?_of_fine (hm : 0 < m) (h : (10 : Rat) ^ power ≤ 2 ^ (e - 2)) :
    (Interval.ofBinary m e narrowBelow power).hit?.isSome := by
  refine isSome_hit?_of_near hm ?_
  generalize hbelow : 4 * m * quarterUnits e power / gridUnits e power = below
  have hnext : ¬(below + 1) * gridUnits e power ≤ 4 * m * quarterUnits e power := by
    rw [← hbelow, not_le, Nat.add_mul, Nat.one_mul]
    exact Nat.lt_div_mul_add (gridUnits_pos e power)
  rw [grid_le_iff, not_le] at hnext
  push_cast at hnext
  linarith

/-- A grid on which the value lies has a hit. -/
theorem isSome_hit?_of_onGrid (hm : 0 < m) (h : (m : Rat) * 2 ^ e = n * 10 ^ power) :
    (Interval.ofBinary m e narrowBelow power).hit?.isSome := by
  have hvalue : ((4 * m : Nat) : Rat) * 2 ^ (e - 2) = n * 10 ^ power := by
    rw [← h, two_zpow_eq_quarters e]
    push_cast
    ring
  have hon : 4 * m * quarterUnits e power = n * gridUnits e power :=
    le_antisymm ((le_grid_iff n (4 * m) e power).mpr hvalue.le)
      ((grid_le_iff n (4 * m) e power).mpr hvalue.ge)
  refine isSome_hit?_of_near hm ?_
  rw [hon, Nat.mul_div_cancel _ (gridUnits_pos e power), ← hvalue]
  push_cast
  linarith [two_zpow_pos (e - 2)]

/-! ## The search -/

/-- The search ends with a hit, on the grid that is known to have one or on a coarser one. -/
theorem exists_searchDown (negative : Bool) {steps k : Nat} (hk : k < steps)
    (h : (Interval.ofBinary m e narrowBelow (power - k)).hit?.isSome) :
    ∃ n p, power - k ≤ p ∧ (Interval.ofBinary m e narrowBelow p).hit? = some n ∧
      searchDown m e narrowBelow negative steps power = ⟨negative, n, p⟩ := by
  induction steps generalizing k power with
  | zero => exact absurd hk (Nat.not_lt_zero k)
  | succ steps ih =>
    unfold searchDown
    cases hhit : (Interval.ofBinary m e narrowBelow power).hit? with
    | some n => exact ⟨n, power, by omega, hhit, rfl⟩
    | none =>
      obtain ⟨j, rfl⟩ : ∃ j, k = j + 1 := by
        refine Nat.exists_eq_succ_of_ne_zero ?_
        rintro rfl
        rw [Nat.cast_zero, sub_zero, hhit] at h
        cases h
      have hpower : power - ((j + 1 : Nat) : Int) = power - 1 - j := by omega
      rw [hpower] at h ⊢
      exact ih (by omega) h

end Grid

theorem zpow_pow (b : Rat) (k : Int) (n : Nat) : (b ^ k) ^ n = (b ^ n) ^ k := by
  rw [← zpow_natCast, ← zpow_natCast, ← zpow_mul, ← zpow_mul, mul_comm]

/-- Three decimal digits are worth less than ten bits, and four more than thirteen. -/
theorem ten_zpow_le_two_zpow {k j : Int} (hpos : 0 ≤ k → 10 * k ≤ 3 * j)
    (hneg : k < 0 → 13 * k ≤ 4 * j) : (10 : Rat) ^ k ≤ 2 ^ j := by
  rcases le_or_gt 0 k with hk | hk
  · have hcube : ((10 : Rat) ^ k) ^ 3 ≤ (2 ^ j) ^ 3 := by
      calc ((10 : Rat) ^ k) ^ 3 = (10 ^ 3) ^ k := zpow_pow 10 k 3
        _ ≤ (2 ^ 10) ^ k := zpow_le_zpow_left₀ hk (by norm_num) (by norm_num)
        _ = 2 ^ (10 * k) := (zpow_mul 2 10 k).symm
        _ ≤ 2 ^ (3 * j) := zpow_le_zpow_right₀ one_le_two (hpos hk)
        _ = (2 ^ j) ^ 3 := by rw [zpow_pow]; exact zpow_mul 2 3 j
    exact le_of_pow_le_pow_left₀ (by decide) (two_zpow_pos j).le hcube
  · obtain ⟨n, hn⟩ := Int.eq_ofNat_of_zero_le (Int.neg_nonneg.mpr hk.le)
    obtain rfl : k = -(n : Int) := by omega
    have hfourth : ((10 : Rat) ^ (-(n : Int))) ^ 4 ≤ (2 ^ j) ^ 4 := by
      calc ((10 : Rat) ^ (-(n : Int))) ^ 4 = ((10 ^ 4) ^ n)⁻¹ := by
            rw [zpow_pow, zpow_neg, zpow_natCast]
        _ ≤ ((2 ^ 13) ^ n)⁻¹ :=
            inv_anti₀ (by positivity) (pow_le_pow_left₀ (by norm_num) (by norm_num) n)
        _ = 2 ^ (13 * -(n : Int)) := by
            rw [zpow_mul, zpow_neg, zpow_natCast]
            rfl
        _ ≤ 2 ^ (4 * j) := zpow_le_zpow_right₀ one_le_two (hneg hk)
        _ = (2 ^ j) ^ 4 := by rw [zpow_pow]; exact zpow_mul 2 4 j
    exact le_of_pow_le_pow_left₀ (by decide) (two_zpow_pos j).le hfourth

section Search

variable (spec : Format) (negative : Bool) {m n : Nat} {e : Int}

/-- The shortest decimal of a float of a format. -/
def shortestIn (spec : Format) (negative : Bool) (m : Nat) (e : Int) : Decimal :=
  shortestOf spec.mantissaBits spec.minExponent negative m e

theorem shortestIn_eq (m : Nat) (e : Int) :
    shortestIn spec negative m e = searchDown m e (isNarrowBelow spec m e) negative 40
      (((m.log2 : Int) + e + 1) * 30103 / 100000 + 1) := by
  have hbits : spec.mantissaBits - 1 = spec.mantissaBitsWithoutImplicit := Nat.add_sub_cancel_left ..
  rw [shortestIn, shortestOf, hbits]
  rfl

/-- The search for a double ends with a hit. -/
theorem exists_shortestIn (hm : 0 < m) (hlog : m.log2 ≤ 52) (hlow : -1074 ≤ e) (hhigh : e ≤ 971) :
    ∃ n p, (Interval.ofBinary m e (isNarrowBelow spec m e) p).hit? = some n ∧
      shortestIn spec negative m e = ⟨negative, n, p⟩ := by
  rw [shortestIn_eq]
  generalize hpower : ((m.log2 : Int) + e + 1) * 30103 / 100000 + 1 = power
  have hfine : (10 : Rat) ^ (power - (39 : Nat)) ≤ 2 ^ (e - 2) := by
    refine ten_zpow_le_two_zpow (fun h => ?_) (fun h => ?_) <;> omega
  have hreach : (Interval.ofBinary m e (isNarrowBelow spec m e) (power - (39 : Nat))).hit?.isSome :=
    isSome_hit?_of_fine hm hfine
  obtain ⟨n, p, -, hhit, hsearch⟩ := exists_searchDown negative (by decide : 39 < 40) hreach
  exact ⟨n, p, hhit, hsearch⟩

/-- The shortest decimal of a float rounds to that float. -/
theorem nearest_shortestIn {s : Sign} {hm : 0 < m} (hc : IsCanonical spec (.finite s m e hm))
    (hlog : m.log2 ≤ 52) (hlow : -1074 ≤ e) (hhigh : e ≤ 971) :
    (shortestIn spec negative m e).negative = negative ∧
      nearest spec (shortestIn spec negative m e).size = m * 2 ^ e := by
  obtain ⟨n, p, hhit, hsearch⟩ := exists_shortestIn spec negative hm hlog hlow hhigh
  rw [hsearch]
  exact ⟨rfl, nearest_of_roundsTo hc ((holds_iff hm).mp (holds_of_hit? hhit))⟩

/-- The search for a whole number does not go below the point. -/
theorem exponent_shortestIn_nonneg (hm : 0 < m) (hvalue : (m : Rat) * 2 ^ e = n)
    (hsmall : (m.log2 : Int) + e ≤ 127) : 0 ≤ (shortestIn spec negative m e).exponent := by
  have hone : 0 ≤ (m.log2 : Int) + e := by
    rw [← log_scaled hm e, hvalue]
    exact Int.log_natCast (R := Rat) 2 n ▸ Int.natCast_nonneg _
  rw [shortestIn_eq]
  generalize hpower : ((m.log2 : Int) + e + 1) * 30103 / 100000 + 1 = power
  obtain ⟨k, hk⟩ := Int.eq_ofNat_of_zero_le (show 0 ≤ power by omega)
  have hgrid : (m : Rat) * 2 ^ e = n * 10 ^ (power - k) := by
    rw [hvalue, hk]
    simp
  have hreach : (Interval.ofBinary m e (isNarrowBelow spec m e) (power - k)).hit?.isSome :=
    isSome_hit?_of_onGrid hm hgrid
  obtain ⟨n, p, hle, -, hsearch⟩ := exists_searchDown negative (show k < 40 by omega) hreach
  rw [hsearch]
  show 0 ≤ p
  omega

end Search

/-! ## Doubles and singles -/

/-- The shortest decimal of a float; `none` for what is not finite. -/
def ofUnpacked? (spec : Format) : UnpackedFloat → Option Decimal
  | .zero s => some ⟨s == .negative, 0, 0⟩
  | .finite s m e _ => some (shortestIn spec (s == .negative) m e)
  | _ => none

theorem ofFloat?_eq (x : Float) : ofFloat? x = ofUnpacked? .binary64 (unpack x) := by
  unfold ofFloat?
  cases unpack x <;> rfl

theorem ofFloat32?_eq (y : Float32) : ofFloat32? y = ofUnpacked? .binary32 (unpackSingle y) := by
  unfold ofFloat32?
  cases unpackSingle y <;> rfl

/-- A format all of whose numbers are doubles. -/
structure IsWithinDouble (spec : Format) : Prop where
  bits : spec.mantissaBitsWithoutImplicit ≤ 52
  low : -1074 ≤ spec.minExponent
  high : (2 : Int) ^ spec.exponentBits - (spec.exponentBias + spec.mantissaBitsWithoutImplicit) ≤ 973

theorem isWithinDouble_double : IsWithinDouble .binary64 := ⟨by decide, by decide, by decide⟩

theorem isWithinDouble_single : IsWithinDouble .binary32 := ⟨by decide, by decide, by decide⟩

theorem log2_le_of_isStorable {spec : Format} (hspec : IsWithinDouble spec) {s : Sign} {m : Nat}
    {e : Int} {hm : 0 < m} (hu : IsStorable spec (.finite s m e hm)) :
    m.log2 ≤ 52 ∧ -1074 ≤ e ∧ e ≤ 971 := by
  obtain ⟨⟨hlt, hmin, -⟩, hroom⟩ := hu
  have hlog := (Nat.log2_lt hm.ne').mpr hlt
  have hbits := hspec.bits
  have hlow := hspec.low
  have hhigh := hspec.high
  unfold Format.mantissaBits at hlog
  omega

theorem sign_of_beq (s : Sign) (n : Nat) (k : Int) : sign ⟨s == .negative, n, k⟩ = s := by
  cases s <;> rfl

theorem nearest_value (spec : Format) (d : Decimal) :
    nearest spec d.value = (d.sign.apply 1 : Int) * nearest spec d.size :=
  nearest_sign spec d.sign d.size

/-- The shortest decimal of a float has its sign and rounds to it. -/
theorem isFloatOf_of_ofUnpacked? {spec : Format} (hspec : IsWithinDouble spec) {u : UnpackedFloat}
    (hu : IsStorable spec u) {d : Decimal} (h : ofUnpacked? spec u = some d) :
    IsFloatOf spec (nearest spec d.value) u ∧ signOf u = d.sign := by
  match u with
  | .zero s =>
    cases h
    rw [nearest_value, size, Nat.cast_zero, zero_mul, nearest_zero, mul_zero]
    exact ⟨⟨rfl, trivial, rfl⟩, (sign_of_beq s 0 0).symm⟩
  | .finite s m e hm =>
    obtain ⟨hlog, hlow, hhigh⟩ := log2_le_of_isStorable hspec hu
    obtain ⟨hnegative, hsize⟩ :=
      nearest_shortestIn spec (s == .negative) hu.isCanonical hlog hlow hhigh
    cases h
    have hsign : (shortestIn spec (s == .negative) m e).sign = s := by
      rw [sign, hnegative]
      exact sign_of_beq s 0 0
    rw [nearest_value, hsize, hsign, ← valueOf_eq_sign_mul s m e hm]
    exact ⟨⟨rfl, hu.isCanonical, rfl⟩, rfl⟩

theorem abs_sign_mul (s : Sign) (x : Rat) : |(s.apply 1 : Int) * x| = |x| := by
  cases s <;> simp [Sign.apply]

theorem abs_nearest_value (spec : Format) (d : Decimal) :
    |nearest spec d.value| = nearest spec d.size := by
  rw [nearest_value, abs_sign_mul, abs_of_nonneg (nearest_nonneg spec d.size_nonneg)]

/-- The shortest decimal of a double is in range for a double. -/
theorem nearest_size_lt_of_ofFloat? {x : Float} {d : Decimal} (h : ofFloat? x = some d) :
    nearest .binary64 d.size < 2 ^ 1024 := by
  rw [ofFloat?_eq] at h
  obtain ⟨hx, -⟩ := isFloatOf_of_ofUnpacked? isWithinDouble_double (isStorable_double x) h
  rw [← abs_nearest_value]
  exact hx.abs_lt

/-- The shortest decimal of a double is read as that double. -/
theorem toFloat_of_ofFloat? {x : Float} {d : Decimal} (h : ofFloat? x = some d) :
    d.toFloat = x := by
  obtain ⟨hfloat, hsign⟩ := isFloatOf_toFloat (nearest_size_lt_of_ofFloat? h)
  rw [ofFloat?_eq] at h
  obtain ⟨hx, hsign'⟩ := isFloatOf_of_ofUnpacked? isWithinDouble_double (isStorable_double x) h
  exact unpack_injective (hfloat.eq_of_signOf hx (hsign.trans hsign'.symm))

/-- Exactly the doubles that are not finite have no decimal. -/
theorem isFinite_eq_isSome_ofFloat? (x : Float) : x.isFinite = (ofFloat? x).isSome := by
  rw [ofFloat?_eq]
  show (unpack x).isFinite = _
  cases unpack x <;> rfl

theorem isFinite_eq_isSome_ofFloat32? (y : Float32) : y.isFinite = (ofFloat32? y).isSome := by
  rw [ofFloat32?_eq]
  show (unpackSingle y).isFinite = _
  cases unpackSingle y <;> rfl

/-- A size that rounds to less than a power of two of a format is below that power. -/
theorem lt_of_nearest_lt (spec : Format) {x : Rat} {e : Int} (he : spec.minExponent ≤ e)
    (h : nearest spec x < 2 ^ e) : x < 2 ^ e := by
  by_contra hle
  have hround := nearest_mono spec (not_lt.mp hle)
  rw [nearest_two_zpow spec he] at hround
  exact absurd h (not_lt.mpr hround)

/-- The shortest decimal of a single is in range for a double. -/
theorem nearest_size_lt_of_ofFloat32? {y : Float32} {d : Decimal} (h : ofFloat32? y = some d) :
    nearest .binary64 d.size < 2 ^ 1024 := by
  rw [ofFloat32?_eq] at h
  obtain ⟨hy, -⟩ := isFloatOf_of_ofUnpacked? isWithinDouble_single (isStorable_single y) h
  have hsingle : nearest .binary32 d.size < 2 ^ (128 : Int) := by
    rw [← abs_nearest_value, ← hy.value]
    exact_mod_cast (isStorable_single y).abs_valueOf_lt
  have hsize := lt_of_nearest_lt .binary32 (by decide) hsingle
  have hdouble := nearest_mono .binary64 hsize.le
  rw [nearest_two_zpow _ (by decide)] at hdouble
  exact hdouble.trans_lt (zpow_lt_zpow_right₀ one_lt_two (by decide : (128 : Int) < 1024))

/-- The digits of a whole number end before the point. -/
theorem exponent_nonneg_of_ofFloat32? {y : Float32} {d : Decimal} (h : ofFloat32? y = some d)
    {n : Int} (hy : IsFloatOf .binary32 n (unpackSingle y)) (hn : |n| < 2 ^ 52) : 0 ≤ d.exponent := by
  rw [ofFloat32?_eq] at h
  obtain ⟨-, -, hvalue⟩ := hy
  match unpackSingle y, h, hvalue with
  | .zero s, h, _ =>
    cases h
    exact le_rfl
  | .finite s m e hm, h, hvalue =>
    cases h
    have hsize : (m : Rat) * 2 ^ e = n.natAbs := by
      rw [← abs_valueOf_finite s m e hm, hvalue, ← Int.cast_abs, Int.abs_eq_natAbs, Int.cast_natCast]
    refine exponent_shortestIn_nonneg .binary32 _ hm hsize ?_
    have hlt : (m : Rat) * 2 ^ e < 2 ^ (52 : Int) := by
      rw [← abs_valueOf_finite s m e hm, hvalue, ← Int.cast_abs]
      exact_mod_cast hn
    have hlog := (Int.lt_zpow_iff_log_lt one_lt_two (magnitude_pos hm e)).mp hlt
    rw [log_scaled hm] at hlog
    omega

/-- A whole number of at most 52 bits survives being written as a single and read as a double. -/
theorem narrow_of_ofFloat32? {y : Float32} {d : Decimal} (h : ofFloat32? y = some d) {n : Int}
    (hy : IsFloatOf .binary32 n (unpackSingle y)) (hn : |n| < 2 ^ 52) :
    narrow d.toFloat = y := by
  have hexponent := exponent_nonneg_of_ofFloat32? h hy hn
  have hrange := nearest_size_lt_of_ofFloat32? h
  rw [ofFloat32?_eq] at h
  obtain ⟨hshort, hsign⟩ := isFloatOf_of_ofUnpacked? isWithinDouble_single (isStorable_single y) h
  have hlt : d.size < 2 ^ (52 : Int) := by
    refine lt_of_nearest_lt .binary32 (by decide) ?_
    rw [← abs_nearest_value, ← hshort.value, hy.value, ← Int.cast_abs]
    exact_mod_cast hn
  -- the decimal is a whole number, and the double that it is read as is exact
  have hwhole : d.value = (d.sign.apply (d.digits * 10 ^ d.exponent.toNat : Nat) : Int) := by
    obtain ⟨k, hk⟩ := Int.eq_ofNat_of_zero_le hexponent
    rw [value, size, hk, Int.toNat_natCast, zpow_natCast]
    cases d.sign <;> simp [Sign.apply]
  have habs : |d.value| < 2 ^ (52 : Int) := by
    rwa [value, abs_sign_mul, abs_of_nonneg d.size_nonneg]
  have hexact : nearest .binary64 d.value = d.value := by
    rw [hwhole] at habs ⊢
    refine nearest_intCast .binary64 (by decide) ?_
    rw [← Int.cast_abs] at habs
    have : |(d.sign.apply (d.digits * 10 ^ d.exponent.toNat : Nat) : Int)| < 2 ^ 52 := by
      exact_mod_cast habs
    exact this.le.trans (by decide)
  obtain ⟨hfloat, hsign'⟩ := isFloatOf_toFloat hrange
  rw [hexact] at hfloat
  have hsmall : |d.value| ≤ 2 ^ (64 : Int) := habs.le.trans (by norm_num)
  have hnarrow := isFloatOf_narrow hfloat hsmall
  refine unpackSingle_injective (hnarrow.eq_of_signOf hshort ?_)
  rw [signOf_narrow hfloat hsmall, hsign', hsign]

end Mosaic.Decimal
