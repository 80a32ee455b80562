import Mathlib.Algebra.Order.Ring.Rat
import Mathlib.Data.Rat.Floor
import Mathlib.Tactic.Linarith
import Mathlib.Tactic.Positivity
import Mathlib.Tactic.Ring
import Mosaic.Projection.Transformer
import Mosaic.Scalar.Exact

/-!
# Laws of fractions as coordinates

On fractions the operations of a coordinate are the ones of ordered fields: no value is not a
number, and a whole part is the floor or the ceiling itself. With these equations a statement about
coordinates becomes one of linear arithmetic. Fractions can be samples as well, together with one
more value that is not a number.
-/

namespace Mosaic.Exact

theorem truncate_intCast (n : Int) : truncate (n : Rat) = n := by
  unfold truncate
  split
  · exact Rat.floor_intCast n
  · exact Rat.ceil_intCast n

@[simp] theorem toInt_floor (x : Rat) : Coordinate.toInt (Coordinate.floor x) = x.floor :=
  truncate_intCast x.floor

@[simp] theorem toInt_ceil (x : Rat) : Coordinate.toInt (Coordinate.ceil x) = x.ceil :=
  truncate_intCast x.ceil

@[simp] theorem word_eq (n : Nat) : Coordinate.word Rat n = n := rfl

@[simp] theorem wrap_eq (i : Int) : Coordinate.wrap Rat i = i := rfl

@[simp] theorem ofInt_eq (n : Int) : (Coordinate.ofInt n : Rat) = n := rfl

@[simp] theorem ofNat_eq (n : Nat) : (Coordinate.ofNat n : Rat) = n := rfl

@[simp] theorem isFinite_eq (x : Rat) : Coordinate.isFinite x = true := rfl

@[simp] theorem isNaN_eq (x : Rat) : Coordinate.isNaN x = false := rfl

@[simp] theorem abs_eq (x : Rat) : Coordinate.abs x = |x| := by
  show (if x < 0 then -x else x) = |x|
  split
  · rw [abs_of_neg ‹_›]
  · rw [abs_of_nonneg (not_lt.mp ‹_›)]

@[simp] theorem maximum_eq (a b : Rat) : Coordinate.maximum a b = max a b := by
  show (if a < b then b else a) = max a b
  split
  · rw [max_eq_right (le_of_lt ‹_›)]
  · rw [max_eq_left (not_lt.mp ‹_›)]

@[simp] theorem minimum_eq (a b : Rat) : Coordinate.minimum a b = min a b := by
  show (if b < a then b else a) = min a b
  split
  · rw [min_eq_right (le_of_lt ‹_›)]
  · rw [min_eq_left (not_lt.mp ‹_›)]

theorem clamp_eq {lo hi : Rat} (h : lo ≤ hi) (x : Rat) :
    Coordinate.clamp lo hi x = min hi (max lo x) := by
  show (if x < lo then lo else if hi < x then hi else x) = min hi (max lo x)
  split
  · rw [max_eq_left (le_of_lt ‹_›), min_eq_right h]
  · rw [max_eq_right (not_lt.mp ‹_›)]
    split
    · rw [min_eq_left (le_of_lt ‹_›)]
    · rw [min_eq_right (not_lt.mp ‹_›)]

theorem toNat_intCast (n : Int) : Coordinate.toNat (n : Rat) = n.toNat := by
  show (truncate n).toNat = n.toNat
  rw [truncate_intCast]

/-! ## Rounding -/

theorem round_of_nonneg {x : Rat} (h : 0 ≤ x) : round x = ⌊x + 1 / 2⌋ := if_pos h

theorem round_zero : round 0 = 0 := by
  rw [round_of_nonneg le_rfl]
  norm_num

/-- Rounding treats both signs alike. -/
theorem round_neg (x : Rat) : round (-x) = -round x := by
  rcases lt_trichotomy x 0 with h | rfl | h
  · rw [round, round, if_pos (by linarith), if_neg (not_le.mpr h), neg_neg]
  · rw [neg_zero, round_zero, neg_zero]
  · rw [round, round, if_neg (by linarith), if_pos h.le, neg_neg]

theorem round_nonneg {x : Rat} (h : 0 ≤ x) : 0 ≤ round x := by
  rw [round_of_nonneg h]
  exact Int.floor_nonneg.mpr (by linarith)

theorem round_mono {x y : Rat} (h : x ≤ y) : round x ≤ round y := by
  have hpos : ∀ {x y : Rat}, 0 ≤ x → x ≤ y → round x ≤ round y := by
    intro x y hx hxy
    rw [round_of_nonneg hx, round_of_nonneg (hx.trans hxy)]
    exact Int.floor_mono (by linarith)
  rcases le_total 0 x with hx | hx
  · exact hpos hx h
  rcases le_total 0 y with hy | hy
  · have hneg := round_nonneg (neg_nonneg.mpr hx)
    rw [round_neg] at hneg
    exact (neg_nonneg.mp hneg).trans (round_nonneg hy)
  · have hneg := hpos (neg_nonneg.mpr hy) (neg_le_neg h)
    rw [round_neg, round_neg] at hneg
    exact neg_le_neg_iff.mp hneg

theorem round_intCast (n : Int) : round n = n := by
  have hnat : ∀ k : Nat, round ((k : Int) : Rat) = k := by
    intro k
    rw [round_of_nonneg (by positivity), Int.floor_intCast_add]
    norm_num
  obtain ⟨k, rfl | rfl⟩ := n.eq_nat_or_neg
  · exact hnat k
  · rw [Int.cast_neg, round_neg, hnat]

/-- Rounding does not pass a whole number. -/
theorem abs_round_le {x : Rat} {n : Int} (h : |x| ≤ n) : |round x| ≤ n := by
  obtain ⟨hlow, hhigh⟩ := abs_le.mp h
  have hlow := round_mono hlow
  have hhigh := round_mono hhigh
  rw [← Int.cast_neg, round_intCast] at hlow
  rw [round_intCast] at hhigh
  exact abs_le.mpr ⟨hlow, hhigh⟩

/-! ## One reference system -/

/-- Coordinates as they are, which is enough where all of them lie in one reference system. -/
@[reducible] def unmoved : Reprojection Rat := ⟨fun _ _ p => .ok p⟩

/-! ## Samples -/

/-- A fraction as a sample; without one it is not a number. -/
structure Reading where
  value? : Option Rat
  deriving DecidableEq

namespace Reading

/-- An operation on fractions, which has no result on a sample that is not a number. -/
def lift (f : Rat → Rat → Rat) (a b : Reading) : Reading :=
  ⟨a.value?.bind fun x => b.value?.map (f x)⟩

/-- A comparison of fractions, which fails on a sample that is not a number. -/
def compares (f : Rat → Rat → Bool) (a b : Reading) : Bool :=
  a.value?.any fun x => b.value?.any (f x)

instance : Sample Reading Rat where
  add := lift (· + ·)
  sub := lift (· - ·)
  mul := lift (· * ·)
  neg a := ⟨a.value?.map (-·)⟩
  lt a b := compares (· < ·) a b = true
  beq := compares (· == ·)
  ofScientific m negative e := ⟨some (OfScientific.ofScientific m negative e)⟩
  decLt a b := inferInstanceAs (Decidable (compares (· < ·) a b = true))
  isNaN a := a.value?.isNone
  isFinite a := a.value?.isSome
  nan := ⟨none⟩
  narrow x := ⟨some x⟩
  widen a := a.value?.getD 0
  totalLe a b := a.value?.all fun x => b.value?.any (x ≤ ·)
  ofFloat x := ⟨Binary.toRat? x⟩
  ofText t := ⟨Binary.toRat? t.toFloat⟩
  plain a := (a.value?.map toString).getD "NaN"
  toJson a := (a.value?.map Coordinate.toJson).getD .null

end Reading

end Mosaic.Exact
