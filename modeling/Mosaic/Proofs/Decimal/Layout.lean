import Mosaic.Decimal.Layout
import Mosaic.Proofs.Decimal.Digits
import Mosaic.Proofs.Decimal.Nearest

/-!
# Numbers as documents write them

Whichever layout is chosen, what is written is a numeral: a sign, digits, a point with digits after
it, a power of ten, of which the last two may be absent but not both (`exists_numeral`). The digits
of the numeral may have more zeros than those of the number, and its sign and its size are the same.
-/

namespace Mosaic.Decimal

open Binary

/-- The parts of a number in a text. -/
structure Numeral where
  negative : Bool
  /-- The digits before the point. -/
  whole : List Char
  /-- The digits after the point; without any there is no point. -/
  fraction : List Char
  power : Option Int

namespace Numeral

def powerText : Option Int → List Char
  | some p => 'e' :: (toString p).toList
  | none => []

/-- What stands after the digits before the point. -/
def tail (t : Numeral) : List Char :=
  (if t.fraction = [] then [] else '.' :: t.fraction) ++ powerText t.power

def text (t : Numeral) : List Char :=
  (if t.negative then ['-'] else []) ++ (t.whole ++ t.tail)

/-- The number that the text names. -/
def decimal (t : Numeral) : Decimal :=
  ⟨t.negative, natOfDigits (t.whole ++ t.fraction), t.power.getD 0 - t.fraction.length⟩

/-- The digits are digits, the first one is not a superfluous zero, and the number is marked as one
that need not be whole. -/
structure WellFormed (t : Numeral) : Prop where
  whole : ∀ c ∈ t.whole, isDigit c = true
  fraction : ∀ c ∈ t.fraction, isDigit c = true
  ne_nil : t.whole ≠ []
  leading : ∀ cs, t.whole = '0' :: cs → cs = []
  marked : t.fraction ≠ [] ∨ t.power ≠ none

end Numeral

/-! ## The layouts -/

theorem digitText_zero {d : Decimal} (h : d.digits = 0) : d.digitText = [] := if_pos h

theorem digitText_pos {d : Decimal} (h : d.digits ≠ 0) : d.digitText = Nat.toDigits 10 d.digits := by
  rw [digitText, if_neg h, Nat.toString_eq_repr, Nat.toList_repr]

theorem isDigit_of_mem_digitText {d : Decimal} {c : Char} (h : c ∈ d.digitText) :
    isDigit c = true := by
  by_cases hd : d.digits = 0
  · rw [digitText_zero hd] at h
    cases h
  · rw [digitText_pos hd] at h
    exact isDigit_of_mem_toDigits h

theorem natOfDigits_digitText (d : Decimal) : natOfDigits d.digitText = d.digits := by
  by_cases hd : d.digits = 0
  · rw [digitText_zero hd, hd]
    rfl
  · rw [digitText_pos hd, natOfDigits_toDigits]

theorem digitText_leading (d : Decimal) (cs : List Char) : d.digitText ≠ '0' :: cs := by
  by_cases hd : d.digits = 0
  · rw [digitText_zero hd]
    exact nofun
  · rw [digitText_pos hd]
    exact toDigits_leading (Nat.pos_of_ne_zero hd)

theorem isDigit_of_mem_zeros {n : Nat} {c : Char} (h : c ∈ List.replicate n '0') :
    isDigit c = true := by
  rw [(List.mem_replicate.mp h).2]
  rfl

/-- Digits before and after a point that are worth a given number. -/
structure Positional (d : Decimal) (whole fraction : List Char) : Prop where
  isDigit_whole : ∀ c ∈ whole, isDigit c = true
  isDigit_fraction : ∀ c ∈ fraction, isDigit c = true
  ne_nil : whole ≠ []
  leading : ∀ cs, whole = '0' :: cs → cs = []
  size : (natOfDigits (whole ++ fraction) : Rat) * 10 ^ (-(fraction.length : Int)) = d.size

/-- A zero may stand after the point where nothing does. -/
theorem Positional.zero_fraction {d : Decimal} {whole : List Char} (h : Positional d whole []) :
    Positional d whole ['0'] where
  isDigit_whole := h.isDigit_whole
  isDigit_fraction := by
    intro c hc
    rw [List.mem_singleton.mp hc]
    rfl
  ne_nil := h.ne_nil
  leading := h.leading
  size := by
    have hzero : natOfDigits ['0'] = 0 := rfl
    rw [← h.size, natOfDigits_append, hzero, List.append_nil]
    push_cast
    norm_num
    ring

theorem positional_zero {d : Decimal} (h : d.digits = 0) : Positional d ['0'] [] where
  isDigit_whole := by
    intro c hc
    rw [List.mem_singleton.mp hc]
    rfl
  isDigit_fraction := nofun
  ne_nil := nofun
  leading := by
    intro cs hcs
    exact (List.cons.inj hcs).2.symm
  size := by
    have hzero : natOfDigits (['0'] ++ []) = 0 := rfl
    rw [hzero, Decimal.size, h, Nat.cast_zero, zero_mul, zero_mul]

/-- All digits stand after the point. -/
theorem positional_below (d : Decimal) (h : d.exponent + d.digitText.length ≤ 0) :
    Positional d ['0'] (List.replicate (-(d.exponent + d.digitText.length)).toNat '0' ++ d.digitText) where
  isDigit_whole := by
    intro c hc
    rw [List.mem_singleton.mp hc]
    rfl
  isDigit_fraction := by
    intro c hc
    rcases List.mem_append.mp hc with hc | hc
    · exact isDigit_of_mem_zeros hc
    · exact isDigit_of_mem_digitText hc
  ne_nil := nofun
  leading := by
    intro cs hcs
    exact (List.cons.inj hcs).2.symm
  size := by
    have hzero : natOfDigits ['0'] = 0 := rfl
    have hlength : -(((List.replicate (-(d.exponent + d.digitText.length)).toNat '0' ++
        d.digitText).length : Nat) : Int) = d.exponent := by
      rw [List.length_append, List.length_replicate]
      omega
    rw [natOfDigits_append, natOfDigits_append, hzero, natOfDigits_zeros, natOfDigits_digitText,
      hlength, Nat.mul_zero, Nat.mul_zero, Nat.zero_add, Nat.zero_add]
    rfl

/-- All digits stand before the point. -/
theorem positional_above {d : Decimal} (hd : d.digitText ≠ []) (h : 0 ≤ d.exponent) :
    Positional d (d.digitText ++ List.replicate d.exponent.toNat '0') [] where
  isDigit_whole := by
    intro c hc
    rcases List.mem_append.mp hc with hc | hc
    · exact isDigit_of_mem_digitText hc
    · exact isDigit_of_mem_zeros hc
  isDigit_fraction := nofun
  ne_nil := List.append_ne_nil_of_left_ne_nil hd _
  leading := by
    intro cs hcs
    obtain ⟨c, ds, hds⟩ := List.exists_cons_of_ne_nil hd
    rw [hds] at hcs
    rw [(List.cons.inj hcs).1] at hds
    exact absurd hds (digitText_leading d ds)
  size := by
    obtain ⟨k, hk⟩ := Int.eq_ofNat_of_zero_le h
    rw [List.append_nil, natOfDigits_append, natOfDigits_zeros, natOfDigits_digitText,
      List.length_replicate, Nat.add_zero, Decimal.size, hk, Int.toNat_natCast, zpow_natCast,
      List.length_nil]
    push_cast
    rw [mul_one, mul_comm]

/-- The point stands among the digits. -/
theorem positional_within {d : Decimal} (hwhole : 0 < d.exponent + d.digitText.length)
    (h : d.exponent < 0) :
    Positional d (d.digitText.take (d.exponent + d.digitText.length).toNat)
      (d.digitText.drop (d.exponent + d.digitText.length).toNat) where
  isDigit_whole := fun c hc => isDigit_of_mem_digitText (List.mem_of_mem_take hc)
  isDigit_fraction := fun c hc => isDigit_of_mem_digitText (List.mem_of_mem_drop hc)
  ne_nil := by
    rw [← List.length_pos_iff, List.length_take]
    omega
  leading := by
    intro cs hcs
    have hsplit := List.take_append_drop (d.exponent + d.digitText.length).toNat d.digitText
    rw [hcs] at hsplit
    exact absurd hsplit.symm (digitText_leading d _)
  size := by
    have hlength : -((d.digitText.drop (d.exponent + d.digitText.length).toNat).length : Int) =
        d.exponent := by
      rw [List.length_drop]
      omega
    rw [List.take_append_drop, natOfDigits_digitText, hlength]
    rfl

/-- The digits before and after the point are worth the number. -/
theorem positional_wholeAndFraction (d : Decimal) :
    Positional d d.wholeAndFraction.1 d.wholeAndFraction.2 := by
  unfold wholeAndFraction
  simp only
  split_ifs with hempty hbelow habove
  · refine positional_zero ?_
    by_contra hd
    rw [digitText_pos hd, List.isEmpty_iff] at hempty
    exact Nat.toDigits_ne_nil hempty
  · exact positional_below d hbelow
  · refine positional_above (fun h => hempty ?_) habove
    rw [h]
    rfl
  · exact positional_within (not_le.mp hbelow) (not_le.mp habove)

/-- A number without a power of ten is a numeral. -/
theorem Positional.numeral {d : Decimal} {whole fraction : List Char}
    (h : Positional d whole fraction) (hf : fraction ≠ []) :
    (Numeral.mk d.negative whole fraction none).WellFormed ∧
      (Numeral.mk d.negative whole fraction none).decimal.size = d.size := by
  refine ⟨⟨h.isDigit_whole, h.isDigit_fraction, h.ne_nil, h.leading, .inl hf⟩, ?_⟩
  rw [← h.size]
  simp only [Numeral.decimal, Decimal.size, Option.getD_none, zero_sub]

theorem toList_signText (d : Decimal) :
    d.signText.toList = if d.negative then ['-'] else [] := by
  unfold signText
  split_ifs <;> rfl

/-- A numeral that names a number in a text. -/
structure Numeral.Names (t : Numeral) (text : String) (d : Decimal) : Prop where
  wellFormed : t.WellFormed
  text_eq : text.toList = t.text
  negative_eq : t.negative = d.negative
  size_eq : t.decimal.size = d.size

theorem exists_numeral_pointed (d : Decimal) : ∃ t : Numeral, t.Names d.pointed d := by
  have h := positional_wholeAndFraction d
  unfold pointed
  split
  · next whole heq =>
    rw [heq] at h
    obtain ⟨hwell, hsize⟩ := h.zero_fraction.numeral (List.cons_ne_nil _ _)
    refine ⟨_, hwell, ?_, rfl, hsize⟩
    simp [Numeral.text, Numeral.tail, Numeral.powerText, toList_signText]
  · next whole fraction hne heq =>
    rw [heq] at h
    have hf : fraction ≠ [] := by
      rintro rfl
      exact hne rfl
    obtain ⟨hwell, hsize⟩ := h.numeral hf
    refine ⟨_, hwell, ?_, rfl, hsize⟩
    simp [Numeral.text, Numeral.tail, Numeral.powerText, toList_signText, hf]

theorem exists_numeral_scientific {d : Decimal} (hd : d.digits ≠ 0) :
    ∃ t : Numeral, t.Names d.scientific d := by
  have hdigits : d.digitText ≠ [] := by
    rw [digitText_pos hd]
    exact Nat.toDigits_ne_nil
  obtain ⟨c, cs, htext⟩ := List.exists_cons_of_ne_nil hdigits
  have hmem : ∀ c' ∈ c :: cs, isDigit c' = true := by
    rw [← htext]
    exact fun c' => isDigit_of_mem_digitText
  have hsize : (Numeral.mk d.negative [c] cs (some d.leadingPower)).decimal.size = d.size := by
    have hpower : d.leadingPower - cs.length = d.exponent := by
      rw [leadingPower, htext, List.length_cons]
      omega
    have hworth : natOfDigits ([c] ++ cs) = d.digits := by
      rw [List.singleton_append, ← htext, natOfDigits_digitText]
    simp only [Numeral.decimal, Decimal.size, Option.getD_some, hpower, hworth]
  refine ⟨_, ⟨?_, ?_, List.cons_ne_nil _ _, ?_, .inr (Option.some_ne_none _)⟩, ?_, rfl, hsize⟩
  · intro c' hc'
    rw [List.mem_singleton.mp hc']
    exact hmem c List.mem_cons_self
  · exact fun c' hc' => hmem c' (List.mem_cons_of_mem c hc')
  · intro cs' hcs'
    exact (List.cons.inj hcs').2.symm
  · rw [scientific, htext]
    cases cs with
    | nil => simp [Numeral.text, Numeral.tail, Numeral.powerText, toList_signText]
    | cons => simp [Numeral.text, Numeral.tail, Numeral.powerText, toList_signText]

/-- A number is written as a numeral of its sign and its size. -/
theorem exists_numeral (least : Int) (d : Decimal) :
    ∃ t : Numeral, t.Names (d.general least) d := by
  unfold general
  split_ifs with h
  · simp only [Bool.and_eq_true, decide_eq_true_eq] at h
    exact exists_numeral_scientific h.1
  · exact exists_numeral_pointed d

end Mosaic.Decimal
