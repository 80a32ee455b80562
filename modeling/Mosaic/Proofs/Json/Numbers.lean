import Mosaic.Json.Read
import Mosaic.Proofs.Decimal.Layout
import Mosaic.Proofs.Decimal.Shortest

/-!
# Numbers in JSON texts

A numeral at the beginning of a text is read as the double that its decimal names
(`number?_numeral`), and the digits of a whole number of 64 bits as that number (`number?_int`). What
follows must not go on with the number; a comma, a bracket and the end of the text do not.
-/

namespace Mosaic.Json

open Decimal (isDigit natOfDigits Numeral)

/-- What follows does not go on with a number. -/
def EndsNumber (rest : List Char) : Prop :=
  ∀ c ∈ rest.head?, isDigit c = false ∧ c ≠ '.' ∧ c ≠ 'e' ∧ c ≠ 'E'

theorem EndsNumber.not_digit {rest : List Char} (h : EndsNumber rest) :
    ∀ c ∈ rest.head?, isDigit c = false := fun c hc => (h c hc).1

/-- Nothing, or a character that is neither a point nor the mark of a power. -/
theorem EndsNumber.cases {rest : List Char} (h : EndsNumber rest) :
    rest = [] ∨ ∃ c after, rest = c :: after ∧ c ≠ '.' ∧ (c == 'e' || c == 'E') = false := by
  cases rest with
  | nil => exact .inl rfl
  | cons c after =>
    obtain ⟨-, hpoint, he, hE⟩ := h c rfl
    exact .inr ⟨c, after, rfl, hpoint, by simp [he, hE]⟩

/-! ## The digits before the point -/

/-- The sign and the digits at the beginning of a number. -/
def signed (negative : Bool) (cs : List Char) : List Char :=
  (if negative then ['-'] else []) ++ cs

theorem wholeDigits?_signed {negative : Bool} {ds rest : List Char}
    (hdigits : ∀ c ∈ ds, isDigit c = true) (hne : ds ≠ [])
    (hleading : ∀ cs, ds = '0' :: cs → cs = []) (hrest : ∀ c ∈ rest.head?, isDigit c = false) :
    wholeDigits? (signed negative (ds ++ rest)) = some (negative, ds, rest) := by
  obtain ⟨htake, hdrop⟩ := Decimal.takeWhile_digits hdigits hrest
  obtain ⟨d, ds', rfl⟩ := List.exists_cons_of_ne_nil hne
  have hminus : d ≠ '-' := by
    rintro rfl
    exact absurd (hdigits '-' List.mem_cons_self) (by decide)
  unfold wholeDigits?
  rw [List.cons_append] at htake hdrop ⊢
  -- with or without a sign the digits that are looked at are the same
  cases negative
  all_goals
    simp only [signed, if_true, Bool.false_eq_true, if_false, List.cons_append, List.nil_append,
      List.cons.injEq, hminus, false_and, imp_self, implies_true, htake, hdrop]
    split
    · next heq => cases heq
    · next heq => rw [heq]
    · next cs hzero heq => exact absurd (hleading cs heq) hzero
    · rfl

/-! ## The power of ten -/

/-- The text of a whole number is a sign and the digits of its size. -/
theorem toList_toString_int (n : Int) :
    (toString n).toList = signed (n < 0) (Nat.toDigits 10 n.natAbs) := by
  cases n with
  | ofNat m =>
    have hsign : decide (Int.ofNat m < 0) = false := decide_eq_false (by simp)
    rw [hsign]
    show (Nat.repr m).toList = Nat.toDigits 10 m
    exact Nat.toList_repr
  | negSucc m =>
    have hsign : decide (Int.negSucc m < 0) = true := decide_eq_true (Int.negSucc_lt_zero m)
    rw [hsign]
    show ("-" ++ Nat.repr (m + 1)).toList = '-' :: Nat.toDigits 10 (m + 1)
    rw [String.toList_append, Nat.toList_repr]
    rfl

theorem splitSign_signed {negative : Bool} {d : Char} (ds : List Char) (hd : isDigit d = true) :
    Decimal.splitSign (signed negative (d :: ds)) = (negative, d :: ds) := by
  cases negative with
  | true => rfl
  | false =>
    show Decimal.splitSign (d :: ds) = (false, d :: ds)
    unfold Decimal.splitSign
    split
    · next heq =>
      rw [(List.cons.inj heq).1] at hd
      exact absurd hd (by decide)
    · next heq =>
      rw [(List.cons.inj heq).1] at hd
      exact absurd hd (by decide)
    · rfl

theorem signed_abs (n : Int) : (if n < 0 then -|n| else |n|) = n := by
  split_ifs with h
  · rw [abs_of_neg h, neg_neg]
  · exact abs_of_nonneg (not_lt.mp h)

/-! ## Numerals -/

variable {cs ds fs rest : List Char} {negative : Bool}

theorem number?_of_pointed (hcs : wholeDigits? cs = some (negative, ds, '.' :: (fs ++ rest)))
    (hfs : ∀ c ∈ fs, isDigit c = true) (hne : fs ≠ []) (hrest : EndsNumber rest) :
    number? cs =
      let x := Decimal.toFloat ⟨negative, natOfDigits (ds ++ fs), -fs.length⟩
      if x.isFinite then some (double x, rest) else none := by
  obtain ⟨htake, hdrop⟩ := Decimal.takeWhile_digits hfs hrest.not_digit
  have hempty : fs.isEmpty = false := by simpa using hne
  unfold number?
  simp only [hcs, Option.bind_eq_bind, Option.bind_some, htake, hdrop, hempty]
  rcases hrest.cases with rfl | ⟨c, after, rfl, -, hmark⟩
  · simp
  · simp [hmark]

/-- The sign and the digits of a power are read back, up to what ends the number. -/
theorem read_power (p : Int) (hrest : EndsNumber rest) :
    ∃ es, Decimal.splitSign ((toString p).toList ++ rest) = (decide (p < 0), es ++ rest) ∧
      es ≠ [] ∧ (es ++ rest).takeWhile isDigit = es ∧ (es ++ rest).dropWhile isDigit = rest ∧
      natOfDigits es = p.natAbs := by
  obtain ⟨d, es, hdigits⟩ :=
    List.exists_cons_of_ne_nil (Nat.toDigits_ne_nil (n := p.natAbs) (b := 10))
  have hall : ∀ c ∈ d :: es, isDigit c = true := by
    rw [← hdigits]
    exact fun c => Decimal.isDigit_of_mem_toDigits
  obtain ⟨htake, hdrop⟩ := Decimal.takeWhile_digits hall hrest.not_digit
  refine ⟨d :: es, ?_, List.cons_ne_nil d es, htake, hdrop, ?_⟩
  · rw [toList_toString_int, hdigits, signed, List.append_assoc]
    exact splitSign_signed (es ++ rest) (hall d List.mem_cons_self)
  · rw [← hdigits, Decimal.natOfDigits_toDigits]

theorem number?_of_scaled {p : Int}
    (hcs : wholeDigits? cs = some (negative, ds, 'e' :: ((toString p).toList ++ rest)))
    (hrest : EndsNumber rest) :
    number? cs =
      let x := Decimal.toFloat ⟨negative, natOfDigits ds, p⟩
      if x.isFinite then some (double x, rest) else none := by
  obtain ⟨es, hsplit, hes, htake, hdrop, hworth⟩ := read_power p hrest
  generalize (toString p).toList ++ rest = after at hcs hsplit
  unfold number?
  simp only [hcs, Option.bind_eq_bind, Option.bind_some]
  simp [hsplit, htake, hdrop, hworth, hes, signed_abs]

theorem number?_of_pointed_scaled {p : Int}
    (hcs : wholeDigits? cs =
      some (negative, ds, '.' :: (fs ++ 'e' :: ((toString p).toList ++ rest))))
    (hfs : ∀ c ∈ fs, isDigit c = true) (hne : fs ≠ []) (hrest : EndsNumber rest) :
    number? cs =
      let x := Decimal.toFloat ⟨negative, natOfDigits (ds ++ fs), p - fs.length⟩
      if x.isFinite then some (double x, rest) else none := by
  obtain ⟨es, hsplit, hes, htake, hdrop, hworth⟩ := read_power p hrest
  generalize (toString p).toList ++ rest = after at hcs hsplit
  have hmark : ∀ c ∈ ('e' :: after).head?, isDigit c = false := by
    rintro c ⟨⟩
    decide
  obtain ⟨hfraction, hafter⟩ := Decimal.takeWhile_digits hfs hmark
  unfold number?
  simp only [hcs, Option.bind_eq_bind, Option.bind_some]
  simp [hfraction, hafter, hne, hsplit, htake, hdrop, hworth, hes, signed_abs]

theorem number?_of_whole {n : Int} (hcs : wholeDigits? cs = some (negative, ds, rest))
    (hint : ofIntegerLiteral negative (natOfDigits ds) = int n) (hrest : EndsNumber rest) :
    number? cs = some (int n, rest) := by
  unfold number?
  simp only [hcs, Option.bind_eq_bind, Option.bind_some]
  rcases hrest.cases with rfl | ⟨c, after, rfl, hpoint, hmark⟩
  · simp [hint]
  · split
    · next heq => exact absurd (List.cons.inj heq).1 hpoint
    · simp [hmark, hint]

/-- What stands after the digits before the point begins with no digit. -/
theorem tail_not_digit {t : Numeral} (h : t.WellFormed) (rest : List Char) :
    ∀ c ∈ (t.tail ++ rest).head?, isDigit c = false := by
  obtain ⟨negative, whole, fraction, power⟩ := t
  intro c hc
  cases fraction with
  | cons => cases hc; decide
  | nil =>
    cases power with
    | some => cases hc; decide
    | none => rcases h.marked with h | h <;> exact absurd rfl h

/-- A numeral is read as the double that its decimal names. -/
theorem number?_numeral {t : Numeral} (h : t.WellFormed) (hrest : EndsNumber rest) :
    number? (t.text ++ rest) =
      if t.decimal.toFloat.isFinite then some (double t.decimal.toFloat, rest) else none := by
  have hcs : wholeDigits? (t.text ++ rest) = some (t.negative, t.whole, t.tail ++ rest) := by
    rw [Numeral.text, List.append_assoc, List.append_assoc]
    exact wholeDigits?_signed h.whole h.ne_nil h.leading (tail_not_digit h rest)
  obtain ⟨negative, whole, fraction, power⟩ := t
  generalize Numeral.text _ ++ rest = cs at hcs ⊢
  -- a numeral has a point, a power of ten or both, and each of the three is read in its own way
  cases fraction with
  | nil =>
    cases power with
    | none => rcases h.marked with h | h <;> exact absurd rfl h
    | some p =>
      have hcs : wholeDigits? cs = some (negative, whole, 'e' :: ((toString p).toList ++ rest)) := hcs
      rw [number?_of_scaled hcs hrest]
      simp [Numeral.decimal]
  | cons f fs =>
    cases power with
    | none =>
      have hcs : wholeDigits? cs = some (negative, whole, '.' :: (f :: fs ++ rest)) := by
        simpa [Numeral.tail, Numeral.powerText] using hcs
      rw [number?_of_pointed hcs h.fraction (List.cons_ne_nil f fs) hrest]
      simp [Numeral.decimal]
    | some p =>
      have hcs : wholeDigits? cs = some (negative, whole,
          '.' :: (f :: fs ++ 'e' :: ((toString p).toList ++ rest))) := by
        simpa [Numeral.tail, Numeral.powerText] using hcs
      rw [number?_of_pointed_scaled hcs h.fraction (List.cons_ne_nil f fs) hrest]
      simp [Numeral.decimal]

/-! ## Whole numbers -/

theorem ofIntegerLiteral_int {n : Int} (hlow : -2 ^ 63 ≤ n) (hhigh : n < 2 ^ 64) :
    ofIntegerLiteral (n < 0) n.natAbs = int n := by
  unfold ofIntegerLiteral
  by_cases h : n < 0
  · have hsize : n.natAbs ≠ 0 ∧ n.natAbs ≤ 2 ^ 63 := by omega
    have hvalue : -(n.natAbs : Int) = n := by omega
    rw [decide_eq_true h, if_neg (by simp), if_pos (by simpa using hsize), hvalue]
  · have hsize : n.natAbs < 2 ^ 64 := by omega
    have hvalue : (n.natAbs : Int) = n := by omega
    rw [decide_eq_false h, if_pos (by simpa using hsize), hvalue]

/-- The digits of a whole number of 64 bits are read as that number. -/
theorem number?_int {n : Int} (hlow : -2 ^ 63 ≤ n) (hhigh : n < 2 ^ 64) (hrest : EndsNumber rest) :
    number? ((toString n).toList ++ rest) = some (int n, rest) := by
  have hcs : wholeDigits? ((toString n).toList ++ rest) =
      some (decide (n < 0), Nat.toDigits 10 n.natAbs, rest) := by
    rw [toList_toString_int, signed, List.append_assoc]
    refine wholeDigits?_signed (fun c => Decimal.isDigit_of_mem_toDigits) Nat.toDigits_ne_nil ?_
      hrest.not_digit
    intro cs hzero
    rcases Nat.eq_zero_or_pos n.natAbs with h | h
    · rw [h] at hzero
      exact (List.cons.inj hzero).2.symm
    · exact absurd hzero (Decimal.toDigits_leading h)
  refine number?_of_whole hcs ?_ hrest
  rw [Decimal.natOfDigits_toDigits, ofIntegerLiteral_int hlow hhigh]

end Mosaic.Json
