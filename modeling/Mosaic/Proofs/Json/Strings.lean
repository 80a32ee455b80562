import Mathlib.Tactic.SplitIfs
import Mosaic.Json.Print
import Mosaic.Json.Read

/-!
# Strings in JSON texts

Every character is written so that it is read back: as itself, after a backslash, or by its code in
four hexadecimal digits (`stringTail?_escapeChar`). So a quoted text is read as the text
(`stringTail?_quoted`).
-/

namespace Mosaic.Json

theorem hexValue?_hexDigit {n : Nat} (hn : n < 16) : hexValue? (hexDigit n) = some n := by
  revert n
  decide

/-- A control character is read from its code. -/
theorem unicodeEscape?_control {c : Char} (hc : c.toNat < 32) (rest : List Char) :
    unicodeEscape? ('0' :: '0' :: hexDigit (c.toNat / 16) :: hexDigit (c.toNat % 16) :: rest) =
      some (c, rest) := by
  have hzero : hexValue? '0' = some 0 := rfl
  have hhex : hex4? ('0' :: '0' :: hexDigit (c.toNat / 16) :: hexDigit (c.toNat % 16) :: rest) =
      some (c.toNat, rest) := by
    have hdigits : ((0 * 16 + 0) * 16 + c.toNat / 16) * 16 + c.toNat % 16 = c.toNat := by omega
    simp only [hex4?, hzero, hexValue?_hexDigit (show c.toNat / 16 < 16 by omega),
      hexValue?_hexDigit (show c.toNat % 16 < 16 by omega), Option.bind_eq_bind, Option.bind_some,
      hdigits]
    rfl
  have hlow : (decide (0xDC00 ≤ c.toNat) && decide (c.toNat ≤ 0xDFFF)) = false := by
    rw [decide_eq_false (by omega), Bool.false_and]
  have hhigh : (decide (0xD800 ≤ c.toNat) && decide (c.toNat ≤ 0xDBFF)) = false := by
    rw [decide_eq_false (by omega), Bool.false_and]
  simp only [unicodeEscape?, hhex, Option.bind_eq_bind, Option.bind_some, hlow, hhigh,
    Char.ofNat_toNat]
  rfl

theorem char_of_toNat_eq {c : Char} {n : Nat} (h : c.toNat = n) : c = Char.ofNat n := by
  rw [← h, Char.ofNat_toNat]

/-- One step reads what stands for one character. -/
theorem stringTail?_escapeChar (steps : Nat) (acc : List Char) (c : Char) (rest : List Char) :
    stringTail? (steps + 1) acc (escapeChar c ++ rest) = stringTail? steps (c :: acc) rest := by
  unfold escapeChar
  split_ifs with hquote hslash hline hreturn htab hback hfeed hcontrol
  · rw [hquote]
    rfl
  · rw [hslash]
    rfl
  · rw [hline]
    rfl
  · rw [hreturn]
    rfl
  · rw [htab]
    rfl
  · rw [char_of_toNat_eq hback]
    rfl
  · rw [char_of_toNat_eq hfeed]
    rfl
  · simp only [List.cons_append, List.nil_append, stringTail?, unicodeEscape?_control hcontrol]
  · simp only [List.cons_append, List.nil_append]
    rw [stringTail?]
    · rw [if_neg hcontrol]
    · exact hquote
    · exact fun _ h _ => hslash h
    · exact fun _ _ h _ => hslash h

theorem one_le_length_escapeChar (c : Char) : 1 ≤ (escapeChar c).length := by
  unfold escapeChar
  split_ifs <;> simp

/-- The rest of a quoted text is read as the characters of the text. -/
theorem stringTail?_escaped {steps : Nat} (acc cs rest : List Char) (h : cs.length < steps) :
    stringTail? steps acc (cs.flatMap escapeChar ++ '"' :: rest) =
      some (String.ofList (acc.reverse ++ cs), rest) := by
  induction cs generalizing acc steps with
  | nil =>
    obtain ⟨steps, rfl⟩ := Nat.exists_eq_add_one.mpr h
    rw [List.append_nil]
    rfl
  | cons c cs ih =>
    obtain ⟨steps, rfl⟩ := Nat.exists_eq_add_one.mpr (Nat.zero_lt_of_lt h)
    rw [List.flatMap_cons, List.append_assoc, stringTail?_escapeChar,
      ih (c :: acc) (Nat.lt_of_succ_lt_succ h)]
    simp

theorem length_le_length_flatMap_escapeChar (cs : List Char) :
    cs.length ≤ (cs.flatMap escapeChar).length := by
  induction cs with
  | nil => exact Nat.le_refl 0
  | cons c cs ih =>
    have := one_le_length_escapeChar c
    rw [List.flatMap_cons, List.length_append, List.length_cons]
    omega

/-- What follows the opening quote of a quoted text. -/
def quotedTail (s : String) : List Char := s.toList.flatMap escapeChar ++ ['"']

theorem toList_quoted (s : String) : (quoted s).toList = '"' :: quotedTail s := by
  simp [quoted, quotedTail]

/-- A quoted text is read as the text. -/
theorem stringTail?_quoted (s : String) (rest : List Char) :
    stringTail? ((quotedTail s ++ rest).length + 1) [] (quotedTail s ++ rest) = some (s, rest) := by
  have hlength := length_le_length_flatMap_escapeChar s.toList
  have hsteps : s.toList.length < (quotedTail s ++ rest).length + 1 := by
    rw [quotedTail, List.length_append, List.length_append]
    omega
  generalize (quotedTail s ++ rest).length + 1 = steps at hsteps
  rw [quotedTail, List.append_assoc]
  refine (stringTail?_escaped [] s.toList rest hsteps).trans ?_
  rw [List.reverse_nil, List.nil_append, String.ofList_toList]

end Mosaic.Json
