import Mathlib.Tactic.Ring
import Mosaic.Dataset.Id
import Mosaic.Proofs.Json.Strings

/-!
# Identifiers and their texts

An identifier is written as 32 digits in hyphenated groups, and that text is read back as the same
identifier (`parse?_text`). None of the other forms of an identifier can be mistaken for it: the
text is not 32 characters long, and it begins with a digit, so neither with a brace nor with `urn`.
-/

namespace Mosaic.DatasetId

open Json (hexDigit)

/-! ## Digits -/

/-- A digit opens no other form of an identifier. -/
theorem hexDigit_ne_mark {n : Nat} (h : n < 16) :
    hexDigit n ≠ '\x7b' ∧ (hexDigit n).toLower ≠ 'u' := by
  have hall : ∀ m < 16, hexDigit m ≠ '\x7b' ∧ (hexDigit m).toLower ≠ 'u' := by decide
  exact hall n h

theorem length_hexDigits (count n : Nat) : (hexDigits count n).length = count := by
  induction count generalizing n with
  | zero => rfl
  | succ count ih => rw [hexDigits, List.length_append, ih, List.length_singleton]

/-- Reading digits continues with each further one. -/
theorem natOfHex?_append_singleton (cs : List Char) (c : Char) :
    natOfHex? (cs ++ [c]) =
      (natOfHex? cs).bind fun n => (Json.hexValue? c).map (16 * n + ·) := by
  simp only [natOfHex?, List.foldlM_append, List.foldlM_cons, List.foldlM_nil, bind_pure]
  rfl

/-- The last digits of a number are those of its remainder. -/
theorem natOfHex?_hexDigits (count n : Nat) :
    natOfHex? (hexDigits count n) = some (n % 16 ^ count) := by
  induction count generalizing n with
  | zero => rw [pow_zero, Nat.mod_one]; rfl
  | succ count ih =>
    have hdigit : Json.hexValue? (hexDigit (n % 16)) = some (n % 16) :=
      Json.hexValue?_hexDigit (Nat.mod_lt n (by decide))
    have hmod : n % 16 ^ (count + 1) = 16 * (n / 16 % 16 ^ count) + n % 16 := by
      rw [pow_succ', Nat.mod_mul, Nat.add_comm]
    rw [hexDigits, natOfHex?_append_singleton, ih, Option.bind_some, hdigit, hmod]
    rfl

theorem exists_hexDigits_eq_cons (count n : Nat) :
    ∃ m < 16, ∃ rest, hexDigits (count + 1) n = hexDigit m :: rest := by
  induction count generalizing n with
  | zero => exact ⟨n % 16, Nat.mod_lt n (by decide), [], rfl⟩
  | succ count ih =>
    obtain ⟨m, hm, rest, h⟩ := ih (n / 16)
    exact ⟨m, hm, rest ++ [hexDigit (n % 16)], by rw [hexDigits, h, List.cons_append]⟩

theorem ofDigits?_hexDigits (id : DatasetId) :
    ofDigits? (hexDigits 32 id.bits.toNat) = some id := by
  have hsize : (16 : Nat) ^ 32 = 2 ^ 128 := by norm_num
  have hbits : id.bits.toNat % 16 ^ 32 = id.bits.toNat := by
    rw [hsize]
    exact Nat.mod_eq_of_lt id.bits.isLt
  rw [ofDigits?, if_pos (length_hexDigits 32 _), natOfHex?_hexDigits, hbits, Option.map_some,
    BitVec.ofNat_toNat, BitVec.setWidth_eq]

/-! ## Groups -/

/-- Groups that take up all characters are put together again. -/
theorem joinGroups?_splitGroups {lengths : List Nat} {cs : List Char} (hne : lengths ≠ [])
    (h : cs.length = lengths.sum) : joinGroups? lengths (splitGroups lengths cs) = some cs := by
  induction lengths generalizing cs with
  | nil => exact absurd rfl hne
  | cons n rest ih =>
    cases rest with
    | nil =>
      have hlen : cs.length = n := by simpa using h
      rw [splitGroups, List.take_of_length_le hlen.le, joinGroups?, if_pos hlen]
    | cons m rest =>
      rw [List.sum_cons] at h
      have htake : (cs.take n).length = n := by
        rw [List.length_take]
        omega
      have hdrop : (cs.drop n).length = (m :: rest).sum := by
        rw [List.length_drop]
        omega
      have hrest := ih (List.cons_ne_nil m rest) hdrop
      have hcut : (cs.take n ++ '-' :: splitGroups (m :: rest) (cs.drop n)).drop n =
          '-' :: splitGroups (m :: rest) (cs.drop n) := List.drop_left' htake
      have hhead : (cs.take n ++ '-' :: splitGroups (m :: rest) (cs.drop n)).take n = cs.take n :=
        List.take_left' htake
      rw [splitGroups, joinGroups?, hcut, hhead]
      · simp only [hrest, Option.map_some, List.take_append_drop]
      all_goals exact List.cons_ne_nil m rest

theorem length_splitGroups {lengths : List Nat} {cs : List Char} (h : cs.length = lengths.sum) :
    (splitGroups lengths cs).length = cs.length + (lengths.length - 1) := by
  induction lengths generalizing cs with
  | nil => rw [List.sum_nil] at h; rw [splitGroups, h]; rfl
  | cons n rest ih =>
    cases rest with
    | nil =>
      have hlen : cs.length = n := by simpa using h
      rw [splitGroups, List.take_of_length_le hlen.le]
      rfl
    | cons m rest =>
      rw [List.sum_cons] at h
      have hdrop : (cs.drop n).length = (m :: rest).sum := by
        rw [List.length_drop]
        omega
      rw [splitGroups, List.length_append, List.length_cons, ih hdrop, List.length_take,
        List.length_drop]
      · simp only [List.length_cons]
        omega
      · exact nofun

/-! ## Texts -/

theorem toList_text (id : DatasetId) :
    id.text.toList = splitGroups groups (hexDigits 32 id.bits.toNat) := String.toList_ofList

/-- The text of an identifier begins with a digit. -/
theorem exists_toList_text (id : DatasetId) :
    ∃ n < 16, ∃ rest, id.text.toList = hexDigit n :: rest := by
  obtain ⟨n, hn, rest, h⟩ := exists_hexDigits_eq_cons 31 id.bits.toNat
  rw [toList_text, h]
  exact ⟨n, hn, _, rfl⟩

/-- An identifier is read back from its text. -/
@[simp] theorem parse?_text (id : DatasetId) : parse? id.text = some id := by
  have hsum : (hexDigits 32 id.bits.toNat).length = groups.sum := length_hexDigits 32 _
  have hlength : id.text.toList.length ≠ 32 := by
    rw [toList_text, length_splitGroups hsum, length_hexDigits]
    decide
  obtain ⟨n, hn, rest, htext⟩ := exists_toList_text id
  obtain ⟨hbrace, hmark⟩ := hexDigit_ne_mark hn
  have hurn : (id.text.toList.take "urn:uuid:".toList.length).map Char.toLower ≠
      "urn:uuid:".toList := by
    rw [htext]
    exact fun h => hmark (List.cons.inj h).1
  have hplain : inBraces? id.text.toList = none := by
    rw [htext]
    exact inBraces?.eq_2 _ fun cs h => hbrace (List.cons.inj h).1
  simp only [parse?, if_neg hlength, if_neg hurn, hplain]
  rw [ofHyphenated?, toList_text, joinGroups?_splitGroups (by decide) hsum, Option.bind_some,
    ofDigits?_hexDigits]

end Mosaic.DatasetId
