import Mosaic.Json.Exact
import Mosaic.Proofs.Json.Numbers
import Mosaic.Proofs.Json.Strings

/-!
# JSON texts read back

What is read from the compact text of a value is the value again, but for its floats: a number that
is not finite is written as null, and a single is read as the double that its shortest digits name
(`parse?_compact`).
-/

namespace Mosaic.Json

open Binary
open Decimal (isDigit)

/-- What is read for a value that is neither a list nor an object. -/
def rereadScalar : Json → Json
  | double x => ofFloat x
  | single x =>
    match Decimal.ofFloat32? x with
    | some d => double d.toFloat
    | none => null
  | v => v

/-- What is read from the text of a value. -/
def reread (v : Json) : Json := mapScalars rereadScalar v

/-- A value whose text can be read: its whole numbers have 64 bits, the keys of an object differ, and
no more than `depth` levels are open at once. -/
inductive Readable : Nat → Json → Prop
  | null {depth : Nat} : Readable depth null
  | bool {depth : Nat} (b : Bool) : Readable depth (bool b)
  | int {depth : Nat} {n : Int} (hlow : -2 ^ 63 ≤ n) (hhigh : n < 2 ^ 64) : Readable depth (int n)
  | double {depth : Nat} (x : Float) : Readable depth (double x)
  | single {depth : Nat} (x : Float32) : Readable depth (single x)
  | string {depth : Nat} (s : String) : Readable depth (string s)
  | array {depth : Nat} {items : List Json} (h : ∀ v ∈ items, Readable depth v) :
    Readable (depth + 1) (array items)
  | object {depth : Nat} {members : List (String × Json)}
    (h : ∀ m ∈ members, Readable depth m.2) (hkeys : (members.map Prod.fst).Nodup) :
    Readable (depth + 1) (object members)

/-! ## The parts of a value -/

theorem mapScalarsItems_eq_map (f : Json → Json) (items : List Json) :
    mapScalarsItems f items = items.map (mapScalars f) := by
  induction items with
  | nil => rfl
  | cons v items ih => rw [mapScalarsItems, ih, List.map_cons]

theorem mapScalarsMembers_eq_map (f : Json → Json) (members : List (String × Json)) :
    mapScalarsMembers f members = members.map fun m => (m.1, mapScalars f m.2) := by
  induction members with
  | nil => rfl
  | cons m members ih => rw [mapScalarsMembers, ih, List.map_cons]

theorem reread_array (items : List Json) : reread (array items) = array (items.map reread) := by
  rw [reread, mapScalars, mapScalarsItems_eq_map]
  rfl

theorem reread_object (members : List (String × Json)) :
    reread (object members) = object (members.map fun m => (m.1, reread m.2)) := by
  rw [reread, mapScalars, mapScalarsMembers_eq_map]
  rfl

/-- The text of a value, character by character. -/
def chars (v : Json) : List Char := (compact v).toList

/-- The text of a member. -/
def memberChars (m : String × Json) : List Char := '"' :: (quotedTail m.1 ++ ':' :: chars m.2)

theorem compactItems_chars (items : List Json) :
    (compactItems items).map String.toList = items.map chars := by
  induction items with
  | nil => rfl
  | cons v items ih => rw [compactItems, List.map_cons, ih, List.map_cons, chars]

theorem compactMembers_chars (members : List (String × Json)) :
    (compactMembers members).map String.toList = members.map memberChars := by
  induction members with
  | nil => rfl
  | cons m members ih =>
    rw [compactMembers, List.map_cons, ih, List.map_cons, memberChars]
    simp [toList_quoted, chars]

/-- Texts with commas between them. -/
def joined (texts : List (List Char)) : List Char := [','].intercalate texts

theorem joined_singleton (text : List Char) : joined [text] = text := List.intercalate_singleton

theorem joined_cons_cons (text next : List Char) (texts : List (List Char)) (rest : List Char) :
    joined (text :: next :: texts) ++ rest = text ++ ',' :: (joined (next :: texts) ++ rest) := by
  simp [joined, List.intercalate_cons_cons]

theorem length_joined_cons_cons (text next : List Char) (texts : List (List Char)) :
    (joined (text :: next :: texts)).length = text.length + 1 + (joined (next :: texts)).length := by
  simp only [joined, List.intercalate_cons_cons, List.length_append, List.length_singleton]

/-- The first text begins the whole. -/
theorem exists_joined_cons (text : List Char) (texts : List (List Char)) (rest : List Char) :
    ∃ after, joined (text :: texts) ++ rest = text ++ after := by
  cases texts with
  | nil => exact ⟨rest, by rw [joined_singleton]⟩
  | cons next texts => exact ⟨_, joined_cons_cons text next texts rest⟩

theorem chars_array (items : List Json) :
    chars (array items) = '[' :: (joined (items.map chars) ++ [']']) := by
  rw [chars, compact, joined, ← compactItems_chars]
  simp [String.toList_intercalate]

theorem chars_object (members : List (String × Json)) :
    chars (object members) = '\x7b' :: (joined (members.map memberChars) ++ ['\x7d']) := by
  rw [chars, compact, joined, ← compactMembers_chars]
  simp [String.toList_intercalate]

/-! ## Scalars -/

theorem skipSpace_cons {c : Char} (h : isSpace c = false) (cs : List Char) :
    skipSpace (c :: cs) = c :: cs := List.dropWhile_cons_of_neg (by simp [h])

/-- The first character of a number. -/
def StartsNumber (c : Char) : Prop := isDigit c = true ∨ c = '-'

theorem StartsNumber.ne {c d : Char} (hc : StartsNumber c) (hd : isDigit d = false)
    (hminus : d ≠ '-') : c ≠ d := by
  rintro rfl
  rcases hc with hc | hc
  · rw [hd] at hc
    cases hc
  · exact hminus hc

theorem StartsNumber.isSpace_eq {c : Char} (hc : StartsNumber c) : isSpace c = false := by
  have h1 := hc.ne (d := ' ') rfl (by decide)
  have h2 := hc.ne (d := '\n') rfl (by decide)
  have h3 := hc.ne (d := '\t') rfl (by decide)
  have h4 := hc.ne (d := '\r') rfl (by decide)
  simp [isSpace, h1, h2, h3, h4]

theorem value?_number {c : Char} (hc : StartsNumber c) (steps depth : Nat) (cs : List Char) :
    value? (steps + 1) depth (c :: cs) = number? (c :: cs) := by
  rw [value?, skipSpace_cons hc.isSpace_eq]
  split
  all_goals first
    | rfl
    | next heq => exact absurd (List.cons.inj heq).1 (hc.ne rfl (by decide))

/-- The text of a numeral begins as a number does. -/
theorem exists_text_cons {t : Decimal.Numeral} (h : t.WellFormed) :
    ∃ c cs, t.text = c :: cs ∧ StartsNumber c := by
  obtain ⟨c, cs, hwhole⟩ := List.exists_cons_of_ne_nil h.ne_nil
  have hc : isDigit c = true := h.whole c (by rw [hwhole]; exact List.mem_cons_self)
  unfold Decimal.Numeral.text
  rw [hwhole]
  cases t.negative with
  | true => exact ⟨_, _, rfl, .inr rfl⟩
  | false => exact ⟨_, _, rfl, .inl hc⟩

theorem isFinite_toFloat {d : Decimal} (hd : nearest .binary64 d.size < 2 ^ 1024) :
    d.toFloat.isFinite = true := (Decimal.isFloatOf_toFloat hd).1.isFinite

/-- The text of a decimal number is read as the double nearest to it. -/
theorem value?_general {d : Decimal} (hd : nearest .binary64 d.size < 2 ^ 1024) (least : Int)
    (steps depth : Nat) {rest : List Char} (hrest : EndsNumber rest) :
    value? (steps + 1) depth ((d.general least).toList ++ rest) =
      some (double d.toFloat, rest) := by
  obtain ⟨t, ht⟩ := Decimal.exists_numeral least d
  obtain ⟨c, cs, htext, hc⟩ := exists_text_cons ht.wellFormed
  have hsame : t.decimal.toFloat = d.toFloat :=
    (Decimal.toFloat_congr hd ht.negative_eq.symm ht.size_eq.symm).symm
  rw [ht.text_eq, htext, List.cons_append, value?_number hc, ← List.cons_append, ← htext,
    number?_numeral ht.wellFormed hrest, hsame, if_pos (isFinite_toFloat hd)]

theorem exists_toString_cons (n : Int) :
    ∃ c cs, (toString n).toList = c :: cs ∧ StartsNumber c := by
  obtain ⟨d, ds, hdigits⟩ :=
    List.exists_cons_of_ne_nil (Nat.toDigits_ne_nil (n := n.natAbs) (b := 10))
  have hd : isDigit d = true :=
    Decimal.isDigit_of_mem_toDigits (by rw [hdigits]; exact List.mem_cons_self)
  rw [toList_toString_int, hdigits]
  cases decide (n < 0) with
  | true => exact ⟨_, _, rfl, .inr rfl⟩
  | false => exact ⟨_, _, rfl, .inl hd⟩

theorem value?_int {n : Int} (hlow : -2 ^ 63 ≤ n) (hhigh : n < 2 ^ 64) (steps depth : Nat)
    {rest : List Char} (hrest : EndsNumber rest) :
    value? (steps + 1) depth ((toString n).toList ++ rest) = some (int n, rest) := by
  obtain ⟨c, cs, htext, hc⟩ := exists_toString_cons n
  rw [htext, List.cons_append, value?_number hc, ← List.cons_append, ← htext,
    number?_int hlow hhigh hrest]

theorem value?_double (x : Float) (steps depth : Nat) {rest : List Char} (hrest : EndsNumber rest) :
    value? (steps + 1) depth (chars (double x) ++ rest) = some (ofFloat x, rest) := by
  have hfinite := Decimal.isFinite_eq_isSome_ofFloat? x
  show value? (steps + 1) depth ((floatText x).toList ++ rest) = _
  unfold floatText ofFloat
  cases h : Decimal.ofFloat? x with
  | none =>
    rw [h] at hfinite
    rw [if_neg (by simp [hfinite])]
    rfl
  | some d =>
    rw [h] at hfinite
    rw [if_pos (show x.isFinite = true from hfinite)]
    refine (value?_general (Decimal.nearest_size_lt_of_ofFloat? h) (-5) steps depth hrest).trans ?_
    rw [Decimal.toFloat_of_ofFloat? h]

theorem value?_single (x : Float32) (steps depth : Nat) {rest : List Char}
    (hrest : EndsNumber rest) :
    value? (steps + 1) depth (chars (single x) ++ rest) = some (rereadScalar (single x), rest) := by
  show value? (steps + 1) depth ((float32Text x).toList ++ rest) = _
  unfold float32Text rereadScalar
  cases h : Decimal.ofFloat32? x with
  | none =>
    simp only [h]
    rfl
  | some d =>
    simp only [h]
    exact value?_general (Decimal.nearest_size_lt_of_ofFloat32? h) (-5) steps depth hrest

theorem value?_string (s : String) (steps depth : Nat) (rest : List Char) :
    value? (steps + 1) depth (chars (string s) ++ rest) = some (string s, rest) := by
  have htext : chars (string s) = '"' :: quotedTail s := toList_quoted s
  rw [htext, List.cons_append, value?, skipSpace_cons rfl]
  simp only [stringTail?_quoted, Option.map_some]

/-! ## Lists and objects -/

/-- No text begins with a blank or with a closing bracket. -/
theorem exists_chars_cons (v : Json) :
    ∃ c cs, chars v = c :: cs ∧ isSpace c = false ∧ c ≠ ']' := by
  have hnumber : ∀ d least, ∃ c cs, (Decimal.general least d).toList = c :: cs ∧
      isSpace c = false ∧ c ≠ ']' := by
    intro d least
    obtain ⟨t, ht⟩ := Decimal.exists_numeral least d
    obtain ⟨c, cs, htext, hc⟩ := exists_text_cons ht.wellFormed
    exact ⟨c, cs, ht.text_eq.trans htext, hc.isSpace_eq, hc.ne rfl (by decide)⟩
  cases v with
  | null => exact ⟨'n', _, rfl, rfl, by decide⟩
  | bool b =>
    cases b with
    | true => exact ⟨'t', _, rfl, rfl, by decide⟩
    | false => exact ⟨'f', _, rfl, rfl, by decide⟩
  | int n =>
    obtain ⟨c, cs, htext, hc⟩ := exists_toString_cons n
    exact ⟨c, cs, htext, hc.isSpace_eq, hc.ne rfl (by decide)⟩
  | double x =>
    show ∃ c cs, (floatText x).toList = c :: cs ∧ _
    unfold floatText
    split
    · exact hnumber _ _
    · exact ⟨'n', _, rfl, rfl, by decide⟩
  | single x =>
    show ∃ c cs, (float32Text x).toList = c :: cs ∧ _
    unfold float32Text
    split
    · exact hnumber _ _
    · exact ⟨'n', _, rfl, rfl, by decide⟩
  | string s => exact ⟨'"', _, toList_quoted s, rfl, by decide⟩
  | array items => exact ⟨'[', _, chars_array items, rfl, by decide⟩
  | object members => exact ⟨'\x7b', _, chars_object members, rfl, by decide⟩

theorem endsNumber_cons {c : Char} (hdigit : isDigit c = false) (hpoint : c ≠ '.') (he : c ≠ 'e')
    (hE : c ≠ 'E') (rest : List Char) : EndsNumber (c :: rest) := by
  rintro d ⟨⟩
  exact ⟨hdigit, hpoint, he, hE⟩

/-- A value is read from its text, whatever follows that does not go on with a number. -/
def ReadsBack (depth : Nat) (v : Json) : Prop :=
  ∀ steps rest, 2 * (chars v).length ≤ steps → EndsNumber rest →
    value? steps depth (chars v ++ rest) = some (reread v, rest)

theorem ReadsBack.value? {depth : Nat} {v : Json} (h : ReadsBack depth v) {steps : Nat} {c : Char}
    {rest : List Char} (hsteps : 2 * (chars v).length ≤ steps) (hc : c = ',' ∨ c = ']' ∨ c = '\x7d') :
    value? steps depth (chars v ++ c :: rest) = some (reread v, c :: rest) := by
  refine h steps _ hsteps ?_
  rcases hc with rfl | rfl | rfl <;> exact endsNumber_cons rfl (by decide) (by decide) (by decide) _

theorem items?_joined {depth : Nat} {items : List Json} (hread : ∀ v ∈ items, ReadsBack depth v)
    (hne : items ≠ []) (acc : List Json) {steps : Nat} (rest : List Char)
    (hsteps : 2 * (joined (items.map chars)).length < steps) :
    items? steps depth acc (joined (items.map chars) ++ ']' :: rest) =
      some (acc.reverse ++ items.map reread, rest) := by
  -- every item takes one step off, and the comma behind it stands for two
  induction items generalizing acc steps with
  | nil => exact absurd rfl hne
  | cons v items ih =>
    obtain ⟨steps, rfl⟩ := Nat.exists_eq_add_one.mpr (Nat.zero_lt_of_lt hsteps)
    have hv := hread v List.mem_cons_self
    cases items with
    | nil =>
      rw [List.map_singleton, joined_singleton] at hsteps
      rw [List.map_singleton, joined_singleton, items?, hv.value? (by omega) (by simp)]
      simp only [skipSpace_cons (show isSpace ']' = false from rfl), List.reverse_cons]
      rfl
    | cons w items =>
      rw [List.map_cons, List.map_cons, length_joined_cons_cons] at hsteps
      rw [List.map_cons, List.map_cons, joined_cons_cons, items?, hv.value? (by omega) (by simp)]
      simp only [skipSpace_cons (show isSpace ',' = false from rfl)]
      have hsteps : 2 * (joined ((w :: items).map chars)).length < steps := by
        rw [List.map_cons]
        omega
      have hrest := ih (fun u hu => hread u (List.mem_cons_of_mem v hu)) (List.cons_ne_nil w items)
        (reread v :: acc) hsteps
      rw [List.map_cons] at hrest
      rw [hrest, List.reverse_cons, List.append_assoc]
      rfl

theorem setMember_append {key : String} {members : List (String × Json)}
    (h : key ∉ members.map Prod.fst) (value : Json) :
    setMember key value members = members ++ [(key, value)] := by
  induction members with
  | nil => rfl
  | cons m members ih =>
    rw [List.map_cons, List.mem_cons, not_or] at h
    rw [setMember, if_neg (Ne.symm h.1), ih h.2, List.cons_append]

/-- The steps that a member takes are enough for its value. -/
theorem value?_of_member {depth : Nat} {m : String × Json} (hm : ReadsBack depth m.2) {steps : Nat}
    {c : Char} {rest : List Char} (hsteps : 2 * (memberChars m).length ≤ steps)
    (hc : c = ',' ∨ c = ']' ∨ c = '\x7d') :
    value? steps depth (chars m.2 ++ c :: rest) = some (reread m.2, c :: rest) := by
  refine hm.value? (le_trans ?_ hsteps) hc
  simp only [memberChars, List.length_cons, List.length_append]
  omega

/-- After a comma another member is read. -/
theorem members?_comma {depth : Nat} {m : String × Json} (hm : ReadsBack depth m.2)
    (acc : List (String × Json)) {steps : Nat} (rest : List Char)
    (hsteps : 2 * (memberChars m).length ≤ steps) :
    members? (steps + 1) depth acc (memberChars m ++ ',' :: rest) =
      members? steps depth (setMember m.1 (reread m.2) acc) rest := by
  rw [memberChars, List.cons_append, members?, skipSpace_cons rfl, List.append_assoc]
  simp only [stringTail?_quoted, List.cons_append, skipSpace_cons (show isSpace ':' = false from rfl),
    value?_of_member hm hsteps (.inl rfl), skipSpace_cons (show isSpace ',' = false from rfl)]

/-- After a closing brace no member is read. -/
theorem members?_close {depth : Nat} {m : String × Json} (hm : ReadsBack depth m.2)
    (acc : List (String × Json)) {steps : Nat} (rest : List Char)
    (hsteps : 2 * (memberChars m).length ≤ steps) :
    members? (steps + 1) depth acc (memberChars m ++ '\x7d' :: rest) =
      some (setMember m.1 (reread m.2) acc, rest) := by
  rw [memberChars, List.cons_append, members?, skipSpace_cons rfl, List.append_assoc]
  simp only [stringTail?_quoted, List.cons_append, skipSpace_cons (show isSpace ':' = false from rfl),
    value?_of_member hm hsteps (.inr (.inr rfl)), skipSpace_cons (show isSpace '\x7d' = false from rfl)]

theorem members?_joined {depth : Nat} {members acc : List (String × Json)}
    (hread : ∀ m ∈ members, ReadsBack depth m.2) (hne : members ≠ [])
    (hkeys : (acc.map Prod.fst ++ members.map Prod.fst).Nodup) {steps : Nat} (rest : List Char)
    (hsteps : 2 * (joined (members.map memberChars)).length < steps) :
    members? steps depth acc (joined (members.map memberChars) ++ '\x7d' :: rest) =
      some (acc ++ members.map fun m => (m.1, reread m.2), rest) := by
  induction members generalizing acc steps with
  | nil => exact absurd rfl hne
  | cons m members ih =>
    obtain ⟨steps, rfl⟩ := Nat.exists_eq_add_one.mpr (Nat.zero_lt_of_lt hsteps)
    have hm := hread m List.mem_cons_self
    -- the keys differ, so the member is put at the end
    have hnew : m.1 ∉ acc.map Prod.fst := fun hmem =>
      (List.nodup_append.mp hkeys).2.2 m.1 hmem m.1 (by simp) rfl
    have hset := setMember_append hnew (reread m.2)
    cases members with
    | nil =>
      rw [List.map_singleton, joined_singleton] at hsteps
      rw [List.map_singleton, joined_singleton, members?_close hm acc rest (by omega), hset]
      rfl
    | cons n members =>
      rw [List.map_cons, List.map_cons, length_joined_cons_cons] at hsteps
      rw [List.map_cons, List.map_cons, joined_cons_cons,
        members?_comma hm acc _ (by omega), hset]
      have hsteps : 2 * (joined ((n :: members).map memberChars)).length < steps := by
        rw [List.map_cons]
        omega
      have hkeys : ((acc ++ [(m.1, reread m.2)]).map Prod.fst ++ (n :: members).map Prod.fst).Nodup := by
        simpa using hkeys
      have hrest := ih (fun u hu => hread u (List.mem_cons_of_mem m hu)) (List.cons_ne_nil n members)
        hkeys hsteps
      rw [List.append_assoc] at hrest
      exact hrest

theorem readsBack_array {depth : Nat} {items : List Json} (h : ∀ v ∈ items, ReadsBack depth v) :
    ReadsBack (depth + 1) (array items) := by
  intro steps rest hsteps _
  rw [chars_array] at hsteps ⊢
  simp only [List.length_cons, List.length_append] at hsteps
  obtain ⟨steps, rfl⟩ := Nat.exists_eq_add_one.mpr (show 0 < steps by omega)
  rw [List.cons_append, List.append_assoc, value?, skipSpace_cons rfl, reread_array]
  cases items with
  | nil => rfl
  | cons v items =>
    have hitems := items?_joined h (List.cons_ne_nil v items) [] rest
      (show 2 * (joined ((v :: items).map chars)).length < steps by omega)
    obtain ⟨c, cs, hchars, hspace, hclose⟩ := exists_chars_cons v
    obtain ⟨after, hjoined⟩ := exists_joined_cons (chars v) (items.map chars) (']' :: rest)
    have hjoined : joined (chars v :: items.map chars) ++ ']' :: rest = c :: (cs ++ after) := by
      rw [hjoined, hchars, List.cons_append]
    rw [List.map_cons, hjoined] at hitems
    rw [List.map_cons, List.singleton_append, hjoined]
    -- what begins the first item closes no list
    simp only [skipSpace_cons hspace]
    split
    · next heq => exact absurd (List.cons.inj heq).1 hclose
    · rw [hitems]
      rfl

theorem readsBack_object {depth : Nat} {members : List (String × Json)}
    (h : ∀ m ∈ members, ReadsBack depth m.2) (hkeys : (members.map Prod.fst).Nodup) :
    ReadsBack (depth + 1) (object members) := by
  intro steps rest hsteps _
  rw [chars_object] at hsteps ⊢
  simp only [List.length_cons, List.length_append] at hsteps
  obtain ⟨steps, rfl⟩ := Nat.exists_eq_add_one.mpr (show 0 < steps by omega)
  rw [List.cons_append, List.append_assoc, value?, skipSpace_cons rfl, reread_object]
  cases members with
  | nil => rfl
  | cons m members =>
    have hkeys : (([] : List (String × Json)).map Prod.fst ++ (m :: members).map Prod.fst).Nodup := hkeys
    have hmembers := members?_joined h (List.cons_ne_nil m members) hkeys rest
      (show 2 * (joined ((m :: members).map memberChars)).length < steps by omega)
    obtain ⟨after, hjoined⟩ :=
      exists_joined_cons (memberChars m) (members.map memberChars) ('\x7d' :: rest)
    have hquote : joined (memberChars m :: members.map memberChars) ++ '\x7d' :: rest =
        '"' :: (quotedTail m.1 ++ ':' :: chars m.2 ++ after) := by
      rw [hjoined, memberChars, List.cons_append]
    rw [List.map_cons, hquote] at hmembers
    rw [List.map_cons, List.singleton_append, hquote]
    simp only [skipSpace_cons (show isSpace '"' = false from rfl)]
    split
    · next heq => exact absurd (List.cons.inj heq).1 (by decide)
    · rw [hmembers]
      rfl

/-- A value whose text can be read is read from it. -/
theorem Readable.readsBack {depth : Nat} {v : Json} (h : Readable depth v) : ReadsBack depth v := by
  -- only the readers of nested values use up steps, and no text is empty
  have hsteps : ∀ {v : Json} {steps : Nat}, 2 * (chars v).length ≤ steps → ∃ k, steps = k + 1 := by
    intro v steps h
    obtain ⟨c, cs, hchars, -⟩ := exists_chars_cons v
    rw [hchars, List.length_cons] at h
    exact Nat.exists_eq_add_one.mpr (by omega)
  induction h with
  | null =>
    intro steps rest h _
    obtain ⟨steps, rfl⟩ := hsteps h
    rfl
  | bool b =>
    intro steps rest h _
    obtain ⟨steps, rfl⟩ := hsteps h
    cases b <;> rfl
  | int hlow hhigh =>
    intro steps rest h hrest
    obtain ⟨steps, rfl⟩ := hsteps h
    exact value?_int hlow hhigh steps _ hrest
  | double x =>
    intro steps rest h hrest
    obtain ⟨steps, rfl⟩ := hsteps h
    exact value?_double x steps _ hrest
  | single x =>
    intro steps rest h hrest
    obtain ⟨steps, rfl⟩ := hsteps h
    exact value?_single x steps _ hrest
  | string s =>
    intro steps rest h _
    obtain ⟨steps, rfl⟩ := hsteps h
    exact value?_string s steps _ rest
  | array h ih => exact readsBack_array ih
  | object h hkeys ih => exact readsBack_object ih hkeys

/-- The text of a value is read back, but for its floats. -/
theorem parse?_compact {v : Json} (h : Readable 127 v) : parse? (compact v) = some (reread v) := by
  have hread := h.readsBack (2 * (chars v).length + 2) [] (by omega) nofun
  rw [List.append_nil] at hread
  unfold parse? readValue?
  rw [show (compact v).toList = chars v from rfl, hread]
  rfl

end Mosaic.Json
