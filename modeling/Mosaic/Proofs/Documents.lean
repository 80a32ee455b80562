import Mosaic.Product.Document
import Mosaic.Proofs.Decimal.Digits
import Mosaic.Proofs.Outcome
import Mosaic.Proofs.SortedMap

/-!
# Reading what documents are written with

A reference system is read from its name (`Crs.parse_name`), a list of texts from the array of them,
and a sorted map from the object with its entries in order (`DataTree.map_entries`).
-/

namespace Mosaic

/-! ## Reference systems -/

namespace Text

/-- A character of a name that stays as it is: it has no upper case and is no blank. -/
def IsPlain (c : Char) : Prop := upperChar c = [c] ∧ isBlank c = false

theorem isPlain_digit {c : Char} (h : Decimal.isDigit c = true) : IsPlain c := by
  have hdigits : ∀ n < 58, 48 ≤ n →
      upperChar (Char.ofNat n) = [Char.ofNat n] ∧ isBlank (Char.ofNat n) = false := by
    decide +kernel
  simp only [Decimal.isDigit, Bool.and_eq_true, decide_eq_true_eq] at h
  have hlow : '0'.toNat ≤ c.toNat := h.1
  have hhigh : c.toNat ≤ '9'.toNat := h.2
  have h := hdigits c.toNat (Nat.lt_succ_of_le hhigh) hlow
  rwa [Char.ofNat_toNat] at h

theorem upper_trim {s : String} (h : ∀ c ∈ s.toList, IsPlain c) : upper (trim s) = s := by
  have hleft : ∀ cs : List Char, (∀ c ∈ cs, IsPlain c) → cs.dropWhile isBlank = cs := by
    intro cs hcs
    cases cs with
    | nil => rfl
    | cons c cs => exact List.dropWhile_cons_of_neg (by simp [(hcs c List.mem_cons_self).2])
  have htrim : trim s = s := by
    have hright := hleft s.toList.reverse fun c hc => h c (List.mem_reverse.mp hc)
    rw [trim, trimRight, trimLeft, hleft _ h, hright, List.reverse_reverse, String.ofList_toList]
  have hupper : s.toList.flatMap upperChar = s.toList := by
    have hmap : s.toList.flatMap upperChar = s.toList.flatMap fun c => [c] :=
      List.flatMap_congr fun c hc => (h c hc).1
    rw [hmap, List.flatMap_singleton']
  rw [htrim, upper, hupper, String.ofList_toList]

end Text

theorem parseNat?_toString {n limit : Nat} (h : n < limit) :
    parseNat? limit (toString n) = some n := by
  have hdigits : (toString n).toList = Nat.toDigits 10 n := by
    rw [Nat.toString_eq_repr, Nat.toList_repr]
  have hall : (Nat.toDigits 10 n).all Decimal.isDigit = true :=
    List.all_eq_true.mpr fun c => Decimal.isDigit_of_mem_toDigits
  unfold parseNat?
  rw [hdigits]
  split
  · next ds heq =>
    rw [heq] at hall
    exact absurd (Bool.and_eq_true_iff.mp hall).1 (by decide)
  · simp [hall, Decimal.natOfDigits_toDigits, h]

namespace Crs

theorem toList_name (crs : Crs) : crs.name.toList = "EPSG:".toList ++ (toString crs.epsg).toList := by
  rw [name, String.toList_append]
  rfl

theorem isPlain_name (crs : Crs) : ∀ c ∈ crs.name.toList, Text.IsPlain c := by
  have hprefix : ∀ c ∈ ['E', 'P', 'S', 'G', ':'], Text.IsPlain c := by
    simp only [List.forall_mem_cons]
    refine ⟨⟨?_, ?_⟩, ⟨?_, ?_⟩, ⟨?_, ?_⟩, ⟨?_, ?_⟩, ⟨?_, ?_⟩, nofun⟩ <;> decide +kernel
  intro c hc
  rw [toList_name, Nat.toString_eq_repr, Nat.toList_repr] at hc
  rcases List.mem_append.mp hc with hc | hc
  · exact hprefix c hc
  · exact Text.isPlain_digit (Decimal.isDigit_of_mem_toDigits hc)

/-- The reference system whose code stands in a text. -/
def ofCodeText? (text : String) : Option Crs := do
  let code ← Text.stripStart? "EPSG:" text
  let code ← parseNat? (2 ^ 32) code
  ofEpsg? code

theorem epsg_lt (crs : Crs) : crs.epsg < 2 ^ 32 := by
  cases crs with
  | utm zone south =>
    have := zone.isLt
    cases south <;> simp only [epsg] <;> omega
  | _ => decide

theorem ofCodeText?_name (crs : Crs) : ofCodeText? crs.name = some crs := by
  have hstrip : Text.stripStart? "EPSG:" crs.name = some (toString crs.epsg) := by
    have hlength : "EPSG:".toList.length = "EPSG:".length := rfl
    rw [Text.stripStart?, toList_name, if_pos (List.isPrefixOf_iff_prefix.mpr (List.prefix_append _ _)),
      ← hlength, List.drop_left, String.ofList_toList]
  unfold ofCodeText?
  rw [hstrip]
  show (parseNat? (2 ^ 32) (toString crs.epsg) >>= ofEpsg?) = _
  rw [parseNat?_toString crs.epsg_lt]
  exact ofEpsg?_epsg crs

/-- A reference system is read from its name. -/
theorem parse_name (crs : Crs) : parse crs.name = .ok crs := by
  have hcode := ofCodeText?_name crs
  -- a name that is listed beside the codes says the same as its code, or is that of no system
  have hlisted : ∀ {text : String} {other : Option Crs},
      (ofCodeText? text = none ∨ ofCodeText? text = other) → crs.name = text → other = some crs := by
    rintro text other (h | h) rfl
    · rw [hcode] at h
      cases h
    · exact h.symm.trans hcode
  have hparse : parse? crs.name = some crs := by
    unfold parse?
    rw [Text.upper_trim crs.isPlain_name]
    split
    case h_8 => exact hcode
    all_goals next h => exact hlisted (by decide +kernel) h
  rw [parse, hparse]

end Crs

/-! ## Sorted maps -/

namespace SortedMap

open Std (TransOrd OrientedOrd)

variable {α β : Type} [Ord α] [TransOrd α]

theorem alterEntries_append {key : α} (value : β) {entries : List (α × β)}
    (h : ∀ e ∈ entries, compare e.1 key = .lt) :
    alterEntries key (fun _ => some value) entries = entries ++ [(key, value)] := by
  induction entries with
  | nil => rfl
  | cons e entries ih =>
    obtain ⟨k, b⟩ := e
    have hk : compare key k = .gt := Std.OrientedCmp.gt_of_lt (h (k, b) List.mem_cons_self)
    simp only [alterEntries, hk, List.cons_append]
    rw [ih fun e he => h e (List.mem_cons_of_mem _ he)]

/-- Putting in a key above all others puts it at the end. -/
theorem insert_append {key : α} (value : β) {entries : List (α × β)}
    (h : ∀ e ∈ entries, compare e.1 key = .lt) :
    insert ⟨entries⟩ key value = ⟨entries ++ [(key, value)]⟩ :=
  congrArg SortedMap.mk (alterEntries_append value h)

/-- The keys of a sorted map differ. -/
theorem Sorted.nodup {m : SortedMap α β} (h : m.Sorted) : m.keys.Nodup :=
  h.imp fun {a b} hlt heq => by
    subst heq
    rw [Std.ReflOrd.compare_self] at hlt
    cases hlt

end SortedMap

namespace DataTree

variable {β : Type}

/-- A sorted map is read from the object with its entries in order. -/
theorem map_entries {m : SortedMap String β} (hsorted : m.Sorted) (write : β → Json)
    (read : Json → Except ReadError β) (h : ∀ e ∈ m.entries, read (write e.2) = .ok e.2) :
    map read (Json.object (m.entries.map fun e => (e.1, write e.2))) = .ok m := by
  have hrun : ∀ (todo done : List (String × β)), (⟨done ++ todo⟩ : SortedMap String β).Sorted →
      (∀ e ∈ todo, read (write e.2) = .ok e.2) →
      (todo.map fun e => (e.1, write e.2)).foldlM
        (fun (acc : SortedMap String β) m => do return acc.insert m.1 (← read m.2)) ⟨done⟩ =
          (.ok ⟨done ++ todo⟩ : Except ReadError (SortedMap String β)) := by
    intro todo
    induction todo with
    | nil =>
      intro done _ _
      rw [List.append_nil]
      rfl
    | cons e todo ih =>
      intro done hsorted h
      -- the entries come in ascending order, so each goes behind those before it
      have hbelow : ∀ e' ∈ done, compare e'.1 e.1 = .lt := by
        intro e' he'
        have hpairs := List.pairwise_append.mp (List.pairwise_map.mp hsorted)
        exact hpairs.2.2 e' he' e List.mem_cons_self
      have hrest := ih (done ++ [e]) (by simpa using hsorted) fun e' he' =>
        h e' (List.mem_cons_of_mem e he')
      rw [List.append_assoc] at hrest
      rw [List.map_cons, List.foldlM_cons, h e List.mem_cons_self]
      simp only [ok_bind, pure, Except.pure]
      rw [SortedMap.insert_append _ hbelow]
      exact hrest
  exact hrun m.entries [] hsorted h

theorem text_string (s : String) : text (Json.string s) = .ok s := rfl

/-- A list of texts is read from the array of them. -/
theorem list_ofStrings (texts : List String) : list text (Json.ofStrings texts) = .ok texts := by
  show (texts.map Json.string).mapM text = _
  induction texts with
  | nil => rfl
  | cons s texts ih => exact mapM_cons_ok.mpr ⟨s, texts, rfl, ih, rfl⟩

theorem optional_of_present {T : Type} [DataTree T] {read : T → Except ReadError β} {t : T} {b : β}
    (h : isAbsent t = false) (hread : read t = .ok b) : optional read t = .ok (some b) := by
  rw [optional, h, if_neg Bool.false_ne_true, hread]
  rfl

/-- One of several alternatives is read from its name. -/
theorem oneOf_string {wanted : String} {find? : String → Option β} {s : String} {b : β}
    (h : find? s = some b) : oneOf wanted find? (Json.string s) = .ok b := by
  show find wanted find? (some s) = _
  rw [find, h]

theorem natural_int {limit n : Nat} (h : n < limit) : natural limit (Json.int n) = .ok n := by
  show (if n < limit then _ else _) = _
  rw [if_pos h]

end DataTree

theorem Crs.ofTree_name (crs : Crs) : ofTree (Json.string crs.name) = .ok crs := by
  unfold ofTree
  rw [DataTree.text_string]
  simp only [ok_bind, parse_name]
  rfl

end Mosaic
