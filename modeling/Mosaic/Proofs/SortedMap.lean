import Mathlib.Data.List.Sort
import Mosaic.SortedMap

/-!
# Laws of sorted maps

A sorted map is a list of entries, and nothing in its type keeps the list in order. `Sorted` says
that the keys ascend strictly; the empty map has this, and `alter` keeps it. On a sorted map a
look-up after a change gives what the change made of the old value under the same key
(`find?_alter_self`) and the old value under every other key (`find?_alter_of_ne`). Every other
operation is made of `alter`, so its laws are cases of these two.
-/

namespace Mosaic.SortedMap

open Std (TransOrd LawfulEqOrd)

variable {α β γ : Type} [Ord α]

/-- The keys ascend strictly. -/
def Sorted (m : SortedMap α β) : Prop := m.keys.Pairwise fun a b => compare a b = .lt

theorem sorted_empty : Sorted (∅ : SortedMap α β) := List.Pairwise.nil

theorem sorted_tail {e : α × β} {rest : List (α × β)} (h : Sorted ⟨e :: rest⟩) :
    Sorted ⟨rest⟩ := List.Pairwise.of_cons h

theorem compare_ne_eq [LawfulEqOrd α] {a b : α} (h : a ≠ b) : compare a b ≠ .eq := fun hc =>
  h (LawfulEqOrd.eq_of_compare hc)

/-! ## Look-up -/

@[simp] theorem find?_empty (key : α) : (∅ : SortedMap α β).find? key = none := rfl

theorem mem_keys_iff [LawfulEqOrd α] (m : SortedMap α β) (key : α) :
    key ∈ m.keys ↔ (m.find? key).isSome := by
  obtain ⟨entries⟩ := m
  show key ∈ entries.map Prod.fst ↔ ( findEntry? key entries).isSome
  induction entries with
  | nil => simp [ findEntry?]
  | cons e rest ih =>
    obtain ⟨k, b⟩ := e
    rw [List.map_cons, List.mem_cons, ih, findEntry?]
    by_cases h : key = k
    · subst h
      simp
    · rw [if_neg (compare_ne_eq h)]
      simp [h]

theorem exists_find? [LawfulEqOrd α] {m : SortedMap α β} {key : α} (h : key ∈ m.keys) :
    ∃ value, m.find? key = some value := Option.isSome_iff_exists.mp ((mem_keys_iff m key).mp h)

theorem find?_mapValues (f : β → γ) (m : SortedMap α β) (key : α) :
    (m.mapValues f).find? key = (m.find? key).map f := by
  obtain ⟨entries⟩ := m
  show findEntry? key (entries.map fun e => (e.1, f e.2)) = ( findEntry? key entries).map f
  induction entries with
  | nil => rfl
  | cons e rest ih =>
    rw [List.map_cons, findEntry?, findEntry?, ih]
    split <;> rfl

theorem sorted_mapValues (f : β → γ) {m : SortedMap α β} (h : m.Sorted) :
    (m.mapValues f).Sorted := by
  have hkeys : (m.mapValues f).keys = m.keys := List.map_map
  rwa [Sorted, hkeys]

/-- A key below all keys of a list has no entry there. -/
theorem findEntry?_eq_none {key : α} {entries : List (α × β)}
    (h : ∀ e ∈ entries, compare key e.1 = .lt) : findEntry? key entries = none := by
  induction entries with
  | nil => rfl
  | cons e rest ih =>
    have he : compare key e.1 ≠ .eq := by simp [h e List.mem_cons_self]
    rw [ findEntry?, if_neg he]
    exact ih fun e' he' => h e' (List.mem_cons_of_mem e he')

/-! ## Change -/

section Change

variable [TransOrd α] [LawfulEqOrd α]

omit [TransOrd α] in
/-- A change adds no key but its own. -/
theorem mem_keys_alterEntries {key k : α} {change : Option β → Option β} {entries : List (α × β)}
    (h : k ∈ (alterEntries key change entries).map Prod.fst) :
    k = key ∨ k ∈ entries.map Prod.fst := by
  induction entries with
  | nil =>
    rw [alterEntries] at h
    cases hc : change none <;> simp_all
  | cons head rest ih =>
    obtain ⟨k', b⟩ := head
    rw [alterEntries] at h
    cases hk : compare key k' with
    | lt => cases hc : change none <;> simp_all
    | eq => cases hc : change (some b) <;> simp_all
    | gt =>
      rw [hk] at h
      rcases List.mem_cons.mp h with rfl | h
      · exact .inr List.mem_cons_self
      · exact (ih h).imp_right (List.mem_cons_of_mem _)

/-- The entries of a sorted map after its first one have greater keys. -/
theorem lt_of_sorted_cons {k key : α} {b : β} {rest : List (α × β)} (h : Sorted ⟨(k, b) :: rest⟩)
    (hk : compare key k ≠ .gt) : ∀ e ∈ rest, compare key e.1 = .lt := by
  intro e he
  have hke : compare k e.1 = .lt := List.rel_of_pairwise_cons h (List.mem_map_of_mem he)
  cases hc : compare key k with
  | lt => exact Std.TransCmp.lt_trans hc hke
  | eq => rwa [LawfulEqOrd.eq_of_compare hc]
  | gt => exact absurd hc hk

theorem sorted_alter {m : SortedMap α β} (h : m.Sorted) (key : α)
    (change : Option β → Option β) : (m.alter key change).Sorted := by
  obtain ⟨entries⟩ := m
  show Sorted ⟨alterEntries key change entries⟩
  induction entries with
  | nil =>
    rw [alterEntries]
    cases change none
    · exact sorted_empty
    · exact List.pairwise_singleton ..
  | cons e rest ih =>
    obtain ⟨k, b⟩ := e
    rw [alterEntries]
    cases hk : compare key k with
    -- the key belongs before all the others
    | lt =>
      have hrest := lt_of_sorted_cons h (by rw [hk]; decide)
      cases change none with
      | none => exact h
      | some c =>
        refine List.Pairwise.cons ?_ h
        intro k' hk'
        obtain ⟨e, he, rfl⟩ := List.mem_map.mp hk'
        rcases List.mem_cons.mp he with rfl | he
        · exact hk
        · exact hrest e he
    | eq =>
      cases change (some b) with
      | none => exact sorted_tail h
      | some c => exact h
    -- the key belongs into the tail, and a change there brings in no smaller key
    | gt =>
      refine List.Pairwise.cons ?_ (ih (sorted_tail h))
      intro k' hk'
      rcases mem_keys_alterEntries hk' with rfl | hmem
      · exact Std.OrientedCmp.lt_of_gt hk
      · exact List.rel_of_pairwise_cons h hmem

omit [TransOrd α] in
/-- A change adds no entry but the one that it makes. -/
theorem mem_entries_alter {m : SortedMap α β} {key : α} {change : Option β → Option β} {e : α × β}
    (h : e ∈ (m.alter key change).entries) :
    e ∈ m.entries ∨ e.1 = key ∧ ∃ old, change old = some e.2 := by
  obtain ⟨entries⟩ := m
  replace h : e ∈ alterEntries key change entries := h
  show e ∈ entries ∨ _
  induction entries with
  | nil =>
    rw [alterEntries] at h
    cases hc : change none with
    | none => simp [hc] at h
    | some c =>
      rw [hc] at h
      rw [List.mem_singleton.mp h]
      exact .inr ⟨rfl, none, hc⟩
  | cons head rest ih =>
    obtain ⟨k, b⟩ := head
    rw [alterEntries] at h
    cases hk : compare key k with
    | lt =>
      rw [hk] at h
      cases hc : change none with
      | none => exact .inl (by simpa [hc] using h)
      | some c =>
        rw [hc] at h
        rcases List.mem_cons.mp h with rfl | h
        · exact .inr ⟨rfl, none, hc⟩
        · exact .inl h
    | eq =>
      rw [hk] at h
      have hkey : key = k := LawfulEqOrd.eq_of_compare hk
      cases hc : change (some b) with
      | none => exact .inl (List.mem_cons_of_mem _ (by simpa [hc] using h))
      | some c =>
        rw [hc] at h
        rcases List.mem_cons.mp h with rfl | h
        · exact .inr ⟨hkey.symm, some b, hc⟩
        · exact .inl (List.mem_cons_of_mem _ h)
    | gt =>
      rw [hk] at h
      rcases List.mem_cons.mp h with rfl | h
      · exact .inl List.mem_cons_self
      · exact (ih h).imp_left (List.mem_cons_of_mem _)

theorem find?_alter_self {m : SortedMap α β} (h : m.Sorted) (key : α)
    (change : Option β → Option β) : (m.alter key change).find? key = change (m.find? key) := by
  obtain ⟨entries⟩ := m
  show findEntry? key (alterEntries key change entries) = change ( findEntry? key entries)
  induction entries with
  | nil => cases hc : change none <;> simp [alterEntries, findEntry?, hc]
  | cons e rest ih =>
    obtain ⟨k, b⟩ := e
    rw [alterEntries]
    cases hk : compare key k with
    | lt =>
      have hrest := findEntry?_eq_none (lt_of_sorted_cons h (by rw [hk]; decide))
      cases hc : change none <;> simp [ findEntry?, hk, hrest, hc]
    | eq =>
      have hrest := findEntry?_eq_none (lt_of_sorted_cons h (by rw [hk]; decide))
      cases hc : change (some b) <;> simp [ findEntry?, hk, hrest, hc]
    | gt => simp [ findEntry?, hk, ih (sorted_tail h)]

omit [TransOrd α] in
theorem find?_alter_of_ne (m : SortedMap α β) {key other : α} (h : other ≠ key)
    (change : Option β → Option β) : (m.alter key change).find? other = m.find? other := by
  obtain ⟨entries⟩ := m
  show findEntry? other (alterEntries key change entries) = findEntry? other entries
  have hother : compare other key ≠ .eq := compare_ne_eq h
  induction entries with
  | nil => cases hc : change none <;> simp [alterEntries, findEntry?, hc, hother]
  | cons e rest ih =>
    obtain ⟨k, b⟩ := e
    rw [alterEntries]
    cases hk : compare key k with
    | lt => cases change none <;> simp [ findEntry?, hother]
    | eq =>
      have hkey : key = k := LawfulEqOrd.eq_of_compare hk
      subst hkey
      cases change (some b) <;> simp [ findEntry?, hother]
    | gt => simp [ findEntry?, ih]

theorem sorted_insert {m : SortedMap α β} (h : m.Sorted) (key : α) (value : β) :
    (m.insert key value).Sorted := sorted_alter h key _

theorem mem_keys_insert {m : SortedMap α β} (h : m.Sorted) {key other : α} {value : β} :
    other ∈ (m.insert key value).keys ↔ other = key ∨ other ∈ m.keys := by
  unfold insert
  rw [mem_keys_iff, mem_keys_iff]
  by_cases hkey : other = key
  · subst hkey
    rw [find?_alter_self h]
    simp
  · rw [find?_alter_of_ne m hkey]
    simp [hkey]

theorem find?_push_self {m : SortedMap α (List β)} (h : m.Sorted) (key : α) (value : β) :
    (m.push key value).find? key = some ((m.find? key).getD [] ++ [value]) :=
  find?_alter_self h key _

omit [TransOrd α] in
theorem find?_push_of_ne (m : SortedMap α (List β)) {key other : α} (h : other ≠ key) (value : β) :
    (m.push key value).find? other = m.find? other := find?_alter_of_ne m h _

theorem sorted_push {m : SortedMap α (List β)} (h : m.Sorted) (key : α) (value : β) :
    (m.push key value).Sorted := sorted_alter h key _

end Change

/-! ## Maps as sets of entries -/

section Entries

variable [TransOrd α] [LawfulEqOrd α] {m m' : SortedMap α β}

/-- The entries of a sorted map are what it is looked up by. -/
theorem mem_entries_iff (h : m.Sorted) {key : α} {value : β} :
    (key, value) ∈ m.entries ↔ m.find? key = some value := by
  obtain ⟨entries⟩ := m
  show (key, value) ∈ entries ↔ findEntry? key entries = some value
  induction entries with
  | nil => simp [ findEntry?]
  | cons e rest ih =>
    obtain ⟨k, b⟩ := e
    rw [List.mem_cons, ih (sorted_tail h), findEntry?]
    by_cases hkey : key = k
    · subst hkey
      have hself : compare key key ≠ .gt := by
        rw [Std.ReflOrd.compare_self]
        decide
      simp [findEntry?_eq_none (lt_of_sorted_cons h hself), eq_comm]
    · simp [hkey, compare_ne_eq hkey]

theorem mem_values_iff (h : m.Sorted) {value : β} :
    value ∈ m.values ↔ ∃ key, m.find? key = some value := by
  unfold values
  rw [List.mem_map]
  constructor
  · rintro ⟨⟨key, value⟩, hmem, rfl⟩
    exact ⟨key, (mem_entries_iff h).mp hmem⟩
  · rintro ⟨key, hfind⟩
    exact ⟨(key, value), (mem_entries_iff h).mpr hfind, rfl⟩

omit [TransOrd α] [LawfulEqOrd α] in
theorem Sorted.pairwise_entries (h : m.Sorted) :
    m.entries.Pairwise fun a b => compare a.1 b.1 = .lt := List.pairwise_map.mp h

/-- The values of a map that goes by a label of its values ascend by that label. -/
theorem Sorted.pairwise_values (h : m.Sorted) {label : β → α}
    (hlabel : ∀ key value, m.find? key = some value → label value = key) :
    m.values.Pairwise fun a b => compare (label a) (label b) = .lt := by
  refine List.pairwise_map.mpr (h.pairwise_entries.imp_of_mem fun {a b} ha hb hlt => ?_)
  rwa [hlabel a.1 a.2 ((mem_entries_iff h).mp ha), hlabel b.1 b.2 ((mem_entries_iff h).mp hb)]

/-- Sorted maps that give the same under every key are the same map. -/
theorem eq_of_find? (h : m.Sorted) (h' : m'.Sorted) (hfind : ∀ key, m.find? key = m'.find? key) :
    m = m' := by
  have hne : ∀ {a b : α × β}, compare a.1 b.1 = .lt → a ≠ b := by
    rintro a b hlt rfl
    simp [Std.ReflOrd.compare_self] at hlt
  have hperm : m.entries.Perm m'.entries := by
    rw [List.perm_ext_iff_of_nodup (h.pairwise_entries.imp hne) (h'.pairwise_entries.imp hne)]
    rintro ⟨key, value⟩
    rw [mem_entries_iff h, mem_entries_iff h', hfind key]
  have hentries : m.entries = m'.entries := by
    refine hperm.eq_of_pairwise ?_ h.pairwise_entries h'.pairwise_entries
    intro a b _ _ hab hba
    exact absurd hba (Std.OrientedCmp.not_lt_of_lt hab)
  exact congrArg SortedMap.mk hentries

end Entries

end Mosaic.SortedMap
