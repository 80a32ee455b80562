import Mosaic.Load.Cells

/-!
# Orders of instants, identifiers, tiles and cells

Identifiers compare as numbers. Instants, tiles and cells compare by one part first and by a second
part where the first ones are equal. Such an order is transitive when the orders of the parts are, and
it calls two values equal only when they are the same value. These are the two laws that look-ups in
sorted maps rest on.

A list of which no two members compare as equal has one sorted form, whatever its order was
(`mergeSort_eq_of_perm`).
-/

namespace Mosaic

open Std (TransOrd TransCmp LawfulEqOrd)

/-- Parts that compare as equal one after the other are equal. -/
theorem eq_of_compare_then {α β : Type} [Ord α] [Ord β] [LawfulEqOrd α] [LawfulEqOrd β]
    {a a' : α} {b b' : β} (h : (compare a a').then (compare b b') = .eq) : a = a' ∧ b = b' := by
  rw [Ordering.then_eq_eq] at h
  exact ⟨LawfulEqOrd.eq_of_compare h.1, LawfulEqOrd.eq_of_compare h.2⟩

instance : TransOrd Instant :=
  inferInstanceAs (TransCmp (compareLex (compareOn Instant.seconds) (compareOn Instant.nanos)))

instance : LawfulEqOrd Instant where
  eq_of_compare {a b} h := by
    obtain ⟨seconds, nanos⟩ := a
    obtain ⟨seconds', nanos'⟩ := b
    have hparts : (compare seconds seconds').then (compare nanos nanos') = .eq := h
    obtain ⟨rfl, rfl⟩ := eq_of_compare_then hparts
    rfl

instance : TransOrd DatasetId :=
  inferInstanceAs (TransCmp (compareOn fun id : DatasetId => id.bits.toNat))

instance : LawfulEqOrd DatasetId where
  eq_of_compare {a b} h := by
    obtain ⟨bits⟩ := a
    obtain ⟨bits'⟩ := b
    have hnat : bits.toNat = bits'.toNat := LawfulEqOrd.eq_of_compare (α := Nat) h
    rw [BitVec.eq_of_toNat_eq hnat]

instance : TransOrd TileIndex :=
  inferInstanceAs (TransCmp (compareLex (compareOn TileIndex.x) (compareOn TileIndex.y)))

instance : LawfulEqOrd TileIndex where
  eq_of_compare {a b} h := by
    obtain ⟨x, y⟩ := a
    obtain ⟨x', y'⟩ := b
    have hparts : (compare x x').then (compare y y') = .eq := h
    obtain ⟨rfl, rfl⟩ := eq_of_compare_then hparts
    rfl

instance : TransOrd TileKey :=
  inferInstanceAs (TransCmp (compareLex (compareOn TileKey.time) (compareOn TileKey.tile)))

instance : LawfulEqOrd TileKey where
  eq_of_compare {a b} h := by
    obtain ⟨time, tile⟩ := a
    obtain ⟨time', tile'⟩ := b
    have hparts : (compare time time').then (compare tile tile') = .eq := h
    obtain ⟨rfl, rfl⟩ := eq_of_compare_then hparts
    rfl

/-! ## Sorting -/

section Sorting

variable {α : Type} {cmp : α → α → Ordering} [TransCmp cmp] {l l' : List α}

theorem pairwise_ne_iff (hperm : l.Perm l') :
    (l.Pairwise fun a b => cmp a b ≠ .eq) ↔ l'.Pairwise fun a b => cmp a b ≠ .eq := by
  refine List.Perm.pairwise_iff ?_ hperm
  intro a b hab hba
  exact hab (Std.OrientedCmp.eq_comm.mp hba)

/-- A list of which no two members compare as equal ascends strictly once it is sorted. -/
theorem pairwise_lt_mergeSort (h : l.Pairwise fun a b => cmp a b ≠ .eq) :
    (l.mergeSort fun a b => (cmp a b).isLE).Pairwise fun a b => cmp a b = .lt := by
  have htrans : ∀ a b c : α, (cmp a b).isLE = true → (cmp b c).isLE = true →
      (cmp a c).isLE = true := fun _ _ _ => TransCmp.isLE_trans
  have htotal : ∀ a b : α, ((cmp a b).isLE || (cmp b a).isLE) = true := by
    intro a b
    have hswap : cmp b a = (cmp a b).swap := Std.OrientedCmp.eq_swap
    rw [hswap]
    cases cmp a b <;> rfl
  have hle := List.pairwise_mergeSort htrans htotal l
  have hne := (pairwise_ne_iff (List.mergeSort_perm l fun a b => (cmp a b).isLE)).mpr h
  refine (hle.and hne).imp fun {a b} hab => ?_
  obtain ⟨hab, hne⟩ := hab
  cases hcmp : cmp a b with
  | lt => rfl
  | eq => exact absurd hcmp hne
  | gt => simp [hcmp] at hab

/-- Lists of the same members that both ascend strictly are the same list. -/
theorem eq_of_pairwise_lt (hperm : l.Perm l') (h : l.Pairwise fun a b => cmp a b = .lt)
    (h' : l'.Pairwise fun a b => cmp a b = .lt) : l = l' := by
  refine hperm.eq_of_pairwise ?_ h h'
  intro a b _ _ hab hba
  exact absurd hba (Std.OrientedCmp.not_lt_of_lt hab)

/-- Lists of which both ascend strictly are the same list if they have the same members. -/
theorem eq_of_mem_iff_of_pairwise_lt (h : l.Pairwise fun a b => cmp a b = .lt)
    (h' : l'.Pairwise fun a b => cmp a b = .lt) (hmem : ∀ a, a ∈ l ↔ a ∈ l') : l = l' := by
  have hne : ∀ {a b : α}, cmp a b = .lt → a ≠ b := by
    rintro a b hlt rfl
    cases Std.ReflCmp.compare_self.symm.trans hlt
  exact eq_of_pairwise_lt
    ((List.perm_ext_iff_of_nodup (h.imp hne) (h'.imp hne)).mpr fun {a} => hmem a) h h'

/-- The sorted form of a list does not depend on its order. -/
theorem mergeSort_eq_of_perm (hperm : l.Perm l') (h : l.Pairwise fun a b => cmp a b ≠ .eq) :
    (l.mergeSort fun a b => (cmp a b).isLE) = l'.mergeSort fun a b => (cmp a b).isLE := by
  have h' := (pairwise_ne_iff hperm).mp h
  have hsorted : (l.mergeSort fun a b => (cmp a b).isLE).Perm
      (l'.mergeSort fun a b => (cmp a b).isLE) :=
    (List.mergeSort_perm l _).trans (hperm.trans (List.mergeSort_perm l' _).symm)
  exact eq_of_pairwise_lt hsorted (pairwise_lt_mergeSort h) (pairwise_lt_mergeSort h')

end Sorting

end Mosaic
