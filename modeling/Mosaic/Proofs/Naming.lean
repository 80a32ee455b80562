import Mosaic.Proofs.Validation

/-!
# The names of measurements

The check of a product goes over the names and aliases of all measurements and refuses the first that
has come before, in the same measurement or in an earlier one. So no two measurements of an accepted
product have a name in common (`Product.unambiguous_of_validate`). The search for a name then finds the
one measurement that has it wherever it stands (`Measurement.Unambiguous.find?_eq_some`), and measurements
can be listed in any order (`Product.measurement_unambiguous`).
-/

namespace Mosaic

variable {V K : Type}

namespace Measurement

theorem answersTo_iff {m : Measurement V} {name : String} :
    m.answersTo name = true ↔ name ∈ m.names := by
  rw [answersTo, names, Bool.or_eq_true, beq_iff_eq, List.contains_iff_mem, List.mem_cons, eq_comm]

/-! ## Names that refer to one measurement -/

/-- No two of the measurements have a name in common. -/
def Unambiguous (ms : List (Measurement V)) : Prop :=
  ms.Pairwise fun m m' => m.names.Disjoint m'.names

namespace Unambiguous

variable {ms ms' : List (Measurement V)} {name : String}

theorem of_perm (h : Unambiguous ms) (hperm : ms.Perm ms') : Unambiguous ms' :=
  hperm.pairwise h fun hdisjoint => List.Disjoint.symm hdisjoint

/-- One measurement at most has a name that all of them have. -/
theorem length_le_one (h : Unambiguous ms) (hname : ∀ m ∈ ms, name ∈ m.names) : ms.length ≤ 1 := by
  match ms with
  | [] => exact Nat.zero_le 1
  | [_] => exact le_rfl
  | first :: second :: rest =>
    have hsecond : second ∈ first :: second :: rest := List.mem_cons_of_mem first List.mem_cons_self
    have hdisjoint := (List.pairwise_cons.mp h).1 second List.mem_cons_self
    exact absurd (hname second hsecond) (hdisjoint (hname first List.mem_cons_self))

/-- A name refers to one measurement at most. -/
theorem length_filter_le_one (h : Unambiguous ms) (name : String) :
    (ms.filter (·.answersTo name)).length ≤ 1 := by
  have hfiltered : Unambiguous (ms.filter (·.answersTo name)) := h.sublist List.filter_sublist
  exact hfiltered.length_le_one fun m hm => answersTo_iff.mp (List.mem_filter.mp hm).2

theorem eq_of_mem_names (h : Unambiguous ms) {m m' : Measurement V} (hm : m ∈ ms) (hm' : m' ∈ ms)
    (hname : name ∈ m.names) (hname' : name ∈ m'.names) : m = m' := by
  have hsame : ms.Pairwise fun m m' => name ∈ m.names → name ∈ m'.names → m = m' :=
    h.imp fun hdisjoint hname hname' => absurd hname' (hdisjoint hname)
  have hsymm : Std.Symm fun m m' : Measurement V => name ∈ m.names → name ∈ m'.names → m = m' :=
    ⟨fun _ _ heq hname hname' => (heq hname' hname).symm⟩
  exact hsame.forall_of_forall (fun _ _ _ _ => rfl) hm hm' hname hname'

/-- The search for a name finds the measurement that has it. -/
theorem find?_eq_some (h : Unambiguous ms) {m : Measurement V} :
    ms.find? (·.answersTo name) = some m ↔ m ∈ ms ∧ name ∈ m.names := by
  have hfound : ∀ m', ms.find? (·.answersTo name) = some m' → m' ∈ ms ∧ name ∈ m'.names := by
    intro m' hm'
    have hanswers := List.find?_some hm'
    exact ⟨List.mem_of_find?_eq_some hm', answersTo_iff.mp hanswers⟩
  refine ⟨hfound m, fun ⟨hm, hname⟩ => ?_⟩
  cases hsearch : ms.find? (·.answersTo name) with
  | none => exact absurd (answersTo_iff.mpr hname) (List.find?_eq_none.mp hsearch m hm)
  | some m' =>
    obtain ⟨hm', hname'⟩ := hfound m' hsearch
    rw [h.eq_of_mem_names hm hm' hname hname']

/-- The search for a name does not depend on the order. -/
theorem find?_of_perm (h : Unambiguous ms) (hperm : ms.Perm ms') :
    ms'.find? (·.answersTo name) = ms.find? (·.answersTo name) := by
  refine Option.ext fun m => ?_
  rw [h.find?_eq_some, (h.of_perm hperm).find?_eq_some, hperm.mem_iff]

end Unambiguous

end Measurement

namespace Product

/-! ## The check -/

/-- Names that are accepted differ from each other and from those in use, and are in use from then
on. -/
theorem addNames_ok {product : String} {seen names seen' : List String}
    (h : addNames product seen names = .ok seen') :
    names.Nodup ∧ seen.Disjoint names ∧ seen' = names.reverse ++ seen := by
  induction names generalizing seen with
  | nil =>
    cases h
    exact ⟨.nil, List.disjoint_nil_right _, rfl⟩
  | cons name rest ih =>
    rw [addNames] at h
    split at h
    · cases h
    · next hnew =>
      obtain ⟨hrest, hdisjoint, rfl⟩ := ih h
      obtain ⟨hname, hdisjoint⟩ := List.disjoint_cons_left.mp hdisjoint
      rw [List.contains_iff_mem] at hnew
      refine ⟨List.nodup_cons.mpr ⟨hname, hrest⟩, ?_, ?_⟩
      · exact List.disjoint_cons_right.mpr ⟨hnew, hdisjoint⟩
      · rw [List.reverse_cons, List.append_assoc, List.singleton_append]

variable [Coordinate K] [Sample V K]

/-- No name is used twice by accepted measurements, and none that was in use before them. -/
theorem nodup_of_checkMeasurements {product : String} {seen : List String}
    {measurements : List (Measurement V)}
    (h : checkMeasurements product seen measurements = .ok ()) :
    (measurements.flatMap Measurement.names).Nodup ∧
      seen.Disjoint (measurements.flatMap Measurement.names) := by
  induction measurements generalizing seen with
  | nil => exact ⟨.nil, List.disjoint_nil_right _⟩
  | cons m rest ih =>
    obtain ⟨seen', hnames, h⟩ := bind_eq_ok.mp h
    obtain ⟨hnodup, hdisjoint, rfl⟩ := addNames_ok hnames
    split at h
    · cases h
    · obtain ⟨hrest, hafter⟩ := ih h
      -- the names of the rest come neither before the measurement nor in it
      obtain ⟨hown, hseen⟩ := List.disjoint_append_left.mp hafter
      rw [List.flatMap_cons]
      refine ⟨hnodup.append hrest ?_, List.disjoint_append_right.mpr ⟨hdisjoint, hseen⟩⟩
      exact fun name hname => hown (List.mem_reverse.mpr hname)

/-- No two measurements of an accepted product have a name in common. -/
theorem unambiguous_of_validate {p : Product K V} (h : p.validate = .ok ()) :
    Measurement.Unambiguous p.measurements :=
  (List.nodup_flatMap.mp (nodup_of_checkMeasurements (checks_of_validate h).1).1).2

/-! ## Requests by name -/

omit [Coordinate K] [Sample V K] in
theorem measurement_eq_ok {p : Product K V} {name : String} {m : Measurement V} :
    p.measurement name = .ok m ↔ p.measurement? name = some m := by
  unfold measurement
  cases p.measurement? name with
  | none => exact iff_of_false nofun nofun
  | some m' =>
    constructor
    · exact fun h => congrArg some (Except.ok.inj h)
    · exact fun h => congrArg Except.ok (Option.some.inj h)

/-- The names of an accepted product are not ambiguous. A name refers to one measurement at most, which
the search finds in whatever order the measurements are listed. A selection by names has a result
exactly when each of them refers to a measurement, and then it gives these measurements, each in the
place of its name. -/
theorem measurement_unambiguous {p : Product K V} (h : p.validate = .ok ()) :
    (∀ name, (p.measurements.filter (·.answersTo name)).length ≤ 1) ∧
    (∀ ms, p.measurements.Perm ms →
      ({ p with measurements := ms } : Product K V).measurement? = p.measurement?) ∧
    ∀ names : List String,
      ((∃ ms, p.select (some names) = .ok ms) ↔
        ∀ name ∈ names, ∃ m ∈ p.measurements, name ∈ m.names) ∧
      ∀ ms, p.select (some names) = .ok ms ↔
        List.Forall₂ (fun name m => m ∈ p.measurements ∧ name ∈ m.names) names ms := by
  have hnames := unambiguous_of_validate h
  have hfound : ∀ name m, p.measurement name = .ok m ↔ m ∈ p.measurements ∧ name ∈ m.names :=
    fun name m => measurement_eq_ok.trans hnames.find?_eq_some
  refine ⟨hnames.length_filter_le_one, fun ms hperm => ?_, fun names => ⟨?_, fun ms => ?_⟩⟩
  · funext name
    exact hnames.find?_of_perm hperm
  · rw [select, exists_mapM_ok]
    simp only [hfound]
  · rw [select, mapM_eq_ok]
    simp only [hfound]

section Example

/-- A product whose second measurement has two more names. -/
def aliasedProduct : Product Float Float32 where
  name := "scenes"
  measurements := [{ name := "red", dtype := .int16, nodata := -999 },
    { name := "nir", dtype := .int16, nodata := -999, aliases := ["b5", "near_infrared"] }]

/-- A measurement is found by an alias in either order, and selected in the place of the alias. -/
theorem measurement_unambiguous_alias :
    aliasedProduct.validate = .ok () ∧
      (aliasedProduct.measurements.filter (·.answersTo "b5")).length ≤ 1 ∧
      ({ aliasedProduct with measurements := aliasedProduct.measurements.reverse } :
        Product Float Float32).measurement? "b5" = aliasedProduct.measurement? "b5" ∧
      ∃ nir red, aliasedProduct.select (some ["b5", "red"]) = .ok [nir, red] ∧
        (nir ∈ aliasedProduct.measurements ∧ "b5" ∈ nir.names) ∧
        red ∈ aliasedProduct.measurements ∧ "red" ∈ red.names := by
  have hvalid : aliasedProduct.validate = .ok () := by decide +kernel
  obtain ⟨hone, horder, hselect⟩ := measurement_unambiguous hvalid
  obtain ⟨hexists, hgives⟩ := hselect ["b5", "red"]
  have hnamed : ∀ name ∈ ["b5", "red"], ∃ m ∈ aliasedProduct.measurements, name ∈ m.names := by
    simp [aliasedProduct, Measurement.names]
  obtain ⟨ms, hms⟩ := hexists.mpr hnamed
  have hplaces := (hgives ms).mp hms
  rw [List.forall₂_cons_left_iff] at hplaces
  obtain ⟨nir, rest, hnir, hrest, rfl⟩ := hplaces
  rw [List.forall₂_cons_left_iff] at hrest
  obtain ⟨red, rest, hred, hrest, rfl⟩ := hrest
  obtain rfl := List.forall₂_nil_left_iff.mp hrest
  exact ⟨hvalid, hone "b5", congrFun (horder _ (List.reverse_perm _).symm) "b5", nir, red, hms, hnir,
    hred⟩

end Example

end Product

end Mosaic
