import Mosaic.Product.Basic
import Mosaic.Proofs.Casting
import Mosaic.Proofs.Outcome

/-!
# What a sound product is made of

A product is accepted when each of its parts is: every nodata value fits its type, the grid has no
flaw and the storage layout is valid (`Product.validate_eq_ok`). The numbers of a grid without flaws
are finite, and a nodata value that fits an integer type is a whole number in the range of the type.
-/

namespace Mosaic

open Binary
open Float.Model (Format UnpackedFloat)

theorem forM_option_eq_ok {ε α : Type} {f : α → Except ε Unit} {o : Option α} :
    o.forM f = .ok () ↔ ∀ a ∈ o, f a = .ok () := by
  cases o with
  | none => exact iff_of_true rfl nofun
  | some a =>
    constructor
    · rintro h _ ⟨⟩
      exact h
    · exact fun h => h a rfl

section General

variable {K V : Type} [Coordinate K] [Sample V K]

theorem Grid.validate_eq_ok {g : Grid K} : g.validate = .ok () ↔ g.flaw? = none := by
  unfold validate
  cases g.flaw? with
  | none => exact iff_of_true rfl rfl
  | some flaw => exact iff_of_false nofun nofun

/-- The numbers of a grid without flaws are finite. -/
theorem Grid.isFinite_of_flaw? {g : Grid K} (h : g.flaw? = none) :
    g.resolution.isFinite = true ∧ g.tileSize.isFinite = true ∧ g.origin.isFinite = true := by
  unfold flaw? at h
  split_ifs at h with hresolution htile horigin
  simp only [Bool.or_eq_true, not_or, Bool.not_eq_true, Bool.not_eq_false', Bool.and_eq_true] at *
  exact ⟨hresolution.2, htile.2, horigin⟩

namespace Product

/-- Every nodata value of accepted measurements fits its type. -/
theorem canRepresent_of_checkMeasurements {product : String} {seen : List String}
    {measurements : List (Measurement V)}
    (h : checkMeasurements product seen measurements = .ok ()) :
    ∀ m ∈ measurements, m.dtype.canRepresent m.nodata = true := by
  induction measurements generalizing seen with
  | nil => exact nofun
  | cons m rest ih =>
    obtain ⟨names, -, h⟩ := bind_eq_ok.mp h
    cases hfits : m.dtype.canRepresent m.nodata with
    | false =>
      rw [hfits] at h
      cases h
    | true =>
      rw [hfits] at h
      exact List.forall_mem_cons.mpr ⟨hfits, ih h⟩

/-- The checks of the measurements and of the grid that an accepted product has passed. -/
theorem checks_of_validate {p : Product K V} (h : p.validate = .ok ()) :
    checkMeasurements p.name [] p.measurements = .ok () ∧ p.grid.forM Grid.validate = .ok () := by
  unfold validate at h
  by_cases hname : (Text.trim p.name).isEmpty = true
  · rw [if_pos hname] at h
    cases h
  by_cases hempty : p.measurements.isEmpty = true
  · rw [if_neg hname, if_pos hempty] at h
    cases h
  rw [if_neg hname, if_neg hempty] at h
  obtain ⟨_, hmeasurements, h⟩ := bind_eq_ok.mp (show _ >>= _ = _ from h)
  obtain ⟨_, hgrid, -⟩ := bind_eq_ok.mp h
  exact ⟨hmeasurements, hgrid⟩

/-- A product that is accepted has nodata values that fit and a grid without flaws. -/
theorem of_validate {p : Product K V} (h : p.validate = .ok ()) :
    (∀ m ∈ p.measurements, m.dtype.canRepresent m.nodata = true) ∧ ∀ g ∈ p.grid, g.flaw? = none := by
  obtain ⟨hmeasurements, hgrid⟩ := checks_of_validate h
  exact ⟨canRepresent_of_checkMeasurements hmeasurements, fun g hg =>
    Grid.validate_eq_ok.mp (forM_option_eq_ok.mp hgrid g hg)⟩

end Product

end General

namespace DataType

/-- An integer type holds only whole numbers in its range. -/
theorem exists_whole_of_canRepresent {d : DataType} {lo hi : Int} (hrange : d.range? = some (lo, hi))
    {v : Float32} (h : d.canRepresent v = true) :
    ∃ n : Int, lo ≤ n ∧ n ≤ hi ∧ IsFloatOf .binary32 n (unpackSingle v) := by
  obtain ⟨-, -, hlo, hhi⟩ := range_bounds hrange
  simp only [canRepresent, hrange, Bool.and_eq_true, decide_eq_true_eq] at h
  obtain ⟨⟨⟨hfinite, hwhole⟩, hlow⟩, hhigh⟩ := h
  have hv : IsFloatOf .binary32 (valueOf (unpackSingle v)) (unpackSingle v) :=
    ⟨hfinite, (isStorable_single v).isCanonical, rfl⟩
  have hx := isFloatOf_widen hv
  obtain ⟨n, hn⟩ := exists_isFloatOf_floor hx
  have hvalue : (n : Rat) = valueOf (unpackSingle v) := (hn.beq_iff_eq hx).mp hwhole
  rw [← hvalue] at hv hx
  have hlow : (lo : Rat) ≤ n := ((isFloatOf_ofInt (hlo.trans_lt (by norm_num))).le_iff_le hx).mp hlow
  have hhigh : (n : Rat) ≤ hi := (hx.le_iff_le (isFloatOf_ofInt (hhi.trans_lt (by norm_num)))).mp hhigh
  exact ⟨n, by exact_mod_cast hlow, by exact_mod_cast hhigh, hv⟩

end DataType

end Mosaic
