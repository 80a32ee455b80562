import Mosaic.Decimal.Basic
import Mosaic.Error
import Mosaic.Text.Blank
import Mosaic.Text.Case

/-!
# Coordinate reference systems

The reference systems that a load can work in, each with its EPSG code. Both geographic systems are
taken to share one datum: their offset of less than a metre is below the pixel sizes in use.
`parse` reads a code in either case with blanks around it, and accepts the usual second names.
-/

namespace Mosaic

-- Powers of whole numbers are the built-in ones, whatever is imported with this module.
attribute [local instance (high)] instPowNat

inductive Crs
  /-- Longitude and latitude in degrees, EPSG:4326. -/
  | wgs84
  /-- Longitude and latitude in degrees, EPSG:4283. -/
  | gda94
  /-- The square map of the world, EPSG:3857. -/
  | webMercator
  /-- The equal-area conic map of Australia, EPSG:3577. -/
  | australianAlbers
  /-- A transverse Mercator zone, EPSG:326zz in the north and EPSG:327zz in the south. Zones are
  numbered from one to sixty. -/
  | utm (zone : Fin 60) (south : Bool)
  deriving DecidableEq, Repr

namespace Crs

/-- The reference system with a numeric EPSG code. -/
def ofEpsg? (code : Nat) : Option Crs :=
  if code = 4326 then some wgs84
  else if code = 4283 then some gda94
  else if code = 3857 then some webMercator
  else if code = 3577 then some australianAlbers
  else if h : 32601 ≤ code ∧ code ≤ 32660 then some (utm ⟨code - 32601, by omega⟩ false)
  else if h : 32701 ≤ code ∧ code ≤ 32760 then some (utm ⟨code - 32701, by omega⟩ true)
  else none

/-- The numeric EPSG code. -/
def epsg : Crs → Nat
  | wgs84 => 4326
  | gda94 => 4283
  | webMercator => 3857
  | australianAlbers => 3577
  | utm zone false => 32601 + zone
  | utm zone true => 32701 + zone

@[simp] theorem ofEpsg?_epsg (crs : Crs) : ofEpsg? crs.epsg = some crs := by
  cases crs with
  | utm zone south =>
    obtain ⟨z, hz⟩ := zone
    cases south
    · have h : 32601 ≤ 32601 + z ∧ 32601 + z ≤ 32660 := by omega
      simp only [ofEpsg?, epsg, Nat.add_sub_cancel_left]
      repeat rw [if_neg (by omega)]
      rw [dif_pos h]
    · have h : 32701 ≤ 32701 + z ∧ 32701 + z ≤ 32760 := by omega
      have h' : ¬(32601 ≤ 32701 + z ∧ 32701 + z ≤ 32660) := by omega
      simp only [ofEpsg?, epsg, Nat.add_sub_cancel_left]
      repeat rw [if_neg (by omega)]
      rw [dif_neg h', dif_pos h]
  | _ => rfl

/-- Whether the axes are longitude and latitude. -/
def isGeographic : Crs → Bool
  | wgs84 | gda94 => true
  | _ => false

/-- The unit of the axes. -/
def units (crs : Crs) : String := if crs.isGeographic then "degrees" else "metre"

/-- The name by which a reference system is written. -/
def name (crs : Crs) : String := s!"EPSG:{crs.epsg}"

instance : ToString Crs := ⟨name⟩

/-- The reference system that a text names. -/
def parse? (s : String) : Option Crs :=
  match Text.upper (Text.trim s) with
  | "EPSG:4326" | "CRS:84" | "WGS84" => some wgs84
  | "EPSG:4283" => some gda94
  | "EPSG:3857" | "EPSG:900913" => some webMercator
  | "EPSG:3577" => some australianAlbers
  | text => do
    let code ← Text.stripStart? "EPSG:" text
    let code ← parseNat? (2 ^ (32 : Nat)) code
    ofEpsg? code

/-- The reference system that a text names, or the error that quotes the text. -/
def parse (s : String) : Except RequestError Crs :=
  match parse? s with
  | some crs => .ok crs
  | none => .error (.invalidCrs s)

end Crs

end Mosaic
