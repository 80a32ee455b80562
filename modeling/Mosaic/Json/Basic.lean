import Mosaic.Binary.Rounding

/-!
# JSON values

The values that documents are made of. An object keeps its members in the order in which their keys
first came; a later value for the same key takes the earlier one's place. A whole number that fits
64 bits stays a whole number. Any other number carries the width it has, so that it can be written
with the fewest digits of that width.
-/

namespace Mosaic

inductive Json
  | null
  | bool (value : Bool)
  | int (value : Int)
  | double (value : Float)
  | single (value : Float32)
  | string (value : String)
  | array (items : List Json)
  | object (members : List (String × Json))

namespace Json

instance : Inhabited Json := ⟨null⟩

/-- Sets the value of a key: in place when the key is there, else at the end. -/
def setMember (key : String) (value : Json) : List (String × Json) → List (String × Json)
  | [] => [(key, value)]
  | (k, v) :: rest => if k = key then (k, value) :: rest else (k, v) :: setMember key value rest

/-- The value of a key among members whose keys differ. -/
def member? (key : String) (members : List (String × Json)) : Option Json :=
  (members.find? fun m => m.1 == key).map Prod.snd

/-- The value of a key of an object; `none` for a missing key and for anything but an object. -/
def get? (key : String) : Json → Option Json
  | object members => member? key members
  | _ => none

/-- The text of a string. -/
def string? : Json → Option String
  | string s => some s
  | _ => none

/-- The value of any number, as a double. -/
def float? : Json → Option Float
  | int n => some (Float.ofInt n)
  | double x => some x
  | single x => some (Binary.widen x)
  | _ => none

/-- An array of texts. -/
def ofStrings (texts : List String) : Json := array (texts.map string)

/-- A double, or null when it is not finite: JSON has no other numbers. -/
def ofFloat (x : Float) : Json := if x.isFinite then double x else null

/-- A single, or null when it is not finite. -/
def ofFloat32 (x : Float32) : Json := if x.isFinite then single x else null

theorem member?_setMember_self (key : String) (value : Json) (members : List (String × Json)) :
    member? key (setMember key value members) = some value := by
  induction members with
  | nil => simp [setMember, member?]
  | cons m rest ih =>
    obtain ⟨k, v⟩ := m
    by_cases h : k = key
    · simp [setMember, member?, h]
    · simp only [member?, Option.map_eq_some_iff] at ih ⊢
      simpa [setMember, h] using ih

end Json

end Mosaic
