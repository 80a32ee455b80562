import Mosaic.Error
import Mosaic.Text.Blank
import Mosaic.Text.Case

/-!
# Resampling and fusion

How a raster is warped onto the pixels of a tile, and how overlapping datasets become one pixel.
Requests name both in either case and with blanks around; documents name them exactly.
-/

namespace Mosaic

/-- How a raster is warped onto the pixels of a tile. -/
inductive Resampling
  /-- The source pixel in which the centre of the target pixel lies. -/
  | nearest
  /-- Between the four nearest pixel centres. -/
  | bilinear
  /-- Catmull-Rom interpolation over sixteen neighbours. -/
  | cubic
  /-- The most frequent valid value under the target pixel. -/
  | mode
  /-- The mean of the valid values under the target pixel. -/
  | average
  deriving DecidableEq, Repr, Inhabited

namespace Resampling

def all : List Resampling := [nearest, bilinear, cubic, mode, average]

def name : Resampling → String
  | nearest => "nearest"
  | bilinear => "bilinear"
  | cubic => "cubic"
  | mode => "mode"
  | average => "average"

/-- The method with exactly this name or second name. -/
def ofName? (s : String) : Option Resampling :=
  match s with
  | "bicubic" => some cubic
  | "mean" => some average
  | s => all.find? (·.name == s)

theorem ofName?_name (m : Resampling) : ofName? m.name = some m := by cases m <;> decide

/-- Reads a method as a request names it. -/
def parse (s : String) : Except RequestError Resampling :=
  match ofName? (Text.lower (Text.trim s)) with
  | some m => .ok m
  | none => .error (.configuration s!"unknown resampling method '{s}'")

/-- How many source pixels are needed round a window. -/
def kernelRadius : Resampling → Nat
  | cubic => 2
  | _ => 1

/-- Whether the method looks at all source pixels under a target pixel. -/
def isArea : Resampling → Bool
  | mode | average => true
  | _ => false

end Resampling

/-- How overlapping datasets become one pixel. -/
inductive Fusion
  /-- A later valid value replaces an earlier one. -/
  | overwrite
  /-- The mean of the valid values. -/
  | mean
  /-- The smallest valid value. -/
  | min
  /-- The largest valid value. -/
  | max
  deriving DecidableEq, Repr, Inhabited

namespace Fusion

def all : List Fusion := [overwrite, mean, min, max]

def name : Fusion → String
  | overwrite => "overwrite"
  | mean => "mean"
  | min => "min"
  | max => "max"

/-- The policy with exactly this name. -/
def ofName? (s : String) : Option Fusion := all.find? (·.name == s)

theorem ofName?_name (f : Fusion) : ofName? f.name = some f := by cases f <;> decide

/-- Reads a policy as a request names it. -/
def parse (s : String) : Except RequestError Fusion :=
  match ofName? (Text.lower (Text.trim s)) with
  | some f => .ok f
  | none => .error (.configuration s!"unknown fusion policy '{s}'")

end Fusion

end Mosaic
