import Mosaic.Decimal.Shortest

/-!
# How decimal numbers are laid out

Three layouts of the same digits. Messages write a number positionally, with no exponent and no
point that is not needed (`25`, `0.1`, `-0`). Lists of coefficients write at least one decimal and
turn to an exponent from `1e16` up and below `1e-4` (`25.0`, `1e-5`). Documents write as lists of
coefficients do, but turn to an exponent only below `1e-5`.
-/

namespace Mosaic.Decimal

/-- The digits of a number as text, none for zero. -/
def digitText (d : Decimal) : List Char := if d.digits = 0 then [] else (toString d.digits).toList

/-- The power of ten of the first digit. -/
def leadingPower (d : Decimal) : Int := d.exponent + d.digitText.length - 1

/-- The digits before and after the point. -/
def wholeAndFraction (d : Decimal) : List Char × List Char :=
  let ds := d.digitText
  let whole := d.exponent + ds.length
  if ds.isEmpty then (['0'], [])
  else if whole ≤ 0 then (['0'], List.replicate (-whole).toNat '0' ++ ds)
  else if d.exponent ≥ 0 then (ds ++ List.replicate d.exponent.toNat '0', [])
  else (ds.take whole.toNat, ds.drop whole.toNat)

/-- The sign in front of a number. -/
def signText (d : Decimal) : String := if d.negative then "-" else ""

/-- Positional, with a point only before decimals. -/
def plain (d : Decimal) : String :=
  match d.wholeAndFraction with
  | (whole, []) => d.signText ++ String.ofList whole
  | (whole, fraction) => d.signText ++ String.ofList whole ++ "." ++ String.ofList fraction

/-- Positional, with at least one decimal. -/
def pointed (d : Decimal) : String :=
  match d.wholeAndFraction with
  | (whole, []) => d.signText ++ String.ofList whole ++ ".0"
  | (whole, fraction) => d.signText ++ String.ofList whole ++ "." ++ String.ofList fraction

/-- One digit, a point before further digits, and the power of ten. -/
def scientific (d : Decimal) : String :=
  let power := toString d.leadingPower
  match d.digitText with
  | [] => d.signText ++ "0e0"
  | [c] => d.signText ++ String.ofList [c] ++ "e" ++ power
  | c :: cs => d.signText ++ String.ofList [c] ++ "." ++ String.ofList cs ++ "e" ++ power

/-- At least one decimal, or an exponent when the first digit stands at `10 ^ 16` or higher or
lower than `10 ^ least`. -/
def general (least : Int) (d : Decimal) : String :=
  if d.digits ≠ 0 && (d.leadingPower ≥ 16 || d.leadingPower < least) then d.scientific else d.pointed

end Mosaic.Decimal

namespace Mosaic

/-- The word for a double that is not finite. -/
private def wordOfFloat (x : Float) : String :=
  if x.isNaN then "NaN" else if x < 0.0 then "-inf" else "inf"

/-- A double as messages write it. -/
def plainText (x : Float) : String :=
  match Decimal.ofFloat? x with
  | some d => d.plain
  | none => wordOfFloat x

/-- A single as messages write it. -/
def plainText32 (x : Float32) : String :=
  match Decimal.ofFloat32? x with
  | some d => d.plain
  | none => wordOfFloat (Binary.widen x)

/-- A double as lists of coefficients write it. -/
def coefficientText (x : Float) : String :=
  match Decimal.ofFloat? x with
  | some d => d.general (-4)
  | none => wordOfFloat x

end Mosaic
