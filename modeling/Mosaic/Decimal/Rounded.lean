import Mosaic.Decimal.Shortest

/-!
# Rounding to a number of decimals

`roundPlaces` keeps a number of decimals and `roundDigits` a number of significant digits. Both
round the exact binary value, and a tie goes to the even digit. `roundWithin` keeps decimals unless
the number is too large to have as many that mean anything.
-/

namespace Mosaic.Decimal

-- Powers of whole numbers are the built-in ones, whatever is imported with this module.
attribute [local instance (high)] instPowNat

/-- The whole number nearest to `num / den`, a tie going to the even one. -/
def divNearestEven (num den : Nat) : Nat :=
  let q := num / den
  let r := num % den
  if 2 * r < den then q
  else if den < 2 * r then q + 1
  else if q % 2 == 0 then q else q + 1

/-- `mantissa * 2 ^ exponent / 10 ^ power` rounded to a whole number. -/
def scaledNearest (mantissa : Nat) (exponent power : Int) : Nat :=
  divNearestEven (mantissa * 2 ^ exponent.toNat * 10 ^ (-power).toNat)
    (2 ^ (-exponent).toNat * 10 ^ power.toNat)

/-- The power of ten of the first digit of `mantissa * 2 ^ exponent`. -/
def firstPower (mantissa : Nat) (exponent : Int) : Int :=
  if 0 ≤ exponent then ((toString (mantissa * 2 ^ exponent.toNat)).length : Int) - 1
  else
    -- `2 ^ -k = 5 ^ k / 10 ^ k`
    let k := (-exponent).toNat
    ((toString (mantissa * 5 ^ k)).length : Int) - 1 - k

/-- A double rounded to `places` decimals; what is not finite stays as it is. -/
def roundPlaces (x : Float) (places : Nat) : Float :=
  match Binary.unpack x with
  | .finite sign mantissa exponent _ =>
    Decimal.toFloat ⟨sign == .negative, scaledNearest mantissa exponent (-places), -places⟩
  | _ => x

/-- A double rounded to `count` significant digits; what is not finite stays as it is. -/
def roundDigits (x : Float) (count : Nat) : Float :=
  match Binary.unpack x with
  | .finite sign mantissa exponent _ =>
    let power := firstPower mantissa exponent - count + 1
    Decimal.toFloat ⟨sign == .negative, scaledNearest mantissa exponent power, power⟩
  | _ => x

/-- A double rounded to `places` decimals while these and the digits before the point are fewer than
`digits`, and to `digits` significant digits otherwise. -/
def roundWithin (places digits : Nat) (x : Float) : Float :=
  if x.abs < Decimal.toFloat ⟨false, 1, (digits : Int) - 1 - places⟩ then roundPlaces x places
  else roundDigits x digits

end Mosaic.Decimal
