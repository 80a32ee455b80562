/-!
# Whole numbers and narrower widths of binary floats

The operations on binary floats that the core library leaves to the machine, computed here from
sign, mantissa and exponent: rounding to a whole number (down, up, or to the nearest with a half
going away from zero), conversion to a machine integer that saturates at the ends of its range, and
the passage between 64 and 32 bits. Narrowing rounds to the nearest value, a tie to the even
neighbour; a value beyond the largest finite one becomes infinite. Widening is exact.
-/

namespace Mosaic.Binary

-- Powers of whole numbers are the built-in ones, whatever is imported with this module.
attribute [local instance (high)] instPowNat

open Float.Model (UnpackedFloat Format)

/-- Sign, mantissa and exponent of a double. -/
def unpack (x : Float) : UnpackedFloat := UnpackedFloat.unpack .binary64 x.toBits.toBitVec

/-- Sign, mantissa and exponent of a single. -/
def unpackSingle (x : Float32) : UnpackedFloat :=
  UnpackedFloat.unpack .binary32 x.toBits.toBitVec

/-- The double with the given sign, mantissa and exponent. -/
def pack (u : UnpackedFloat) : Float := Float.ofBits ⟨UnpackedFloat.pack .binary64 u⟩

/-- The single with the given sign, mantissa and exponent. -/
def packSingle (u : UnpackedFloat) : Float32 := Float32.ofBits ⟨UnpackedFloat.pack .binary32 u⟩

/-- How a number between two whole numbers is moved to one of them. -/
inductive Toward
  | down
  | up
  /-- The nearest one; a half goes away from zero. -/
  | nearest
  deriving DecidableEq

/-- The whole number that `mantissa * 2 ^ exponent` with the given sign is moved to. -/
def wholeOf (toward : Toward) (sign : UnpackedFloat.Sign) (mantissa : Nat) (exponent : Int) : Int :=
  if 0 ≤ exponent then sign.apply (mantissa * 2 ^ exponent.toNat : Nat)
  else
    let unit := 2 ^ (-exponent).toNat
    let whole := mantissa / unit
    let exact := mantissa % unit == 0
    match toward, sign with
    | .down, .positive => whole
    | .down, .negative => if exact then -(whole : Int) else -(whole + 1 : Nat)
    | .up, .positive => if exact then whole else (whole + 1 : Nat)
    | .up, .negative => -(whole : Int)
    | .nearest, s => s.apply ((2 * mantissa + unit) / (2 * unit) : Nat)

/-- A double moved to a whole number. A result of zero keeps the sign of the argument, and what is
not finite stays as it is. -/
def toWhole (toward : Toward) (x : Float) : Float :=
  match unpack x with
  | .finite sign mantissa exponent _ =>
    if 0 ≤ exponent then x
    else
      match wholeOf toward sign mantissa exponent with
      | 0 => match sign with
        | .positive => 0.0
        | .negative => -0.0
      | n => Float.ofInt n
  | _ => x

/-- The largest whole number not above `x`. -/
def floor (x : Float) : Float := toWhole .down x

/-- The smallest whole number not below `x`. -/
def ceil (x : Float) : Float := toWhole .up x

/-- The whole number nearest to `x`; a half goes away from zero. -/
def round (x : Float) : Float := toWhole .nearest x

/-- The whole part of `x` moved into `lo` to `hi`; what is not a number becomes zero. -/
def toIntClamped (lo hi : Int) (x : Float) : Int :=
  max lo (min hi (UnpackedFloat.toInt lo hi (unpack x)))

/-- The whole part of `x` as a signed 64-bit integer, saturating at the ends of the range. -/
def toInt64 (x : Float) : Int := toIntClamped (-(2 ^ (63 : Nat))) (2 ^ (63 : Nat) - 1) x

/-- The whole part of `x` as an unsigned 64-bit integer, saturating at the ends of the range. -/
def toNat64 (x : Float) : Nat := (toIntClamped 0 (2 ^ (64 : Nat) - 1) x).toNat

/-- The single nearest to a double, a tie going to the even mantissa. -/
def narrow (x : Float) : Float32 :=
  match unpack x with
  | .finite sign mantissa exponent _ => packSingle (UnpackedFloat.round .binary32 sign mantissa exponent)
  | u => packSingle u

/-- The double with the value of a single. -/
def widen (x : Float32) : Float :=
  match unpackSingle x with
  | .finite sign mantissa exponent _ => pack (UnpackedFloat.round .binary64 sign mantissa exponent)
  | u => pack u

/-- A double as an exact fraction; `none` for what is not finite. -/
def toRat? (x : Float) : Option Rat :=
  match unpack x with
  | .zero _ => some 0
  | .finite sign mantissa exponent _ =>
    let m : Int := sign.apply mantissa
    some (if 0 ≤ exponent then (m * 2 ^ exponent.toNat : Int) else mkRat m (2 ^ (-exponent).toNat))
  | _ => none

end Mosaic.Binary
