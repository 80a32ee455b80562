import Mosaic.Binary.Rounding
import Mosaic.Decimal.Basic

/-!
# The fewest digits that read back

Every finite binary float stands for an interval of reals that round to it. Among the decimal
numbers in that interval the shortest one is chosen: the search walks the powers of ten downward,
and the first grid with a point in the interval gives the digits. Of two neighbours on that grid the
one nearer to the value wins, and an exact tie goes to the larger one. All comparisons are made in
whole numbers.
-/

namespace Mosaic.Decimal

-- Powers of whole numbers are the built-in ones, whatever is imported with this module.
attribute [local instance (high)] instPowNat

open Float.Model (UnpackedFloat)

/-- Where a value and the ends of its interval lie, in whole units: the decimal grid of spacing
`grid` is compared with `low`, `value` and `high`. -/
structure Interval where
  low : Nat
  value : Nat
  high : Nat
  grid : Nat
  /-- Whether the ends themselves round to the value. -/
  closed : Bool

namespace Interval

/-- The interval of `mantissa * 2 ^ exponent` measured against the grid of spacing `10 ^ power`.
`narrowBelow` says that the float below is only half as far away as the float above. -/
def ofBinary (mantissa : Nat) (exponent : Int) (narrowBelow : Bool) (power : Int) : Interval :=
  let scale := 2 ^ (exponent - 2).toNat * 10 ^ (-power).toNat
  { low := (4 * mantissa - if narrowBelow then 1 else 2) * scale
    value := 4 * mantissa * scale
    high := (4 * mantissa + 2) * scale
    grid := 2 ^ (2 - exponent).toNat * 10 ^ power.toNat
    closed := mantissa % 2 == 0 }

/-- Whether the `n`-th point of the grid rounds to the value. -/
def holds (i : Interval) (n : Nat) : Bool :=
  if i.closed then i.low ≤ n * i.grid && n * i.grid ≤ i.high
  else i.low < n * i.grid && n * i.grid < i.high

/-- The grid point nearest to the value among its two neighbours that round to the value. -/
def hit? (i : Interval) : Option Nat :=
  let below := i.value / i.grid
  match i.holds below, i.holds (below + 1) with
  | true, true => some (if 2 * i.value < (2 * below + 1) * i.grid then below else below + 1)
  | true, false => some below
  | false, true => some (below + 1)
  | false, false => none

end Interval

/-- The first hit on the grids of spacing `10 ^ power`, `10 ^ (power - 1)` and so on. -/
def searchDown (mantissa : Nat) (exponent : Int) (narrowBelow negative : Bool) :
    Nat → Int → Decimal
  | 0, power => ⟨negative, 0, power⟩
  | steps + 1, power =>
    match (Interval.ofBinary mantissa exponent narrowBelow power).hit? with
    | some n => ⟨negative, n, power⟩
    | none => searchDown mantissa exponent narrowBelow negative steps (power - 1)

/-- The shortest decimal number that reads back as `mantissa * 2 ^ exponent` in a format of
`precision` bits whose smallest exponent is `least`. -/
def shortestOf (precision : Nat) (least : Int) (negative : Bool) (mantissa : Nat)
    (exponent : Int) : Decimal :=
  let narrowBelow := mantissa == 2 ^ (precision - 1) && least < exponent
  let power := ((mantissa.log2 : Int) + exponent + 1) * 30103 / 100000 + 1
  searchDown mantissa exponent narrowBelow negative 40 power

/-- The shortest decimal number that reads back as a double; `none` for what is not finite. -/
def ofFloat? (x : Float) : Option Decimal :=
  match Binary.unpack x with
  | .zero sign => some ⟨sign == .negative, 0, 0⟩
  | .finite sign mantissa exponent _ =>
    some (shortestOf 53 (-1074) (sign == .negative) mantissa exponent)
  | _ => none

/-- The shortest decimal number that reads back as a single; `none` for what is not finite. -/
def ofFloat32? (x : Float32) : Option Decimal :=
  match Binary.unpackSingle x with
  | .zero sign => some ⟨sign == .negative, 0, 0⟩
  | .finite sign mantissa exponent _ =>
    some (shortestOf 24 (-149) (sign == .negative) mantissa exponent)
  | _ => none

end Mosaic.Decimal
