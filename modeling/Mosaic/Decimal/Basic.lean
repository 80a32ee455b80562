/-!
# Decimal numbers

A decimal number is a sign, a whole number of digits and a power of ten, as it stands in a text.
Reading it as a binary float rounds once, to the nearest value with ties going to the even mantissa,
in the width asked for.

The grammar of `NumberText.parse?` is the one in which extents, resolutions and nodata values are
typed: an optional sign, digits with an optional point (`5.` and `.5` are numbers, `.` is not), an
optional exponent, or one of the words `inf`, `infinity` and `nan` in any mix of ASCII case. Blanks,
separators and other bases are refused.
-/

namespace Mosaic

/-- The number `digits * 10 ^ exponent`, negative when `negative` says so. -/
structure Decimal where
  negative : Bool
  digits : Nat
  exponent : Int
  deriving DecidableEq, Repr

namespace Decimal

/-- The double nearest to a decimal number. -/
def toFloat (d : Decimal) : Float :=
  let size := match d.exponent with
    | .ofNat e => Float.ofScientific d.digits false e
    | .negSucc e => Float.ofScientific d.digits true (e + 1)
  if d.negative then -size else size

/-- The single nearest to a decimal number. -/
def toFloat32 (d : Decimal) : Float32 :=
  let size := match d.exponent with
    | .ofNat e => Float32.ofScientific d.digits false e
    | .negSucc e => Float32.ofScientific d.digits true (e + 1)
  if d.negative then -size else size

/-- Whether a character is one of the ten ASCII digits. -/
def isDigit (c : Char) : Bool := '0' ≤ c && c ≤ '9'

/-- The number that a run of ASCII digits names. -/
def natOfDigits (cs : List Char) : Nat := cs.foldl (fun n c => 10 * n + (c.toNat - '0'.toNat)) 0

/-- Splits a leading sign off; the flag says whether it was a minus. -/
def splitSign : List Char → Bool × List Char
  | '+' :: cs => (false, cs)
  | '-' :: cs => (true, cs)
  | cs => (false, cs)

/-- An exponent mark, an optional sign and at least one digit, with nothing after them. -/
def exponent? : List Char → Option Int
  | [] => some 0
  | c :: cs =>
    if c == 'e' || c == 'E' then
      let (negative, ds) := splitSign cs
      if ds.isEmpty || !ds.all isDigit then none
      else some (if negative then -(natOfDigits ds : Int) else natOfDigits ds)
    else none

/-- An unsigned decimal number that fills the whole text. -/
def parseUnsigned? (negative : Bool) (cs : List Char) : Option Decimal :=
  let whole := cs.takeWhile isDigit
  let rest := cs.dropWhile isDigit
  let (fraction, rest) := match rest with
    | '.' :: rest => (rest.takeWhile isDigit, rest.dropWhile isDigit)
    | rest => ([], rest)
  if whole.isEmpty && fraction.isEmpty then none
  else do
    let shift ← exponent? rest
    return ⟨negative, natOfDigits (whole ++ fraction), shift - fraction.length⟩

end Decimal

/-- What a number in a text can be. -/
inductive NumberText
  | nan
  | infinite (negative : Bool)
  | decimal (d : Decimal)
  deriving DecidableEq, Repr

namespace NumberText

/-- A text in lower case, for ASCII letters only: the words of the grammar have no others. -/
private def lowerWord (cs : List Char) : String := String.ofList (cs.map Char.toLower)

/-- Reads a whole text as a number. -/
def parse? (s : String) : Option NumberText :=
  let (negative, cs) := Decimal.splitSign s.toList
  match lowerWord cs with
  | "nan" => some .nan
  | "inf" | "infinity" => some (.infinite negative)
  | _ => (Decimal.parseUnsigned? negative cs).map .decimal

/-- The double that a number in a text stands for. -/
def toFloat : NumberText → Float
  | nan => 0.0 / 0.0
  | infinite negative => if negative then -1.0 / 0.0 else 1.0 / 0.0
  | decimal d => d.toFloat

/-- The single that a number in a text stands for. -/
def toFloat32 : NumberText → Float32
  | nan => 0.0 / 0.0
  | infinite negative => if negative then -1.0 / 0.0 else 1.0 / 0.0
  | decimal d => d.toFloat32

end NumberText

/-- The double that a text names. -/
def parseFloat? (s : String) : Option Float := (NumberText.parse? s).map NumberText.toFloat

/-- The single that a text names. -/
def parseFloat32? (s : String) : Option Float32 := (NumberText.parse? s).map NumberText.toFloat32

/-- A whole number below `limit`: an optional plus sign and at least one ASCII digit. -/
def parseNat? (limit : Nat) (s : String) : Option Nat :=
  let ds := match s.toList with
    | '+' :: ds => ds
    | ds => ds
  if ds.isEmpty || !ds.all Decimal.isDigit then none
  else
    let n := Decimal.natOfDigits ds
    if n < limit then some n else none

end Mosaic
