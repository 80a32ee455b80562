import Mosaic.Time.Instant

/-!
# Writing instants

A date is written with at least four digits for the year, and with a sign when the year is not
between 0 and 9999. The fraction of a second has three, six or nine digits, as few as hold it, and
is left out when it is zero. A leap second is written as second 60.
-/

namespace Mosaic

/-- The digits of a number, filled up with zeros from the left. -/
def paddedNat (width n : Nat) : String :=
  let ds := toString n
  String.ofList (List.replicate (width - ds.length) '0') ++ ds

namespace CivilDate

def yearText (year : Int) : String :=
  if 0 ≤ year ∧ year ≤ 9999 then paddedNat 4 year.toNat
  else (if year < 0 then "-" else "+") ++ paddedNat 4 year.natAbs

def text (d : CivilDate) : String :=
  s!"{yearText d.year}-{paddedNat 2 d.month}-{paddedNat 2 d.day}"

end CivilDate

namespace Instant

/-- The fraction of a second with its point. -/
def fractionText (nanos : Nat) : String :=
  if nanos = 0 then ""
  else if nanos % 1000000 = 0 then "." ++ paddedNat 3 (nanos / 1000000)
  else if nanos % 1000 = 0 then "." ++ paddedNat 6 (nanos / 1000)
  else "." ++ paddedNat 9 nanos

/-- The time of day. -/
def clockText (t : Instant) : String :=
  let s := t.secondOfDay.toNat
  let (sec, nanos) := if t.inLeapSecond then (s % 60 + 1, t.nanos - 1000000000) else (s % 60, t.nanos)
  s!"{paddedNat 2 (s / 3600)}:{paddedNat 2 (s / 60 % 60)}:{paddedNat 2 sec}" ++ fractionText nanos

def dateText (t : Instant) : String := (CivilDate.ofDays t.dayNumber).text

/-- As messages write an instant. -/
def text (t : Instant) : String := t.dateText ++ " " ++ t.clockText ++ " UTC"

/-- As keys write an instant, with the offset of UTC. -/
def rfc3339 (t : Instant) : String := t.dateText ++ "T" ++ t.clockText ++ "+00:00"

/-- As documents write an instant, with the letter of UTC. -/
def zulu (t : Instant) : String := t.dateText ++ "T" ++ t.clockText ++ "Z"

end Instant

end Mosaic
