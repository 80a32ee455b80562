import Mosaic.Outcome

/-!
# Instants

A point in time is a number of seconds since the beginning of 1970 in UTC and a number of
nanoseconds in that second. During a leap second the seconds stay those of the second before it and
the nanoseconds run from 1000000000 on, so that instants compare as pairs. Durations are whole
nanoseconds.

The calendar is the Gregorian one, extended to the years from -262143 to 262142. A sum that leaves
it aborts the computation.
-/

namespace Mosaic

/-- A day of the calendar. -/
structure CivilDate where
  year : Int
  month : Nat
  day : Nat
  deriving DecidableEq, Repr

namespace CivilDate

def isLeapYear (year : Int) : Bool := year % 4 == 0 && (year % 100 != 0 || year % 400 == 0)

def daysInMonth (year : Int) : Nat → Nat
  | 2 => if isLeapYear year then 29 else 28
  | 4 | 6 | 9 | 11 => 30
  | _ => 31

def firstYear : Int := -262143

def lastYear : Int := 262142

/-- Whether there is such a day, in a year that the calendar covers. -/
def isValid (d : CivilDate) : Bool :=
  decide (firstYear ≤ d.year) && decide (d.year ≤ lastYear) && decide (1 ≤ d.month) &&
    decide (d.month ≤ 12) && decide (1 ≤ d.day) && decide (d.day ≤ daysInMonth d.year d.month)

/-- The number of days from the beginning of 1970. Years are counted from March, so that the leap
day is the last of its year, and gathered in eras of 400 years of 146097 days. -/
def toDays (d : CivilDate) : Int :=
  let y := if d.month ≤ 2 then d.year - 1 else d.year
  let era := y / 400
  let yearOfEra := y % 400
  let monthFromMarch : Int := if d.month > 2 then (d.month : Int) - 3 else (d.month : Int) + 9
  let dayOfYear := (153 * monthFromMarch + 2) / 5 + (d.day : Int) - 1
  let dayOfEra := yearOfEra * 365 + yearOfEra / 4 - yearOfEra / 100 + dayOfYear
  era * 146097 + dayOfEra - 719468

/-- The day that lies a number of days after the beginning of 1970. -/
def ofDays (days : Int) : CivilDate :=
  let z := days + 719468
  let era := z / 146097
  let dayOfEra := z % 146097
  let yearOfEra := (dayOfEra - dayOfEra / 1460 + dayOfEra / 36524 - dayOfEra / 146096) / 365
  let dayOfYear := dayOfEra - (365 * yearOfEra + yearOfEra / 4 - yearOfEra / 100)
  let monthFromMarch := (5 * dayOfYear + 2) / 153
  let day := dayOfYear - (153 * monthFromMarch + 2) / 5 + 1
  let month := if monthFromMarch < 10 then monthFromMarch + 3 else monthFromMarch - 9
  let year := yearOfEra + era * 400
  ⟨if month ≤ 2 then year + 1 else year, month.toNat, day.toNat⟩

end CivilDate

/-- A point in time. -/
structure Instant where
  seconds : Int
  nanos : Nat
  deriving DecidableEq, Repr

namespace Instant

/-- Nanoseconds in a second. -/
def second : Int := 1000000000

/-- Seconds in a day. -/
def daySeconds : Int := 86400

/-- Instants compare by their seconds, then by their nanoseconds. -/
def cmp (a b : Instant) : Ordering :=
  (compare a.seconds b.seconds).then (compare a.nanos b.nanos)

instance : Ord Instant := ⟨cmp⟩

instance : LT Instant := ltOfOrd

instance : LE Instant := leOfOrd

instance (a b : Instant) : Decidable (a < b) := inferInstanceAs (Decidable (_ = _))

instance (a b : Instant) : Decidable (a ≤ b) := inferInstanceAs (Decidable (_ = _))

/-- Whether the instant lies in a leap second. -/
def inLeapSecond (t : Instant) : Bool := decide (second ≤ t.nanos)

/-- The number of the day in which the instant lies. -/
def dayNumber (t : Instant) : Int := t.seconds / daySeconds

/-- The seconds passed since midnight. -/
def secondOfDay (t : Instant) : Int := t.seconds % daySeconds

/-- The first day of the calendar. -/
def firstDay : Int := CivilDate.toDays ⟨CivilDate.firstYear, 1, 1⟩

/-- The last day of the calendar. -/
def lastDay : Int := CivilDate.toDays ⟨CivilDate.lastYear, 12, 31⟩

/-- Whether the instant lies in the years that the calendar covers. -/
def inRange (t : Instant) : Bool := decide (firstDay ≤ t.dayNumber) && decide (t.dayNumber ≤ lastDay)

/-- The nanoseconds from `b` to `a`. A leap second counts when the clock time of the instant outside
it is the later one. -/
def since (a b : Instant) : Int :=
  let leap : Int :=
    if b.secondOfDay < a.secondOfDay then (if b.inLeapSecond then 1 else 0)
    else if a.secondOfDay < b.secondOfDay then (if a.inLeapSecond then -1 else 0)
    else 0
  (a.seconds - b.seconds + leap) * second + ((a.nanos : Int) - b.nanos)

/-- Seconds and nanoseconds brought together, with at most one second carried over. -/
def carry (seconds nanos : Int) : Instant :=
  if nanos < 0 then ⟨seconds - 1, (nanos + second).toNat⟩
  else if second ≤ nanos then ⟨seconds + 1, (nanos - second).toNat⟩
  else ⟨seconds, nanos.toNat⟩

/-- The instant a number of nanoseconds later, without regard to the range of the calendar. A sum
that stays inside a leap second only moves within it; one that leaves it counts from the nearest
ordinary second. -/
def shift (t : Instant) (nanos : Int) : Instant :=
  let whole := nanos.tdiv second
  let part := nanos.tmod second
  if t.inLeapSecond then
    if 0 < whole ∨ (0 < part ∧ 2 * second ≤ t.nanos + part) then
      carry (t.seconds + whole) (t.nanos - second + part)
    else if whole < 0 then carry (t.seconds + 1 + whole) (t.nanos - second + part)
    else ⟨t.seconds, (t.nanos + part).toNat⟩
  else carry (t.seconds + whole) (t.nanos + part)

/-- The instant a number of nanoseconds later. -/
def add (t : Instant) (nanos : Int) : Except Abort Instant :=
  let sum := t.shift nanos
  if sum.inRange then .ok sum else .error .timeOutOfRange

/-- A duration of whole seconds in nanoseconds. Durations reach no further than the milliseconds
that fit 64 bits. -/
def ofSeconds (seconds : Int) : Except Abort Int :=
  if seconds.natAbs ≤ 9223372036854775 then .ok (seconds * second) else .error .timeOutOfRange

/-- The beginning of the day in which the instant lies. -/
def startOfDay (t : Instant) : Instant := ⟨t.dayNumber * daySeconds, 0⟩

/-- The instant at a time of a day. -/
def ofClock (day : Int) (hour minute second nanos : Nat) : Instant :=
  ⟨day * daySeconds + hour * 3600 + minute * 60 + second, nanos⟩

end Instant

end Mosaic
