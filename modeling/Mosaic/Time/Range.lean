import Mosaic.Time.Print
import Mosaic.Time.Read

/-!
# Ranges and spans of time

A request asks for a range, both ends included. A dataset was taken during a span, which may be an
instant. The ends of a span come in either order.

A range is written `start/end`, or as one instant that is both ends. An end in which no time of day
is recognised by its form (neither a `T` nor a blank) stands for the last nanosecond of its day.
-/

namespace Mosaic

/-- An inclusive range of time. -/
structure TimeRange where
  start : Instant
  stop : Instant
  deriving DecidableEq, Repr

/-- The time during which a dataset was taken. -/
structure TimeSpan where
  first : Instant
  last : Instant
  deriving DecidableEq, Repr

namespace TimeSpan

/-- The span between two instants, whichever comes first. -/
def between (a b : Instant) : TimeSpan := if b < a then ⟨b, a⟩ else ⟨a, b⟩

def instant (t : Instant) : TimeSpan := ⟨t, t⟩

/-- The instant halfway through the span, rounded down to a nanosecond. -/
def middle (s : TimeSpan) : Instant := s.first.shift (s.last.since s.first / 2)

/-- The instant halfway through the span, if the calendar has it. -/
def center (s : TimeSpan) : Except Abort Instant :=
  if s.middle.inRange then .ok s.middle else .error .timeOutOfRange

end TimeSpan

namespace TimeRange

/-- The range from one instant to another. -/
def between (start stop : Instant) : Except RequestError TimeRange :=
  if stop < start then
    .error (.invalidTime s!"range end {stop.text} is before start {start.text}")
  else .ok ⟨start, stop⟩

/-- The last nanosecond of the day that begins at an instant. -/
def endOfDay (t : Instant) : Except Abort Instant := do
  let next ← t.add (Instant.daySeconds * Instant.second)
  next.add (-1)

/-- Whether the end of a range is written without a time of day. -/
def isBareDate (s : String) : Bool := !s.toList.contains 'T' && !(Text.trim s).toList.contains ' '

/-- Reads a range. -/
def parse (s : String) : Except (Stop RequestError) TimeRange :=
  match Text.splitFirst? '/' s with
  | some (start, stop) => do
    let first ← Stop.liftError (Instant.parse start)
    let last ← Stop.liftError (Instant.parse stop)
    let last ← if isBareDate stop then Stop.liftAbort (endOfDay last) else pure last
    Stop.liftError (between first last)
  | none => do
    let t ← Stop.liftError (Instant.parse s)
    Stop.liftError (between t t)

def contains (r : TimeRange) (t : Instant) : Bool := decide (r.start ≤ t) && decide (t ≤ r.stop)

/-- Whether some instant of the span lies in the range. -/
def overlaps (r : TimeRange) (s : TimeSpan) : Bool :=
  decide (r.start ≤ s.last) && decide (s.first ≤ r.stop)

end TimeRange

end Mosaic
