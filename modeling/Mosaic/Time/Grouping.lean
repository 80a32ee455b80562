import Mosaic.Scalar.Basic
import Mosaic.Text.Case
import Mosaic.Time.Range

/-!
# Grouping by time

How datasets are gathered into the time slices of a load: each centre time by itself, or all centre
times of a day of UTC, or all of a day as the sun shows it at the dataset's longitude, where fifteen
degrees are an hour.
-/

namespace Mosaic

inductive TimeGrouping
  | exact
  | day
  | solarDay
  deriving DecidableEq, Repr, Inhabited

namespace TimeGrouping

def all : List TimeGrouping := [exact, day, solarDay]

def name : TimeGrouping → String
  | exact => "exact"
  | day => "day"
  | solarDay => "solar_day"

/-- The grouping with exactly this name. -/
def ofName? (s : String) : Option TimeGrouping := all.find? (·.name == s)

/-- Reads a grouping in either case with blanks around it, second names included. -/
def parse (s : String) : Except RequestError TimeGrouping :=
  match Text.lower (Text.trim s) with
  | "exact" | "time" => .ok exact
  | "day" => .ok day
  | "solar_day" | "solar-day" => .ok solarDay
  | _ => .error (.configuration s!"unknown time grouping '{s}', expected exact, day or solar_day")

/-- How far solar time is ahead of UTC at a longitude, in whole seconds. -/
def solarSeconds {K : Type} [Coordinate K] (longitude : K) : Int :=
  Coordinate.toInt (Coordinate.round (longitude / 15.0 * 3600.0))

/-- The time slice of a dataset. The longitude counts for solar days only. -/
def key {K : Type} [Coordinate K] (grouping : TimeGrouping) (span : TimeSpan) (longitude : K) :
    Except Abort Instant := do
  let center ← span.center
  match grouping with
  | exact => return center
  | day => return center.startOfDay
  | solarDay =>
    let offset ← Instant.ofSeconds (solarSeconds longitude)
    return (← center.add offset).startOfDay

end TimeGrouping

end Mosaic
