import Mosaic.Cli.Arguments
import Mosaic.Load.Plan

/-!
# Queries on the command line

The arguments that describe a load, as they are written (`QueryArguments`), and the request they
stand for (`QueryArguments.toRequest`). The arguments are only texts at first: a text that says
nothing sound is found when the request is made, in a fixed order of the arguments. The reference
system of the extent is read only when there is an extent.
-/

namespace Mosaic.Cli

-- Powers of whole numbers are the built-in ones, whatever is imported with this module.
attribute [local instance (high)] instPowNat

/-- Why arguments make no request. -/
inductive QueryError
  | invalid (error : RequestError)
  /-- A length along the axes is not made of numbers. -/
  | notNumbers (what text : String)
  /-- A length along the axes has more than two numbers. -/
  | notPair (what text : String)
  deriving DecidableEq, Repr

namespace QueryError

def message : QueryError → String
  | invalid e => e.message
  | notNumbers what text => s!"invalid {what} '{text}'"
  | notPair what text => s!"invalid {what} '{text}', expected 'x,y'"

end QueryError

/-- The arguments of a query. -/
structure QueryArguments where
  product : String
  time : Option String := none
  extent : Option String := none
  extentCrs : String := "EPSG:4326"
  measurements : Option (List String) := none
  outputCrs : Option String := none
  resolution : Option String := none
  tileSize : Option String := none
  groupBy : Option String := none
  ordering : Option String := none
  padding : Option Nat := none
  deriving DecidableEq, Repr

namespace QueryArguments

/-- The number of padding pixels that a text gives: a whole number with an optional sign. -/
def padding? (s : String) : Option Nat :=
  match s.toList with
  | '-' :: digits =>
    -- zero is the only number that may have a minus
    (parseNat? 1 (String.ofList digits)).filter fun _ => digits.head? != some '+'
  | _ => parseNat? (2 ^ (32 : Nat)) s

/-- The options that describe a load. -/
def options : List OptionSpec := [
  { name := "time", letter := some 't' },
  { name := "extent", letter := some 'e', allowsHyphen := true },
  { name := "extent-crs" },
  { name := "measurements", letter := some 'm', repeats := true },
  { name := "output-crs" },
  { name := "resolution", allowsHyphen := true },
  { name := "tile-size" },
  { name := "group-by" },
  { name := "ordering" },
  { name := "padding", accepts := fun s => (padding? s).isSome }]

/-- The arguments of a query and nothing else. -/
def grammar : ArgumentGrammar where
  options := options
  words := ["PRODUCT"]

/-- The query among arguments that have been read. -/
def ofArguments (a : Arguments) : QueryArguments where
  product := a.words.headD ""
  time := a.value? "time"
  extent := a.value? "extent"
  extentCrs := (a.value? "extent-crs").getD "EPSG:4326"
  measurements := a.values? "measurements"
  outputCrs := a.value? "output-crs"
  resolution := a.value? "resolution"
  tileSize := a.value? "tile-size"
  groupBy := a.value? "group-by"
  ordering := a.value? "ordering"
  padding := (a.value? "padding").bind padding?

/-- Reads the words of a query. -/
def parse (words : List String) : Except UsageError QueryArguments :=
  (Arguments.parse grammar words).map ofArguments

/-- Reads lengths along both axes, where a single number `v` stands for `single v`. -/
def parsePair (what : String) (single : Float → Point Float) (text : String) :
    Except QueryError (Point Float) :=
  match (Text.commaFields text).mapM parseFloat? with
  | none => .error (.notNumbers what text)
  | some [x, y] => .ok ⟨x, y⟩
  | some [v] => .ok (single v)
  | some _ => .error (.notPair what text)

/-- A resolution; a single number is the size of pixels with the first row in the north. -/
def parseResolution (text : String) : Except QueryError (Point Float) :=
  parsePair "resolution" (fun v => ⟨v, -v⟩) text

/-- A tile size; a single number is the side of a square. -/
def parseTileSize (text : String) : Except QueryError (Point Float) :=
  parsePair "tile size" (fun v => ⟨v, v⟩) text

/-- The extent, with its reference system read first. -/
def parseExtent (q : QueryArguments) (text : String) : Except RequestError (Box Float × Crs) := do
  let crs ← Crs.parse q.extentCrs
  return (← Box.parse text, crs)

/-- Reads an argument that may be absent. -/
def readOptional {ε α : Type} (read : String → Except ε α) : Option String → Except ε (Option α)
  | none => .ok none
  | some text => (read text).map some

/-- Reads an argument that may be absent with a reader of the library. -/
def readRequested {α : Type} (read : String → Except RequestError α) (text : Option String) :
    Except (Stop QueryError) (Option α) :=
  Stop.liftError ((readOptional read text).mapError QueryError.invalid)

/-- The request that the arguments stand for. -/
def toRequest (q : QueryArguments) : Except (Stop QueryError) (LoadRequest Float) := do
  let timeRange ← Stop.mapError QueryError.invalid (readOptional TimeRange.parse q.time)
  let extent ← readRequested q.parseExtent q.extent
  let outputCrs ← readRequested Crs.parse q.outputCrs
  let resolution ← Stop.liftError (readOptional parseResolution q.resolution)
  let tileSize ← Stop.liftError (readOptional parseTileSize q.tileSize)
  let groupBy ← readRequested TimeGrouping.parse q.groupBy
  let ordering ← readRequested DatasetOrdering.parse q.ordering
  return {
    product := q.product
    timeRange
    extent := extent.map Prod.fst
    extentCrs := extent.map Prod.snd
    measurements := q.measurements.map fun names => names.map Text.trim
    outputCrs, resolution, tileSize, groupBy, ordering
    padding := q.padding }

end QueryArguments

end Mosaic.Cli
