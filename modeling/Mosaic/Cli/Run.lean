import Mosaic.Catalog.File
import Mosaic.Cli.Command
import Mosaic.Cli.Report
import Mosaic.FileTree
import Mosaic.Json.Print

/-!
# Running commands

A command runs on its surroundings: the environment, the files with catalogs, and the stores below a
directory. It prints documents and ends with success, with a failure or with an abort. A load stops
at the first tile that fails, with the tiles before it printed.
-/

namespace Mosaic.Cli

/-- What a program finds around it. -/
structure Surroundings where
  /-- The variables of the environment. -/
  environment : String → Option String
  /-- The text at a path. -/
  readText : String → Except FileProblem String
  /-- The stores below a directory. -/
  rasters : String → RasterSource Float32
  /-- Identifiers for dataset documents that have none. -/
  fresh : Nat → DatasetId

/-- Why a command fails. -/
inductive Failure
  | badConfiguration (flaw : String)
  | unreadableFile (path : String) (problem : FileProblem)
  | badCatalogFile (error : CatalogFileError)
  /-- Neither a catalog file nor a database is named. -/
  | noCatalog
  | query (error : QueryError)
  | catalog (error : CatalogError)
  | load (error : LoadError)
  deriving DecidableEq, Repr

namespace Failure

def message : Failure → String
  | badConfiguration flaw => s!"invalid loader configuration: {flaw}"
  | unreadableFile path problem => s!"failed to read {path}: {problem.message}"
  | badCatalogFile e => e.message
  | noCatalog => "either --database-url (DATABASE_URL) or --catalog-file is required"
  | query e => e.message
  | catalog e => e.message
  | load e => e.message

end Failure

/-- What a command does: the texts it prints, and why it stopped, if it did. -/
structure Transcript where
  printed : List String := []
  stop : Option (Stop Failure) := none

namespace Transcript

/-- The exit code. -/
def exitCode (t : Transcript) : Nat :=
  match t.stop with
  | none => 0
  | some (.failed _) => 1
  | some (.aborted _) => 101

/-- The transcript of a computation that may stop before it prints. -/
def ofExcept : Except (Stop Failure) Transcript → Transcript
  | .ok t => t
  | .error stop => { stop := some stop }

/-- Prints the results of a list of computations up to the first that stops. -/
def ofResults : List (Except (Stop Failure) String) → Transcript
  | [] => {}
  | .error stop :: _ => { stop := some stop }
  | .ok text :: rest =>
    let t := ofResults rest
    { t with printed := text :: t.printed }

end Transcript

namespace CommandLine

/-- The catalog that the command line names. No database can be reached. -/
def openCatalog (line : CommandLine) (around : Surroundings) :
    Except (Stop Failure) (Catalog Float Float32) :=
  match line.catalogFile, line.databaseUrl with
  | some path, _ => do
    let text ← Stop.liftError ((around.readText path).mapError (Failure.unreadableFile path))
    Stop.mapError Failure.badCatalogFile (CatalogFile.load around.fresh text)
  | none, some url =>
    .error (.failed (.catalog (.unavailable s!"Connection failed: no database answers at '{url}'")))
  | none, none => .error (.failed .noCatalog)

/-- A load error as the failure of a command. -/
def ofLoad {α : Type} (result : Except (Stop LoadError) α) : Except (Stop Failure) α :=
  Stop.mapError Failure.load result

/-- Runs the command on a catalog. -/
def runOn (line : CommandLine) (config : LoaderConfig) (source : RasterSource Float32)
    (catalog : Catalog Float Float32) : Except (Stop Failure) Transcript := do
  match line.command with
  | .products =>
    let products ← ofLoad (Stop.liftError (catalog.listProducts.mapError LoadError.ofCatalog))
    return { printed := [(Json.array (products.map Product.listing)).pretty 0] }
  | .measurements name =>
    let product ← ofLoad (Stop.liftError ((catalog.product name).mapError LoadError.ofCatalog))
    return { printed := [(Json.array (product.measurements.map Measurement.toJson)).pretty 0] }
  | .describe query =>
    let request ← Stop.mapError Failure.query query.toRequest
    let summary ← ofLoad (request.describe config catalog)
    return { printed := [summary.toJson.pretty 0] }
  | .load query _ withData =>
    let request ← Stop.mapError Failure.query query.toRequest
    let plan ← ofLoad (request.plan config catalog)
    return .ofResults ((plan.loadAll source).map fun tile =>
      (ofLoad tile).map fun t => (t.toJson withData).compact)

/-- Runs a command line. -/
def run (line : CommandLine) (around : Surroundings) : Transcript :=
  let config := LoaderConfig.ofEnvironment around.environment
  .ofExcept do
    if let some flaw := config.flaw? then throw (.failed (.badConfiguration flaw))
    let catalog ← line.openCatalog around
    line.runOn config (around.rasters line.rasterRoot) catalog

end CommandLine

end Mosaic.Cli
