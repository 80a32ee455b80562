import Mosaic.Cli.Query

/-!
# Commands

The whole command line: options that say where catalog and rasters are, then a command with its own
arguments. What the options leave open is looked up in the environment. `CommandLine.parse` reads the
words; an error among the words of the command comes before one that is still open in front of it.
-/

namespace Mosaic.Cli

-- Powers of whole numbers are the built-in ones, whatever is imported with this module.
attribute [local instance (high)] instPowNat

inductive Command
  /-- List the products. -/
  | products
  /-- List the measurements of a product. -/
  | measurements (product : String)
  /-- Tell what a load will give. -/
  | describe (query : QueryArguments)
  /-- Load, so many tiles at a time, and report every tile. -/
  | load (query : QueryArguments) (concurrency : Option Nat) (withData : Bool)
  deriving DecidableEq, Repr

/-- A command and where it finds its data. -/
structure CommandLine where
  databaseUrl : Option String := none
  catalogFile : Option String := none
  rasterRoot : String := "."
  logLevel : String := "info"
  command : Command
  deriving DecidableEq, Repr

namespace CommandLine

/-- The names of the commands. -/
def commandNames : List String := ["products", "measurements", "describe", "load"]

/-- What comes before the command. -/
def grammar : ArgumentGrammar where
  options := [{ name := "database-url" }, { name := "catalog-file" }, { name := "raster-root" },
    { name := "log-level" }]
  commands := "help" :: commandNames

/-- What comes after a command. -/
def grammarOf (command : String) : ArgumentGrammar :=
  match command with
  | "measurements" => { options := [], words := ["PRODUCT"] }
  | "describe" => QueryArguments.grammar
  | "load" =>
    { QueryArguments.grammar with
      options := QueryArguments.options ++ [
        { name := "concurrency", letter := some 'c',
          accepts := fun s => (parseNat? (2 ^ (64 : Nat)) s).isSome },
        { name := "with-data", takesValue := false }] }
  | _ => { options := [] }

/-- The command among arguments that have been read. -/
def commandOf (name : String) (a : Arguments) : Command :=
  match name with
  | "measurements" => .measurements (a.words.headD "")
  | "describe" => .describe (QueryArguments.ofArguments a)
  | "load" =>
    .load (QueryArguments.ofArguments a) ((a.value? "concurrency").bind (parseNat? (2 ^ (64 : Nat))))
      (a.has "with-data")
  | _ => .products

/-- Help on a command, which has to be there. -/
def helpOn : List String → UsageError
  | [] => .helpRequested
  | [name] => if ("help" :: commandNames).contains name then .helpRequested else .unknownCommand name
  | name :: second :: _ =>
    .unknownCommand (if ("help" :: commandNames).contains name then second else name)

/-- Reads a command and its arguments. -/
def parseCommand (name : String) (words : List String) : Except UsageError Command := do
  if name = "help" then throw (helpOn words)
  return commandOf name (← Arguments.parse (grammarOf name) words)

/-- Reads the words of a command line in an environment. -/
def parse (environment : String → Option String) (words : List String) :
    Except UsageError CommandLine := do
  let (a, command) ← Arguments.readAll grammar {} words
  let command ← command.mapM fun c => parseCommand c.1 c.2
  let a ← a.finish grammar
  let some command := command | throw .missingCommand
  return {
    databaseUrl := a.value? "database-url" <|> environment "DATABASE_URL"
    catalogFile := a.value? "catalog-file" <|> environment "CUBE_CATALOG_FILE"
    rasterRoot := (a.value? "raster-root" <|> environment "CUBE_RASTER_ROOT").getD "."
    logLevel := (a.value? "log-level").getD "info"
    command }

end CommandLine

end Mosaic.Cli
