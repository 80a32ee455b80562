import Mosaic.Cli.Run
import Mosaic.Zarr.Source

/-!
# The program

Reads the words of the command line, the environment, the catalog file and the stores, runs the
command, and prints what it says. Everything that is decided is decided in `Mosaic.Cli`.
-/

namespace Mosaic.Cli

/-- The variables that the program looks at. -/
def variableNames : List String :=
  ["DATABASE_URL", "CUBE_CATALOG_FILE", "CUBE_RASTER_ROOT", "CUBE_LOAD_CONCURRENCY",
    "CUBE_TIME_GROUPING", "CUBE_DENSIFY_POINTS", "CUBE_DEFAULT_ORDERING",
    "CUBE_DEFAULT_TILE_PIXELS"]

/-- The variables that are set. -/
def readEnvironment : IO (String → Option String) := do
  let values ← variableNames.mapM fun name => return (name, ← IO.getEnv name)
  return fun name => (values.find? (·.1 == name)).bind Prod.snd

/-- The problem behind an error of the file system. -/
def problemOf : IO.Error → FileProblem
  | .inappropriateType .. => .notDirectory
  | _ => .absent

/-- The text of a file. -/
def readTextFile (path : String) : IO (Except FileProblem String) := do
  try
    if ← (← IO.FS.realPath path).isDir then return .error .isDirectory
    let bytes ← IO.FS.readBinFile path
    match String.fromUTF8? bytes with
    | some text => return .ok text
    | none => return .error .notText
  catch e => return .error (problemOf e)

/-- Adds everything below a directory to a tree, under a path of the tree. -/
partial def readTree (tree : FileTree) (directory under : String) : IO FileTree := do
  let mut tree := tree.addDirectory under
  for entry in ← (← IO.FS.realPath directory).readDir do
    let path := s!"{under}/{entry.fileName}"
    if ← entry.path.isDir then tree ← readTree tree entry.path.toString path
    else tree := tree.addFile path (← IO.FS.readBinFile entry.path)
  return tree

/-- The stores below a directory; none when it cannot be read. -/
def readStores (root : String) : IO ZarrStores := do
  let tree ← try readTree {} root "" catch _ => pure {}
  return { tree, rootText := root, root := [] }

/-- Identifiers that follow a random one. -/
def freshIds : IO (Nat → DatasetId) := do
  let bytes ← IO.getRandomBytes 16
  let seed := bytes.toList.foldl (fun n b => 256 * n + b.toNat) 0
  return fun i => ⟨BitVec.ofNat 128 (seed + i)⟩

/-- The files that a command line needs. -/
def surroundings (line : CommandLine) (environment : String → Option String) :
    IO Surroundings := do
  let text ← match line.catalogFile with
    | some path => readTextFile path
    | none => pure (.error .absent)
  let stores ← match line.command with
    | .load .. => readStores line.rasterRoot
    | _ => pure { tree := {}, rootText := line.rasterRoot, root := [] }
  return { environment, readText := fun _ => text, rasters := fun _ => stores.source
           fresh := ← freshIds }

end Mosaic.Cli

open Mosaic.Cli in
def main (args : List String) : IO UInt32 := do
  let environment ← readEnvironment
  match CommandLine.parse environment args with
  | .error .helpRequested =>
    let commands := ", ".intercalate CommandLine.commandNames
    IO.println s!"Usage: mosaic [OPTIONS] COMMAND, where COMMAND is one of {commands}"
    return 0
  | .error e =>
    IO.eprintln s!"error: {e.message}"
    return 2
  | .ok line =>
    let transcript := line.run (← surroundings line environment)
    transcript.printed.forM IO.println
    match transcript.stop with
    | some (.failed failure) => IO.eprintln s!"Error: {failure.message}"
    | some (.aborted _) => IO.eprintln "aborted: a time or a longitude is out of range"
    | none => pure ()
    return transcript.exitCode.toUInt32
