import Mosaic.SortedMap
import Mosaic.Text.Blank

/-!
# Trees of files

The files and directories below one directory, as values. A path is a text with strokes between the
names on it; empty names and points are passed over, and two points go one directory up. A directory
is there when it has been made or when a file lies below it.
-/

namespace Mosaic

/-- Why a text cannot be read. -/
inductive FileProblem
  | absent
  /-- A name on the path, but not the last one, is that of a file. -/
  | notDirectory
  | isDirectory
  /-- The bytes are not those of a text. -/
  | notText
  deriving DecidableEq, Repr

namespace FileProblem

def message : FileProblem → String
  | absent => "No such file or directory (os error 2)"
  | notDirectory => "Not a directory (os error 20)"
  | isDirectory => "Is a directory (os error 21)"
  | notText => "stream did not contain valid UTF-8"

end FileProblem

/-- Files by the names on their paths. -/
structure FileTree where
  files : SortedMap (List String) ByteArray := ∅
  /-- Directories that are there without a file. -/
  directories : List (List String) := []

namespace FileTree

/-- Whether a path begins at the root of all files. -/
def isAbsolute (path : String) : Bool := path.toList.head? == some '/'

/-- Takes one name of a path up; the names so far stand last first. -/
def step (names : List String) (name : String) : List String :=
  match name with
  | "" | "." => names
  | ".." => names.drop 1
  | name => name :: names

/-- The names on a path that starts in a directory. -/
def namesFrom (start : List String) (path : String) : List String :=
  let pieces := (Text.splitAtAll (· == '/') path.toList).map String.ofList
  (pieces.foldl step start.reverse).reverse

/-- A path below a directory, as a text. A path from the root of all files stands for itself. -/
def joinText (directory path : String) : String :=
  if isAbsolute path || directory.isEmpty then path
  else if directory.toList.getLast? == some '/' then directory ++ path
  else directory ++ "/" ++ path

/-- Whether a list of names is that of a directory. -/
def isDirectory (tree : FileTree) (names : List String) : Bool :=
  names.isEmpty || tree.directories.any (names.isPrefixOf ·) ||
    tree.files.keys.any fun file => names.isPrefixOf file && names != file

/-- The bytes of a file. -/
def read? (tree : FileTree) (names : List String) : Option ByteArray := tree.files.find? names

/-- The text of a file, if its bytes are those of one. -/
def readText? (tree : FileTree) (names : List String) : Option String :=
  (tree.read? names).bind String.fromUTF8?

/-- Whether a path goes on below a file. -/
def passesFile (tree : FileTree) (names : List String) : Bool :=
  tree.files.keys.any fun file => file.isPrefixOf names && names != file

/-- Reads the text at a path below the directory of the tree. -/
def readPath (tree : FileTree) (path : String) : Except FileProblem String :=
  let names := namesFrom [] path
  if path.isEmpty || isAbsolute path then .error .absent
  else if tree.passesFile names then .error .notDirectory
  else if tree.isDirectory names then .error .isDirectory
  else
    match tree.read? names with
    | none => .error .absent
    | some bytes =>
      if path.toList.getLast? == some '/' then .error .notDirectory
      else
        match String.fromUTF8? bytes with
        | some text => .ok text
        | none => .error .notText

/-- Puts a file in. -/
def addFile (tree : FileTree) (path : String) (bytes : ByteArray) : FileTree :=
  { tree with files := tree.files.insert (namesFrom [] path) bytes }

/-- Puts a directory in. -/
def addDirectory (tree : FileTree) (path : String) : FileTree :=
  { tree with directories := namesFrom [] path :: tree.directories }

end FileTree

end Mosaic
