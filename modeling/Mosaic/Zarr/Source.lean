import Mosaic.FileTree
import Mosaic.Raster.Source
import Mosaic.Zarr.Array

/-!
# Rasters in Zarr stores

A source of rasters that are Zarr arrays of two dimensions. The path of a locator names a store below
a directory and its variable an array in the store, or the store itself is the array. A chunk that is
not there holds the fill value. Of a chunk that is there, the part that a window needs has to be
there, and a chunk that is needed as a whole has to have its exact size.
-/

namespace Mosaic

/-- A directory below which stores lie. -/
structure ZarrStores where
  tree : FileTree
  /-- The directory as errors name it. -/
  rootText : String
  /-- The names on the path of the directory. -/
  root : List String := []

/-- A rectangle of elements of a chunk. -/
structure ChunkPart where
  /-- The number of the chunk along both axes. -/
  chunk : Nat × Nat
  window : PixelWindow
  deriving Repr

namespace ZarrArray

/-- The names on the path of a chunk below the array. -/
def chunkNames (a : ZarrArray) (chunk : Nat × Nat) : List String :=
  if a.separator = '/' then ["c", toString chunk.1, toString chunk.2]
  else [s!"c.{chunk.1}.{chunk.2}"]

/-- The pieces into which chunks of a size cut the numbers from `start` on: the number of the chunk,
the first element in it and how many there are. -/
def cuts (size start count : Nat) : List (Nat × Nat × Nat) :=
  let first := start / size
  let last := (start + count + size - 1) / size
  (List.range (last - first)).map fun i =>
    let chunk := first + i
    let lower := max start (chunk * size)
    let upper := min (start + count) ((chunk + 1) * size)
    (chunk, lower - chunk * size, upper - lower)

/-- The parts of chunks of which a window is made. -/
def partsOf (chunkShape : PixelShape) (w : PixelWindow) : List ChunkPart :=
  if w.isEmpty then []
  else
    (cuts chunkShape.height w.row w.height).flatMap fun (i, row, height) =>
      (cuts chunkShape.width w.col w.width).map fun (j, col, width) =>
        ⟨(i, j), ⟨row, col, height, width⟩⟩

/-- Whether the bytes of a chunk hold a part of it. -/
def holds (a : ZarrArray) (chunkShape : PixelShape) (part : ChunkPart) (bytes : ByteArray) : Bool :=
  let w := part.window
  let isWhole := w == ⟨0, 0, chunkShape.height, chunkShape.width⟩
  if isWhole then bytes.size == chunkShape.height * chunkShape.width * a.type.width
  else
    let stop := (w.row + w.height - 1) * chunkShape.width + w.col + w.width
    decide (stop * a.type.width ≤ bytes.size)

/-- The bytes of an element of a chunk, the most significant one first. -/
def elementBytes (a : ZarrArray) (bytes : ByteArray) (index : Nat) : List UInt8 :=
  let stored := (List.range a.type.width).map fun i => bytes.data.getD (index * a.type.width + i) 0
  if a.byteOrder = some .big then stored else stored.reverse

/-- The sample at a row and a column. -/
def sampleAt (a : ZarrArray) (chunkShape : PixelShape) (chunk? : Nat × Nat → Option ByteArray)
    (row col : Nat) : Float32 :=
  match chunk? (row / chunkShape.height, col / chunkShape.width) with
  | none => a.fill.getD 0.0
  | some bytes =>
    let index := (row % chunkShape.height) * chunkShape.width + col % chunkShape.width
    a.type.decode (a.elementBytes bytes index)

/-- Accepts a part of a chunk that can be read. -/
def checkPart (a : ZarrArray) (chunkShape : PixelShape) (chunk? : Nat × Nat → Option ByteArray)
    (part : ChunkPart) : Except LoadError Unit :=
  match chunk? part.chunk with
  | none => .ok ()
  | some bytes =>
    if a.byteOrder = none ∧ a.type.width ≠ 1 then .error (.readFailed "the order of bytes is open")
    else if a.holds chunkShape part bytes then .ok ()
    else .error (.readFailed s!"a chunk has {bytes.size} bytes")

/-- The samples of a window. -/
def readWindow (a : ZarrArray) (shape chunkShape : PixelShape)
    (chunk? : Nat × Nat → Option ByteArray) (w : PixelWindow) :
    Except LoadError (WindowData Float32) := do
  if !w.fits shape then throw (w.outside shape)
  if let .unsupported name := a.type then throw (.zarr s!"unsupported data type {name}")
  (partsOf chunkShape w).forM (a.checkPart chunkShape chunk?)
  let values := Array.ofFn fun i : Fin w.count =>
    a.sampleAt chunkShape chunk? (w.row + i / w.width) (w.col + i % w.width)
  return ⟨w, values, a.nodata⟩

end ZarrArray

namespace ZarrStores

/-- The names on the path of an array in a store, whose strokes at the beginning do not count. No name
may be empty. -/
def arrayNames? (store : List String) (variableName : Option String) : Option (List String) :=
  match ((variableName.getD "").toList.dropWhile (· == '/')) with
  | [] => some store
  | cs =>
    let names := (Text.splitAtAll (· == '/') cs).map String.ofList
    if names.contains "" then none else some (store ++ names)

/-- The metadata of the array in a directory. -/
def metadata? (s : ZarrStores) (names : List String) : Option ZarrArray := do
  let text ← s.tree.readText? (names ++ ["zarr.json"])
  ZarrArray.ofJson? (← Json.parse? text)

/-- Opens the array that a locator names. -/
def openArray (s : ZarrStores) (locator : SourceLocator) :
    Except LoadError (RasterHandle Float32) := do
  let store := FileTree.namesFrom s.root locator.path
  if FileTree.isAbsolute locator.path || !s.tree.isDirectory store then
    throw (.openFailed s!"no Zarr store at {FileTree.joinText s.rootText locator.path}")
  let missing : LoadError := .openFailed s!"{locator.text}: there is no array that can be read"
  let some names := arrayNames? store locator.variableName | throw missing
  let some a := s.metadata? names | throw missing
  let [height, width] := a.shape
    | throw (.invalidMetadata s!"{locator.text} has {a.shape.length} dimensions, expected 2")
  let shape : PixelShape := ⟨height, width⟩
  let chunkShape : PixelShape := ⟨a.chunkShape.getD 0 1, a.chunkShape.getD 1 1⟩
  return {
    shape
    readWindow := a.readWindow shape chunkShape fun chunk =>
      s.tree.read? (names ++ a.chunkNames chunk) }

/-- The source that opens the arrays of the stores. -/
def source (s : ZarrStores) : RasterSource Float32 := ⟨s.openArray⟩

end ZarrStores

end Mosaic
