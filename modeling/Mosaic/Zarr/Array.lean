import Mosaic.Json.Read

/-!
# Metadata of Zarr arrays

What the document `zarr.json` of an array of version 3 says: its shape, its chunks and where they
lie, the type of its elements and the order of their bytes, and the value of chunks that are not
there. Chunks lie on a regular grid and are stored as they are, without compression.
-/

namespace Mosaic

-- Powers of whole numbers are the built-in ones, whatever is imported with this module.
attribute [local instance (high)] instPowNat

/-- The types of elements that are told apart. -/
inductive ElementType
  | integer (width : Nat) (isSigned : Bool)
  | single
  | double
  /-- A type of the format whose elements are not read. -/
  | unsupported (name : String)
  deriving DecidableEq, Repr

namespace ElementType

/-- The type with a name. -/
def ofName? (name : String) : Option ElementType :=
  match name with
  | "int8" => some (integer 1 true)
  | "int16" => some (integer 2 true)
  | "int32" => some (integer 4 true)
  | "int64" => some (integer 8 true)
  | "uint8" => some (integer 1 false)
  | "uint16" => some (integer 2 false)
  | "uint32" => some (integer 4 false)
  | "uint64" => some (integer 8 false)
  | "float32" => some single
  | "float64" => some double
  | "bool" | "float16" | "bfloat16" | "complex64" | "complex128" => some (unsupported name)
  | _ => none

/-- The number of bytes of an element. -/
def width : ElementType → Nat
  | integer n _ => n
  | single => 4
  | double => 8
  | unsupported _ => 1

/-- The number with the given bytes, the most significant one first. -/
def natOfBytes (bytes : List UInt8) : Nat := bytes.foldl (fun n b => 256 * n + b.toNat) 0

/-- The sample of an element with the given bytes, the most significant one first. -/
def decode (type : ElementType) (bytes : List UInt8) : Float32 :=
  let n := natOfBytes bytes
  match type with
  | integer width isSigned =>
    if isSigned && decide (2 ^ (8 * width - 1) ≤ n) then
      Float32.ofInt ((n : Int) - 2 ^ (8 * width))
    else Float32.ofNat n
  | single => Float32.ofBits (UInt32.ofNat n)
  | double => Binary.narrow (Float.ofBits (UInt64.ofNat n))
  | unsupported _ => 0.0 / 0.0

/-- The least and the greatest value of an integer type. -/
def range (width : Nat) (isSigned : Bool) : Int × Int :=
  if isSigned then (-(2 ^ (8 * width - 1)), 2 ^ (8 * width - 1) - 1) else (0, 2 ^ (8 * width) - 1)

/-- The bits that a text of hexadecimal digits names, if it names as many as the type has. -/
def bitsOf? (width : Nat) (s : String) : Option Nat :=
  match s.toList with
  | '0' :: 'x' :: ds =>
    if ds.length = 2 * width then
      ds.foldlM (fun n c => (Json.hexValue? c).map (16 * n + ·)) 0
    else none
  | _ => none

/-- The number of one of the words for what no number of a document names. -/
def wordOf? (s : String) : Option Float :=
  match s with
  | "NaN" => some (0.0 / 0.0)
  | "Infinity" => some (1.0 / 0.0)
  | "-Infinity" => some (-1.0 / 0.0)
  | _ => none

/-- The fill value of an array as a sample; the type of an array whose elements are not read has
none. A value that does not fit the type is refused. -/
def fillValue? (type : ElementType) (v : Json) : Option (Option Float32) :=
  match type, v with
  | integer width isSigned, .int n =>
    let (lo, hi) := range width isSigned
    if lo ≤ n ∧ n ≤ hi then some (some (Float32.ofInt n)) else none
  | integer .., _ => none
  | single, .string s =>
    (((wordOf? s).map Binary.narrow) <|>
      (bitsOf? 4 s).map fun n => Float32.ofBits (UInt32.ofNat n)).map some
  | double, .string s =>
    ((wordOf? s) <|> (bitsOf? 8 s).map fun n => Float.ofBits (UInt64.ofNat n)).map
      fun x => some (Binary.narrow x)
  | single, v | double, v => v.float?.map fun x => some (Binary.narrow x)
  | unsupported _, _ => some none

end ElementType

/-- The order in which the bytes of an element are stored. -/
inductive ByteOrder
  | little
  | big
  deriving DecidableEq, Repr

/-- What is known of an array. -/
structure ZarrArray where
  shape : List Nat
  chunkShape : List Nat
  type : ElementType
  /-- The order of bytes; an array of single bytes needs none. -/
  byteOrder : Option ByteOrder
  /-- What stands between the numbers in the name of a chunk. -/
  separator : Char
  /-- The value of chunks that are not there. -/
  fill : Option Float32
  /-- The value declared for missing samples. -/
  nodata : Option Float32

namespace ZarrArray

/-- A list of whole numbers. -/
def naturals? : Json → Option (List Nat)
  | .array items => items.mapM fun v => match v with
    | .int (.ofNat n) => some n
    | _ => none
  | _ => none

/-- The name and the configuration of a part of the metadata that may be given by its name alone. -/
def named? (v : Json) : Option (String × Json) :=
  match v with
  | .string name => some (name, .object [])
  | v => do
    let name ← (← v.get? "name").string?
    return (name, (v.get? "configuration").getD (.object []))

/-- The shape of the chunks of a regular grid. -/
def chunkShape? (v : Json) : Option (List Nat) := do
  let (name, config) ← named? v
  if name ≠ "regular" then none
  let shape ← naturals? (← config.get? "chunk_shape")
  if shape.contains 0 then none else some shape

/-- What stands between the numbers in the names of chunks. -/
def separator? (v : Json) : Option Char := do
  let (name, config) ← named? v
  if name ≠ "default" then none
  match config.get? "separator" with
  | none | some (.string "/") => some '/'
  | some (.string ".") => some '.'
  | some _ => none

/-- The order of bytes that the only codec names, if it names one. -/
def byteOrder? (v : Json) : Option (Option ByteOrder) := do
  match v with
  | .array [codec] =>
    let (name, config) ← named? codec
    if name ≠ "bytes" then none
    match config.get? "endian" with
    | none => some none
    | some (.string "little") => some (some .little)
    | some (.string "big") => some (some .big)
    | some _ => none
  | _ => none

/-- The sample that the attributes declare for missing data. -/
def nodataAttribute? (v : Json) : Option Float32 := do
  let attributes ← v.get? "attributes"
  let x ← (← attributes.get? "nodata").float?
  return Binary.narrow x

/-- Reads the metadata of an array. -/
def ofJson? (v : Json) : Option ZarrArray := do
  let .int 3 ← v.get? "zarr_format" | none
  let .string "array" ← v.get? "node_type" | none
  let shape ← naturals? (← v.get? "shape")
  let (typeName, _) ← named? (← v.get? "data_type")
  let type ← ElementType.ofName? typeName
  let chunkShape ← chunkShape? (← v.get? "chunk_grid")
  if chunkShape.length ≠ shape.length then none
  let separator ← separator? (← v.get? "chunk_key_encoding")
  let fill ← type.fillValue? (← v.get? "fill_value")
  let byteOrder ← byteOrder? (← v.get? "codecs")
  return {
    shape, chunkShape, type, byteOrder, separator, fill
    nodata := nodataAttribute? v <|> fill }

end ZarrArray

end Mosaic
