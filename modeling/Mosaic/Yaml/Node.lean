import Mosaic.Document
import Mosaic.Json.Read
import Mosaic.Text.Blank

/-!
# YAML nodes

The tree that a YAML document holds. A scalar is a text, and whether it was written plain decides
what else it can be: a plain scalar is resolved by the core schema to null, a boolean, a whole number
or a number, and a quoted one is a text. A reader that wants a text takes either as it is written.

Whole numbers may be written in base 16, 8 and 2 with `0x`, `0o` and `0b`. A run of digits with a
zero in front is no number for a reader that takes what it finds.
-/

namespace Mosaic

-- Powers of whole numbers are the built-in ones, whatever is imported with this module.
attribute [local instance (high)] instPowNat

inductive Yaml
  | scalar (text : String) (isPlain : Bool)
  | sequence (items : List Yaml)
  | mapping (entries : List (Yaml × Yaml))

namespace Yaml

instance : Inhabited Yaml := ⟨scalar "" true⟩

/-! ## Plain scalars -/

/-- Whether a plain scalar names the absent value. -/
def isNullWord (s : String) : Bool := s.isEmpty || ["null", "Null", "NULL", "~"].contains s

/-- The truth value that a plain scalar names. -/
def boolOf? (s : String) : Option Bool :=
  if ["true", "True", "TRUE"].contains s then some true
  else if ["false", "False", "FALSE"].contains s then some false
  else none

/-- Whether a text begins with a sign. -/
def isSigned : List Char → Bool
  | '+' :: _ | '-' :: _ => true
  | _ => false

/-- Whether a text is a run of at least two digits that begins with zero, after an optional sign. -/
def hasLeadingZero (cs : List Char) : Bool :=
  let ds := if isSigned cs then cs.drop 1 else cs
  match ds with
  | '0' :: d :: rest => (d :: rest).all Decimal.isDigit
  | _ => false

/-- The number of a run of digits in a base up to sixteen, with an optional plus sign. -/
def digitsOf? (base : Nat) (cs : List Char) : Option Nat :=
  let ds := match cs with
    | '+' :: ds => ds
    | ds => ds
  if ds.isEmpty then none
  else
    ds.foldlM (fun n c => do
      let d ← Json.hexValue? c
      if d < base then some (base * n + d) else none) 0

/-- The base that the beginning of a number names, and what follows it. -/
def baseOf? : List Char → Option (Nat × List Char)
  | '0' :: 'x' :: rest => some (16, rest)
  | '0' :: 'o' :: rest => some (8, rest)
  | '0' :: 'b' :: rest => some (2, rest)
  | _ => none

/-- The whole number that a plain scalar without a minus sign names. -/
def unsignedOf? (cs : List Char) : Option Nat :=
  let bare := match cs with
    | '+' :: rest => rest
    | cs => cs
  let based := do
    let (base, rest) ← baseOf? bare
    if isSigned rest then none else digitsOf? base rest
  based <|> (if isSigned bare || hasLeadingZero cs then none else digitsOf? 10 bare)

/-- The whole number that a plain scalar with a minus sign names. -/
def negativeOf? : List Char → Option Int
  | '-' :: rest =>
    let based := do
      let (base, rest) ← baseOf? rest
      if isSigned rest then none else digitsOf? base rest
    let decimal :=
      if isSigned rest || hasLeadingZero ('-' :: rest) then none else digitsOf? 10 rest
    (based <|> decimal).map fun n => -(n : Int)
  | _ => none

/-- The whole number that a plain scalar names, if it fits 128 bits. -/
def integerOf? (s : String) : Option Int :=
  let cs := s.toList
  match unsignedOf? cs with
  | some n => if n < 2 ^ (128 : Nat) then some n else none
  | none => (negativeOf? cs).bind fun n => if -(2 ^ (127 : Nat)) ≤ n then some n else none

/-- The number that a plain scalar names. -/
def realOf? (s : String) : Option Float :=
  let bare := (Text.stripStart? "+" s).getD s
  if bare ≠ s ∧ isSigned bare.toList then none
  else if [".inf", ".Inf", ".INF"].contains bare then some (1.0 / 0.0)
  else if ["-.inf", "-.Inf", "-.INF"].contains s then some (-1.0 / 0.0)
  else if [".nan", ".NaN", ".NAN"].contains s then some (0.0 / 0.0)
  else (parseFloat? bare).filter Float.isFinite

/-- What a plain scalar is when nothing is said of what it should be. -/
inductive Resolved
  | null
  | bool (value : Bool)
  | int (value : Int)
  | real (value : Float)
  | text (value : String)

/-- Resolves a scalar. -/
def resolve (s : String) (isPlain : Bool) : Resolved :=
  if !isPlain then .text s
  else if isNullWord s then .null
  else
    match boolOf? s, integerOf? s with
    | some b, _ => .bool b
    | none, some n => .int n
    | none, none =>
      if hasLeadingZero s.toList then .text s
      else
        match realOf? s with
        | some x => .real x
        | none => .text s

/-- Whether a whole number fits 64 bits, signed or unsigned. -/
def fits64 (n : Int) : Bool := decide (-(2 ^ (63 : Nat)) ≤ n) && decide (n < 2 ^ (64 : Nat))

/-! ## Typed views -/

/-- The text of a scalar. -/
def text? : Yaml → Option String
  | scalar s _ => some s
  | _ => none

/-- The members of a mapping whose keys are scalars. -/
def membersOf? (entries : List (Yaml × Yaml)) : Option (List (String × Yaml)) :=
  entries.mapM fun e => e.1.text?.map fun key => (key, e.2)

instance : DataTree Yaml where
  isAbsent
    | scalar s isPlain => isPlain && isNullWord s
    | _ => false
  text? := text?
  word? := text?
  real?
    | scalar s true => realOf? s
    | _ => none
  natural?
    | scalar s true => (unsignedOf? s.toList).filter fun n => decide (n < 2 ^ (64 : Nat))
    | _ => none
  numberOrText?
    | scalar s isPlain =>
      match resolve s isPlain with
      | .int n => if fits64 n then some (.inl (Float.ofInt n)) else none
      | .real x => some (.inl x)
      | .text s => some (.inr s)
      | _ => none
    | _ => none
  items?
    | sequence items => some items
    | scalar "" true => some []
    | _ => none
  members?
    | mapping entries => membersOf? entries
    | scalar "" true => some []
    | _ => none
  record?
    | mapping entries => (membersOf? entries).map .named
    | scalar "" true => some (.named [])
    | _ => none

mutual

/-- The JSON value of a node; `none` for a whole number of more than 64 bits and for a key that is
not a scalar. -/
def toJson? : Yaml → Option Json
  | scalar s isPlain =>
    match resolve s isPlain with
    | .null => some .null
    | .bool b => some (.bool b)
    | .int n => if fits64 n then some (.int n) else none
    | .real x => some (Json.ofFloat x)
    | .text s => some (.string s)
  | sequence items => (itemsToJson? items).map Json.array
  | mapping entries => (entriesToJson? [] entries).map Json.object

/-- The JSON values of a list of nodes. -/
def itemsToJson? : List Yaml → Option (List Json)
  | [] => some []
  | item :: rest => do
    let v ← toJson? item
    let vs ← itemsToJson? rest
    return v :: vs

/-- The members of the entries of a mapping, put behind those in `members`. -/
def entriesToJson? (members : List (String × Json)) :
    List (Yaml × Yaml) → Option (List (String × Json))
  | [] => some members
  | (key, value) :: rest => do
    let key ← key.text?
    let v ← toJson? value
    entriesToJson? (Json.setMember key v members) rest

end

end Yaml

end Mosaic
