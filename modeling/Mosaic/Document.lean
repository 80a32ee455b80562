import Mosaic.Json.Basic
import Mosaic.SortedMap

/-!
# Reading typed values from documents

Products, grids, configurations and dataset documents are read from trees of plain data. `DataTree`
lists what a reader asks of a node, so that one reader serves trees of several formats: JSON values
here, YAML nodes elsewhere. A record may be given by the names of its fields, and in JSON also as an
array of its fields in order. One of several alternatives goes by its name, which in JSON may also be
the only key of an object, with null as its value.

Unknown fields are passed over. A field given twice, or under two of its names, is an error. A field
that may be absent may also be null only when it is optional; a field with a default may be absent
and not null.
-/

namespace Mosaic

/-- Why a document cannot be read as what it should be. -/
inductive ReadError
  /-- A record lacks a field. -/
  | missingField (name : String)
  /-- A record has a field twice. -/
  | duplicateField (name : String)
  /-- An array has the wrong number of items. -/
  | wrongLength (wanted : Nat)
  /-- A value is not of the wanted kind. -/
  | unexpected (wanted : String)
  /-- A value of the right kind is refused. -/
  | refused (text : String)
  deriving DecidableEq, Repr

namespace ReadError

def message : ReadError → String
  | missingField name => s!"field '{name}' is missing"
  | duplicateField name => s!"field '{name}' is given twice"
  | wrongLength wanted => s!"{wanted} items are needed"
  | unexpected wanted => s!"{wanted} is needed"
  | refused text => text

end ReadError

/-- The fields of a record, by name or in order. -/
inductive RecordFields (T : Type)
  | named (members : List (String × T))
  | ordered (items : List T)

/-- What the reader of a typed value asks of a node of a document. -/
class DataTree (T : Type) where
  /-- Whether the node stands for an absent value. -/
  isAbsent : T → Bool
  text? : T → Option String
  /-- The name of one of several alternatives. -/
  word? : T → Option String
  real? : T → Option Float
  /-- A whole number from 0 to 2^64 - 1. -/
  natural? : T → Option Nat
  /-- A number, or else a text, as the node itself says. -/
  numberOrText? : T → Option (Float ⊕ String)
  items? : T → Option (List T)
  members? : T → Option (List (String × T))
  record? : T → Option (RecordFields T)

namespace DataTree

variable {T α : Type} [DataTree T]

def text (t : T) : Except ReadError String :=
  match text? t with
  | some s => .ok s
  | none => .error (.unexpected "a text")

def real (t : T) : Except ReadError Float :=
  match real? t with
  | some x => .ok x
  | none => .error (.unexpected "a number")

/-- A whole number below `limit`. -/
def natural (limit : Nat) (t : T) : Except ReadError Nat :=
  match natural? t with
  | some n => if n < limit then .ok n else .error (.unexpected "a smaller number")
  | none => .error (.unexpected "a whole number")

/-- A value that may be absent. -/
def optional (read : T → Except ReadError α) (t : T) : Except ReadError (Option α) :=
  if isAbsent t then .ok none else (read t).map some

def list (read : T → Except ReadError α) (t : T) : Except ReadError (List α) :=
  match items? t with
  | some items => items.mapM read
  | none => .error (.unexpected "a list")

/-- A list of exactly two items. -/
def pair (read : T → Except ReadError α) (t : T) : Except ReadError (α × α) :=
  match items? t with
  | some [a, b] => do return (← read a, ← read b)
  | some _ => .error (.wrongLength 2)
  | none => .error (.unexpected "a list")

/-- A map from texts; of two values for one key the last counts. -/
def map (read : T → Except ReadError α) (t : T) : Except ReadError (SortedMap String α) :=
  match members? t with
  | some members => members.foldlM (fun acc m => do return acc.insert m.1 (← read m.2)) ∅
  | none => .error (.unexpected "a map")

/-- The value that a name stands for. -/
def find (wanted : String) (find? : String → Option α) : Option String → Except ReadError α
  | none => .error (.unexpected wanted)
  | some s =>
    match find? s with
    | some a => .ok a
    | none => .error (.refused s!"'{s}' is not {wanted}")

/-- The value that a text stands for. -/
def named (wanted : String) (find? : String → Option α) (t : T) : Except ReadError α :=
  find wanted find? (text? t)

/-- One of several alternatives, by its name. -/
def oneOf (wanted : String) (find? : String → Option α) (t : T) : Except ReadError α :=
  find wanted find? (word? t)

end DataTree

namespace RecordFields

variable {T α : Type} [DataTree T]

/-- The fields of a record of `count` fields. -/
def ofTree (count : Nat) (t : T) : Except ReadError (RecordFields T) :=
  match DataTree.record? t with
  | some (.ordered items) =>
    if items.length ≤ count then .ok (.ordered items) else .error (.wrongLength count)
  | some fields => .ok fields
  | none => .error (.unexpected "a record")

/-- The node of the `index`-th field, which goes by any of the names. -/
def node? (fields : RecordFields T) (index : Nat) (names : List String) :
    Except ReadError (Option T) :=
  match fields with
  | .ordered items => .ok items[index]?
  | .named members =>
    match members.filter fun m => names.contains m.1 with
    | [] => .ok none
    | [m] => .ok (some m.2)
    | _ => .error (.duplicateField (names.headD ""))

/-- A field that has to be there. -/
def required (fields : RecordFields T) (index : Nat) (names : List String)
    (read : T → Except ReadError α) : Except ReadError α := do
  match ← fields.node? index names with
  | some t => read t
  | none => throw (.missingField (names.headD ""))

/-- A field that takes a default when it is not there. -/
def orElse (fields : RecordFields T) (index : Nat) (names : List String) (default : α)
    (read : T → Except ReadError α) : Except ReadError α := do
  match ← fields.node? index names with
  | some t => read t
  | none => return default

/-- A field that may be absent or null. -/
def optional (fields : RecordFields T) (index : Nat) (names : List String)
    (read : T → Except ReadError α) : Except ReadError (Option α) :=
  fields.orElse index names none (DataTree.optional read)

/-- A field that may be null, and absent only from a record with named fields. -/
def optionalNamed (fields : RecordFields T) (index : Nat) (names : List String)
    (read : T → Except ReadError α) : Except ReadError (Option α) :=
  match fields with
  | .named _ => fields.optional index names read
  | .ordered _ => fields.required index names (DataTree.optional read)

end RecordFields

instance : DataTree Json where
  isAbsent
    | .null => true
    | _ => false
  text? := Json.string?
  word?
    | .string s => some s
    | .object [(s, .null)] => some s
    | _ => none
  real? := Json.float?
  natural?
    | .int (.ofNat n) => some n
    | _ => none
  numberOrText?
    | .string s => some (.inr s)
    | v => v.float?.map .inl
  items?
    | .array items => some items
    | _ => none
  members?
    | .object members => some members
    | _ => none
  record?
    | .object members => some (.named members)
    | .array items => some (.ordered items)
    | _ => none

end Mosaic
