/-!
# Sorted maps

A map as a list of entries in strictly ascending order of their keys. Two maps with the same entries
are the same list, whatever the order in which the entries were put in, so maps can be compared and
their entries are listed in one order only.

`alter` is the one operation that changes a map; `insert`, `erase` and `push` are made of it.
-/

namespace Mosaic

/-- The entries of a map, in ascending order of their keys. -/
structure SortedMap (α β : Type) where
  entries : List (α × β)
  deriving DecidableEq, Repr

namespace SortedMap

variable {α β : Type} [Ord α]

/-- Changes what a list of entries holds for a key. -/
def alterEntries (key : α) (change : Option β → Option β) : List (α × β) → List (α × β)
  | [] =>
    match change none with
    | some b => [(key, b)]
    | none => []
  | (k, b) :: rest =>
    match compare key k with
    | .lt =>
      match change none with
      | some c => (key, c) :: (k, b) :: rest
      | none => (k, b) :: rest
    | .eq =>
      match change (some b) with
      | some c => (k, c) :: rest
      | none => rest
    | .gt => (k, b) :: alterEntries key change rest

/-- What a list of entries holds for a key. -/
def findEntry? (key : α) : List (α × β) → Option β
  | [] => none
  | (k, b) :: rest => if compare key k = .eq then some b else findEntry? key rest

omit [Ord α] in
def empty : SortedMap α β := ⟨[]⟩

instance : EmptyCollection (SortedMap α β) := ⟨empty⟩

instance : Inhabited (SortedMap α β) := ⟨empty⟩

omit [Ord α] in
def isEmpty (m : SortedMap α β) : Bool := m.entries.isEmpty

omit [Ord α] in
def size (m : SortedMap α β) : Nat := m.entries.length

omit [Ord α] in
/-- The keys in ascending order. -/
def keys (m : SortedMap α β) : List α := m.entries.map Prod.fst

omit [Ord α] in
/-- The values in ascending order of their keys. -/
def values (m : SortedMap α β) : List β := m.entries.map Prod.snd

/-- The value of a key. -/
def find? (m : SortedMap α β) (key : α) : Option β := findEntry? key m.entries

/-- Changes what the map holds for a key. -/
def alter (m : SortedMap α β) (key : α) (change : Option β → Option β) : SortedMap α β :=
  ⟨alterEntries key change m.entries⟩

/-- Puts a value in, in place of one with the same key. -/
def insert (m : SortedMap α β) (key : α) (value : β) : SortedMap α β :=
  m.alter key fun _ => some value

/-- Takes the value of a key out. -/
def erase (m : SortedMap α β) (key : α) : SortedMap α β := m.alter key fun _ => none

/-- Puts a value at the end of the list that a key has. -/
def push (m : SortedMap α (List β)) (key : α) (value : β) : SortedMap α (List β) :=
  m.alter key fun values => some (values.getD [] ++ [value])

/-- The map of a list of entries; of two with one key the last counts. -/
def ofList (entries : List (α × β)) : SortedMap α β :=
  entries.foldl (fun m e => m.insert e.1 e.2) ∅

omit [Ord α] in
/-- The same keys with other values. -/
def mapValues {γ : Type} (f : β → γ) (m : SortedMap α β) : SortedMap α γ :=
  ⟨m.entries.map fun e => (e.1, f e.2)⟩

end SortedMap

end Mosaic
