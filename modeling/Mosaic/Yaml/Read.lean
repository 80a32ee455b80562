import Mosaic.Yaml.Node
import Mosaic.Yaml.Scalar

/-!
# Reading YAML

Reads a text that holds one document: scalars of all styles, block and flow collections, comments
and document marks. Anchors, tags, directives and explicit keys are refused, as is everything that
does not fit its indentation.

A block collection begins only where a token may begin a line of its own: at the beginning of a line
or after the hyphen of an item, and not behind a key. A key stands on one line with its colon. The
value of a key lies further right than the key; only the hyphens of a sequence may stand below the
key itself.

Readers of nodes recurse on a bound on the number of steps, which `parse?` takes from the length of
the text.
-/

namespace Mosaic.Yaml

/-- The node of a place where nothing is written. -/
def absent : Yaml := scalar "" true

/-- A scalar in quotes, with the place after it. -/
def quotedNode? (c : Cursor) : Option (Yaml × Cursor) :=
  (quoted? c).map fun (s, after) => (scalar s false, after)

/-- A plain scalar, with the place after it. -/
def plainNode? (style : PlainStyle) (c : Cursor) : Option (Yaml × Cursor) :=
  (plain? style c).map fun (s, after) => (scalar s true, after)

/-! ## Flow collections -/

mutual

/-- A node inside brackets. -/
private def flowNode? : Nat → Cursor → Option (Yaml × Cursor)
  | 0, _ => none
  | steps + 1, c =>
    if c.atEnd then none
    else
      match c.rest with
      | '[' :: _ => flowItems? steps [] (c.advance 1)
      | '\x7b' :: _ => flowEntries? steps [] (c.advance 1)
      | '"' :: _ | '\'' :: _ => quotedNode? c
      | _ => plainNode? ⟨true, false, 0⟩ c

/-- The value after a colon inside brackets. -/
private def flowValue? : Nat → Cursor → Option (Yaml × Cursor)
  | 0, _ => none
  | steps + 1, c =>
    let v := c.seekFlow
    match v.rest with
    | ',' :: _ | ']' :: _ | '\x7d' :: _ => some (absent, v)
    | _ => flowNode? steps v

/-- The items of a sequence in brackets. An item may be one entry of a mapping. -/
private def flowItems? : Nat → List Yaml → Cursor → Option (Yaml × Cursor)
  | 0, _, _ => none
  | steps + 1, acc, c =>
    let start := c.seekFlow
    match start.rest with
    | ']' :: _ => some (sequence acc.reverse, start.advance 1)
    | _ => do
      let (node, after) ← flowNode? steps start
      let next := after.seekFlow
      let (item, next) ← match next.rest with
        | ':' :: _ =>
          if next.line ≠ start.line then none
          else
            (flowValue? steps (next.advance 1)).map fun (value, after) =>
              (mapping [(node, value)], after.seekFlow)
        | _ => some (node, next)
      match next.rest with
      | ',' :: _ => flowItems? steps (item :: acc) (next.advance 1)
      | ']' :: _ => some (sequence (item :: acc).reverse, next.advance 1)
      | _ => none

/-- The entries of a mapping in braces. An entry may be a key alone. -/
private def flowEntries? : Nat → List (Yaml × Yaml) → Cursor → Option (Yaml × Cursor)
  | 0, _, _ => none
  | steps + 1, acc, c =>
    let start := c.seekFlow
    match start.rest with
    | '\x7d' :: _ => some (mapping acc.reverse, start.advance 1)
    | _ => do
      let (key, after) ← flowNode? steps start
      let next := after.seekFlow
      let (value, next) ← match next.rest with
        | ':' :: _ =>
          if next.line ≠ start.line then none
          else (flowValue? steps (next.advance 1)).map fun (value, after) => (value, after.seekFlow)
        | _ => some (absent, next)
      match next.rest with
      | ',' :: _ => flowEntries? steps ((key, value) :: acc) (next.advance 1)
      | '\x7d' :: _ => some (mapping ((key, value) :: acc).reverse, next.advance 1)
      | _ => none

end

/-! ## Block collections -/

/-- A node that may be a key: a scalar on one line or a collection in brackets. -/
def keyNode? (steps : Nat) (c : Cursor) : Option (Yaml × Cursor) :=
  match c.rest with
  | '[' :: _ | '\x7b' :: _ => flowNode? steps c
  | '"' :: _ | '\'' :: _ => quotedNode? c
  | _ => plainNode? ⟨false, true, 0⟩ c

/-- A key, with the place after its colon. -/
def key? (steps : Nat) (c : Cursor) : Option (Yaml × Cursor) := do
  let (node, after) ← keyNode? steps c
  let next := after.skipBlanks
  if next.line = c.line && next.atColon then some (node, next.advance 1) else none

/-- The least column of the further lines of a plain scalar. -/
def leastColumn : Option Nat → Nat
  | some n => n + 1
  | none => 0

/-- A node that is not a block collection. -/
def inlineNode? (steps : Nat) (parent : Option Nat) (c : Cursor) : Option (Yaml × Cursor) :=
  match c.rest with
  | '|' :: _ | '>' :: _ => (block? parent c).map fun (s, after) => (scalar s false, after)
  | '[' :: _ | '\x7b' :: _ => flowNode? steps c
  | '"' :: _ | '\'' :: _ => quotedNode? c
  | _ => plainNode? ⟨false, false, leastColumn parent⟩ c

mutual

/-- A node of a block in a collection of the given indentation, if there is one round it. A block
collection may begin only if `collections` says so. -/
private def blockNode? : Nat → Option Nat → Bool → Cursor → Option (Yaml × Cursor)
  | 0, _, _, _ => none
  | steps + 1, parent, collections, c =>
    if c.atDash then if collections then blockItems? steps c.column [] c else none
    else
      match key? steps c with
      | some _ =>
        if collections then blockEntries? steps c.column [] c else inlineNode? steps parent c
      | none => inlineNode? steps parent c

/-- The value after the colon of a key at a column. -/
private def blockValue? : Nat → Nat → Cursor → Option (Yaml × Cursor)
  | 0, _, _ => none
  | steps + 1, column, c =>
    let v := c.seekInside
    if v.atEnd then some (absent, v)
    else if v.line = c.line then blockNode? steps (some column) false v
    else if column < v.column then blockNode? steps (some column) true v
    else if v.column = column && v.atDash then blockItems? steps column [] v
    else some (absent, v)

/-- The entries of a mapping whose keys stand at a column. -/
private def blockEntries? : Nat → Nat → List (Yaml × Yaml) → Cursor → Option (Yaml × Cursor)
  | 0, _, _, _ => none
  | steps + 1, column, acc, c => do
    let (key, after) ← key? steps c
    let (value, after) ← blockValue? steps column after
    let next := after.seekInside
    if !next.atEnd && next.column = column then
      blockEntries? steps column ((key, value) :: acc) next
    else some (mapping ((key, value) :: acc).reverse, next)

/-- The items of a sequence whose hyphens stand at a column. -/
private def blockItems? : Nat → Nat → List Yaml → Cursor → Option (Yaml × Cursor)
  | 0, _, _, _ => none
  | steps + 1, column, acc, c => do
    let v := (c.advance 1).seek
    let (item, after) ←
      if !v.atEnd && column < v.column then blockNode? steps (some column) true v
      else some (absent, v)
    let next := after.seekInside
    if !next.atEnd && next.column = column && next.atDash then
      blockItems? steps column (item :: acc) next
    else some (sequence (item :: acc).reverse, next)

end

/-! ## Documents -/

/-- Whether nothing is left after a document but the mark of its end. -/
def endsStream (c : Cursor) : Bool :=
  let next := c.seekInside
  if next.column == 0 && hasMark '.' next.rest then
    let after := (next.advance 3).skipBlanks
    let isLineEnd := match after.rest with
      | [] => true
      | d :: _ => d == '\n' || d == '#'
    isLineEnd && after.seekInside.rest.isEmpty
  else next.rest.isEmpty

/-- The document that a text holds. A text without one stands for the absent value. -/
def parse? (s : String) : Option Yaml := do
  let cs ← prepare? s
  let steps := 4 * cs.length + 16
  let start := (Cursor.mk 0 0 cs).seek
  if start.column = 0 ∧ hasMark '-' start.rest then
    let c := start.advance 3
    let v := c.seekInside
    let (node, after) ←
      if v.atEnd then some (absent, v) else blockNode? steps none (v.line ≠ start.line) v
    if endsStream after then some node else none
  else if start.atEnd then if endsStream start then some absent else none
  else if start.rest.head? = some '%' then none
  else
    let (node, after) ← blockNode? steps none true start
    if endsStream after then some node else none

end Mosaic.Yaml
