import Mosaic.Decimal.Layout
import Mosaic.Json.Basic

/-!
# Writing JSON

Compact text and text indented by two spaces. Members are written in the order they have;
`sortKeys` brings them into the ascending order of their keys first. Control characters, quotes and
backslashes are escaped, and all other characters are written as they are.
-/

namespace Mosaic.Json

/-- The digit of a number below sixteen. -/
def hexDigit (n : Nat) : Char :=
  if n < 10 then Char.ofNat ('0'.toNat + n) else Char.ofNat ('a'.toNat + n - 10)

/-- A character as it stands inside quotes. -/
def escapeChar (c : Char) : List Char :=
  if c = '"' then ['\\', '"']
  else if c = '\\' then ['\\', '\\']
  else if c = '\n' then ['\\', 'n']
  else if c = '\r' then ['\\', 'r']
  else if c = '\t' then ['\\', 't']
  else if c.toNat = 8 then ['\\', 'b']
  else if c.toNat = 12 then ['\\', 'f']
  else if c.toNat < 32 then
    ['\\', 'u', '0', '0', hexDigit (c.toNat / 16), hexDigit (c.toNat % 16)]
  else [c]

/-- A text in quotes. -/
def quoted (s : String) : String :=
  "\"" ++ String.ofList (s.toList.flatMap escapeChar) ++ "\""

/-- A double as documents write it. -/
def floatText (x : Float) : String :=
  match Decimal.ofFloat? x with
  | some d => d.general (-5)
  | none => "null"

/-- A single as documents write it. -/
def float32Text (x : Float32) : String :=
  match Decimal.ofFloat32? x with
  | some d => d.general (-5)
  | none => "null"

mutual

/-- Compact text: no blanks outside strings. -/
def compact : Json → String
  | null => "null"
  | bool b => if b then "true" else "false"
  | int n => toString n
  | double x => floatText x
  | single x => float32Text x
  | string s => quoted s
  | array items => "[" ++ ",".intercalate (compactItems items) ++ "]"
  | object members => "\x7b" ++ ",".intercalate (compactMembers members) ++ "\x7d"

/-- The compact texts of a list of values. -/
def compactItems : List Json → List String
  | [] => []
  | item :: rest => compact item :: compactItems rest

/-- The compact texts of a list of members. -/
def compactMembers : List (String × Json) → List String
  | [] => []
  | (key, value) :: rest => (quoted key ++ ":" ++ compact value) :: compactMembers rest

end

/-- A new line and the indentation of a level. -/
private def newLine (level : Nat) : String := "\n" ++ String.ofList (List.replicate (2 * level) ' ')

mutual

/-- Text with one value a line, indented by two spaces a level; empty lists and objects stay on the
line. -/
def pretty (level : Nat) : Json → String
  | array [] => "[]"
  | array (item :: items) =>
    "[" ++ ",".intercalate (prettyItems (level + 1) (item :: items)) ++ newLine level ++ "]"
  | object [] => "\x7b\x7d"
  | object (member :: members) =>
    "\x7b" ++ ",".intercalate (prettyMembers (level + 1) (member :: members)) ++ newLine level ++
      "\x7d"
  | null => "null"
  | bool b => if b then "true" else "false"
  | int n => toString n
  | double x => floatText x
  | single x => float32Text x
  | string s => quoted s

/-- The indented texts of a list of values. -/
def prettyItems (level : Nat) : List Json → List String
  | [] => []
  | item :: rest => (newLine level ++ pretty level item) :: prettyItems level rest

/-- The indented texts of a list of members. -/
def prettyMembers (level : Nat) : List (String × Json) → List String
  | [] => []
  | (key, value) :: rest =>
    (newLine level ++ quoted key ++ ": " ++ pretty level value) :: prettyMembers level rest

end

mutual

/-- The value with the members of every object in ascending order of their keys. -/
def sortKeys : Json → Json
  | array items => array (sortKeysItems items)
  | object members => object ((sortKeysMembers members).mergeSort fun a b => a.1 ≤ b.1)
  | v => v

/-- `sortKeys` on every value of a list. -/
def sortKeysItems : List Json → List Json
  | [] => []
  | item :: rest => sortKeys item :: sortKeysItems rest

/-- `sortKeys` on every member's value. -/
def sortKeysMembers : List (String × Json) → List (String × Json)
  | [] => []
  | (key, value) :: rest => (key, sortKeys value) :: sortKeysMembers rest

end

end Mosaic.Json
