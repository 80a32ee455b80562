import Mosaic.Decimal.Basic
import Mosaic.Json.Print
import Mosaic.Json.Read

/-!
# Dataset identifiers

A dataset is known by 128 bits, written as 32 hexadecimal digits in groups of 8, 4, 4, 4 and 12 with
hyphens between them. Identifiers are also read without hyphens, in braces, or after `urn:uuid:`,
and in either case. They are ordered as numbers, which is the order of their texts.
-/

namespace Mosaic

/-- The identifier of a dataset. -/
structure DatasetId where
  bits : BitVec 128
  deriving DecidableEq, Repr

namespace DatasetId

instance : Ord DatasetId := ⟨fun a b => compare a.bits.toNat b.bits.toNat⟩

/-- The lengths of the groups of digits. -/
def groups : List Nat := [8, 4, 4, 4, 12]

/-- The number with the given hexadecimal digits. -/
def natOfHex? (cs : List Char) : Option Nat :=
  cs.foldlM (fun n c => (Json.hexValue? c).map (16 * n + ·)) 0

/-- The identifier of 32 digits. -/
def ofDigits? (cs : List Char) : Option DatasetId :=
  if cs.length = 32 then (natOfHex? cs).map fun n => ⟨BitVec.ofNat 128 n⟩ else none

/-- Groups of characters of the given lengths with hyphens between them, as one list. -/
def joinGroups? : List Nat → List Char → Option (List Char)
  | [], cs => if cs.isEmpty then some [] else none
  | [n], cs => if cs.length = n then some cs else none
  | n :: lengths, cs =>
    match cs.drop n with
    | '-' :: rest => (joinGroups? lengths rest).map (cs.take n ++ ·)
    | _ => none

/-- The identifier of 36 characters, hyphens included. -/
def ofHyphenated? (cs : List Char) : Option DatasetId := (joinGroups? groups cs).bind ofDigits?

/-- The characters between braces. -/
def inBraces? : List Char → Option (List Char)
  | '\x7b' :: cs => if cs.getLast? = some '\x7d' then some cs.dropLast else none
  | _ => none

/-- Reads an identifier in any of its forms. -/
def parse? (s : String) : Option DatasetId :=
  let cs := s.toList
  let urn := "urn:uuid:".toList
  if cs.length = 32 then ofDigits? cs
  else if (cs.take urn.length).map Char.toLower = urn then ofHyphenated? (cs.drop urn.length)
  else
    match inBraces? cs with
    | some inner => ofHyphenated? inner
    | none => ofHyphenated? cs

/-- The last `count` hexadecimal digits of a number. -/
def hexDigits : Nat → Nat → List Char
  | 0, _ => []
  | count + 1, n => hexDigits count (n / 16) ++ [Json.hexDigit (n % 16)]

/-- Cuts a list into groups with hyphens between them. -/
def splitGroups : List Nat → List Char → List Char
  | [], _ => []
  | [n], cs => cs.take n
  | n :: lengths, cs => cs.take n ++ '-' :: splitGroups lengths (cs.drop n)

def text (id : DatasetId) : String :=
  String.ofList (splitGroups groups (hexDigits 32 id.bits.toNat))

instance : ToString DatasetId := ⟨text⟩

end DatasetId

end Mosaic
