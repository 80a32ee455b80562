import Mosaic.Decimal.Basic
import Mosaic.Json.Basic

/-!
# Reading JSON

The grammar of RFC 8259. A number without point and exponent that fits 64 bits, signed or unsigned,
stays whole; `-0` and all other numbers become doubles, and a number too large for a double is
refused. Strings hold no raw control characters, and an escaped surrogate counts only as one half
of a pair. Nesting deeper than 127 levels is refused. Of two values for one key the last counts.

Every reader takes the characters that are left and gives back the value and the characters after
it. The readers of nested values recurse on a bound on the number of steps; `parse?` starts with
more steps than a text has characters to use them up.
-/

namespace Mosaic.Json

-- Powers of whole numbers are the built-in ones, whatever is imported with this module.
attribute [local instance (high)] instPowNat

/-- The blanks that may stand between tokens. -/
def isSpace (c : Char) : Bool := c == ' ' || c == '\n' || c == '\t' || c == '\r'

/-- The characters from the next token on. -/
def skipSpace (cs : List Char) : List Char := cs.dropWhile isSpace

/-- The value of a hexadecimal digit. -/
def hexValue? (c : Char) : Option Nat :=
  if '0' ≤ c && c ≤ '9' then some (c.toNat - '0'.toNat)
  else if 'a' ≤ c && c ≤ 'f' then some (c.toNat - 'a'.toNat + 10)
  else if 'A' ≤ c && c ≤ 'F' then some (c.toNat - 'A'.toNat + 10)
  else none

/-- Four hexadecimal digits. -/
def hex4? : List Char → Option (Nat × List Char)
  | a :: b :: c :: d :: rest => do
    let a ← hexValue? a
    let b ← hexValue? b
    let c ← hexValue? c
    let d ← hexValue? d
    return (((a * 16 + b) * 16 + c) * 16 + d, rest)
  | _ => none

/-- The character named by `\u` and the digits that follow, which for a character outside the basic
plane are two halves. -/
def unicodeEscape? (cs : List Char) : Option (Char × List Char) := do
  let (n, rest) ← hex4? cs
  if 0xDC00 ≤ n && n ≤ 0xDFFF then none
  else if 0xD800 ≤ n && n ≤ 0xDBFF then
    match rest with
    | '\\' :: 'u' :: rest =>
      let (low, rest) ← hex4? rest
      if 0xDC00 ≤ low && low ≤ 0xDFFF then
        some (Char.ofNat (0x10000 + (n - 0xD800) * 0x400 + (low - 0xDC00)), rest)
      else none
    | _ => none
  else some (Char.ofNat n, rest)

/-- The rest of a string after its opening quote; `acc` holds the characters so far, last first. -/
def stringTail? : Nat → List Char → List Char → Option (String × List Char)
  | 0, _, _ => none
  | steps + 1, acc, cs =>
    match cs with
    | [] => none
    | '"' :: rest => some (String.ofList acc.reverse, rest)
    | '\\' :: 'u' :: rest =>
      match unicodeEscape? rest with
      | some (c, rest) => stringTail? steps (c :: acc) rest
      | none => none
    | '\\' :: c :: rest =>
      match c with
      | '"' | '\\' | '/' => stringTail? steps (c :: acc) rest
      | 'b' => stringTail? steps (Char.ofNat 8 :: acc) rest
      | 'f' => stringTail? steps (Char.ofNat 12 :: acc) rest
      | 'n' => stringTail? steps ('\n' :: acc) rest
      | 'r' => stringTail? steps ('\r' :: acc) rest
      | 't' => stringTail? steps ('\t' :: acc) rest
      | _ => none
    | c :: rest => if c.toNat < 32 then none else stringTail? steps (c :: acc) rest

/-- A whole number that fits 64 bits, else the nearest double. -/
def ofIntegerLiteral (negative : Bool) (n : Nat) : Json :=
  if !negative && n < 2 ^ (64 : Nat) then int n
  else if negative && n ≠ 0 && n ≤ 2 ^ (63 : Nat) then int (-n)
  else double (Decimal.toFloat ⟨negative, n, 0⟩)

/-- The characters of a number at the beginning of a text: whether it is negative, its whole digits,
and what follows them. A leading zero stands alone. -/
def wholeDigits? (cs : List Char) : Option (Bool × List Char × List Char) :=
  let (negative, cs) := match cs with
    | '-' :: cs => (true, cs)
    | cs => (false, cs)
  let ds := cs.takeWhile Decimal.isDigit
  let rest := cs.dropWhile Decimal.isDigit
  match ds with
  | [] => none
  | ['0'] => some (negative, ds, rest)
  | '0' :: _ => none
  | _ => some (negative, ds, rest)

/-- A number. -/
def number? (cs : List Char) : Option (Json × List Char) := do
  let (negative, ds, rest) ← wholeDigits? cs
  let (fraction, rest, pointed) ← match rest with
    | '.' :: rest =>
      let fs := rest.takeWhile Decimal.isDigit
      if fs.isEmpty then none else some (fs, rest.dropWhile Decimal.isDigit, true)
    | rest => some ([], rest, false)
  let (shift, rest, scaled) ← match rest with
    | c :: after =>
      if c == 'e' || c == 'E' then
        let (down, after) := Decimal.splitSign after
        let es := after.takeWhile Decimal.isDigit
        if es.isEmpty then none
        else
          let e : Int := Decimal.natOfDigits es
          some (if down then -e else e, after.dropWhile Decimal.isDigit, true)
      else some (0, rest, false)
    | [] => some (0, [], false)
  if !pointed && !scaled then
    match ofIntegerLiteral negative (Decimal.natOfDigits ds) with
    | double x => if x.isFinite then some (double x, rest) else none
    | v => some (v, rest)
  else
    let x := Decimal.toFloat ⟨negative, Decimal.natOfDigits (ds ++ fraction), shift - fraction.length⟩
    if x.isFinite then some (double x, rest) else none

mutual

/-- A value and the characters after it; `depth` is the number of levels that may still open. -/
def value? : Nat → Nat → List Char → Option (Json × List Char)
  | 0, _, _ => none
  | steps + 1, depth, cs =>
    match skipSpace cs with
    | 'n' :: 'u' :: 'l' :: 'l' :: rest => some (null, rest)
    | 't' :: 'r' :: 'u' :: 'e' :: rest => some (bool true, rest)
    | 'f' :: 'a' :: 'l' :: 's' :: 'e' :: rest => some (bool false, rest)
    | '"' :: rest => (stringTail? (rest.length + 1) [] rest).map fun (s, rest) => (string s, rest)
    | '[' :: rest =>
      match depth with
      | 0 => none
      | depth + 1 =>
        match skipSpace rest with
        | ']' :: rest => some (array [], rest)
        | rest => (items? steps depth [] rest).map fun (vs, rest) => (array vs, rest)
    | '\x7b' :: rest =>
      match depth with
      | 0 => none
      | depth + 1 =>
        match skipSpace rest with
        | '\x7d' :: rest => some (object [], rest)
        | rest => (members? steps depth [] rest).map fun (ms, rest) => (object ms, rest)
    | rest => number? rest

/-- The items of an array that is not empty, and the characters after its bracket. -/
def items? : Nat → Nat → List Json → List Char → Option (List Json × List Char)
  | 0, _, _, _ => none
  | steps + 1, depth, acc, cs =>
    match value? steps depth cs with
    | none => none
    | some (v, rest) =>
      match skipSpace rest with
      | ',' :: rest => items? steps depth (v :: acc) rest
      | ']' :: rest => some ((v :: acc).reverse, rest)
      | _ => none

/-- The members of an object that is not empty, and the characters after its brace. -/
def members? : Nat → Nat → List (String × Json) → List Char →
    Option (List (String × Json) × List Char)
  | 0, _, _, _ => none
  | steps + 1, depth, acc, cs =>
    match skipSpace cs with
    | '"' :: rest =>
      match stringTail? (rest.length + 1) [] rest with
      | none => none
      | some (key, rest) =>
        match skipSpace rest with
        | ':' :: rest =>
          match value? steps depth rest with
          | none => none
          | some (v, rest) =>
            match skipSpace rest with
            | ',' :: rest => members? steps depth (setMember key v acc) rest
            | '\x7d' :: rest => some (setMember key v acc, rest)
            | _ => none
        | _ => none
    | _ => none

end

/-- A value at the beginning of a text, and the characters after it. -/
def readValue? (cs : List Char) : Option (Json × List Char) := value? (2 * cs.length + 2) 127 cs

/-- The value that a whole text holds. -/
def parse? (s : String) : Option Json :=
  match readValue? s.toList with
  | some (v, rest) => if (skipSpace rest).isEmpty then some v else none
  | none => none

end Mosaic.Json
