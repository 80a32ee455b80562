/-!
# Blank characters

Names and numbers that a person types may have blanks around them. A blank is any character with
the Unicode property White_Space, so a no-break space counts and a zero-width space does not.
`trim` takes the blanks off both ends of a text and leaves those inside it.
-/

namespace Mosaic.Text

/-- The characters with the Unicode property White_Space. -/
def isBlank (c : Char) : Bool :=
  let n := c.toNat
  (9 ≤ n && n ≤ 13) || n == 0x20 || n == 0x85 || n == 0xA0 || n == 0x1680 ||
    (0x2000 ≤ n && n ≤ 0x200A) || n == 0x2028 || n == 0x2029 || n == 0x202F || n == 0x205F ||
    n == 0x3000

/-- The characters without the blanks at their beginning. -/
def trimLeft (cs : List Char) : List Char := cs.dropWhile isBlank

/-- The characters without the blanks at their end. -/
def trimRight (cs : List Char) : List Char := (cs.reverse.dropWhile isBlank).reverse

/-- The text without the blanks at its beginning and at its end. -/
def trim (s : String) : String := String.ofList (trimRight (trimLeft s.toList))

/-- The pieces of a list between the elements that satisfy `p`; there is always at least one. -/
def splitAtAll {α : Type} (p : α → Bool) : List α → List (List α)
  | [] => [[]]
  | x :: xs =>
    if p x then [] :: splitAtAll p xs
    else
      match splitAtAll p xs with
      | [] => [[x]]
      | piece :: rest => (x :: piece) :: rest

/-- The fields of a text between commas, each without the blanks around it. -/
def commaFields (s : String) : List String :=
  (splitAtAll (· == ',') s.toList).map fun cs => trim (String.ofList cs)

/-- The text before the first `c` and the text after it; `none` when there is no `c`. -/
def splitFirst? (c : Char) (s : String) : Option (String × String) :=
  match s.toList.span (· != c) with
  | (_, []) => none
  | (before, _ :: after) => some (String.ofList before, String.ofList after)

/-- The rest of a text that begins with the given one. -/
def stripStart? (start s : String) : Option String :=
  if start.toList.isPrefixOf s.toList then some (String.ofList (s.toList.drop start.length)) else none

end Mosaic.Text
