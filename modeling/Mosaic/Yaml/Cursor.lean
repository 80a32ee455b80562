/-!
# Places in a YAML text

Where a token stands decides what it means, so a reader carries its line and its column along with
the characters that are left. Line breaks are line feeds once a text has been made ready, and the
characters that YAML does not allow are gone.
-/

namespace Mosaic.Yaml

/-- A place in a text. -/
structure Cursor where
  line : Nat
  column : Nat
  rest : List Char

/-- Whether a character may stand in a text. -/
def isAllowed (c : Char) : Bool :=
  let n := c.toNat
  n == 9 || n == 10 || n == 13 || (0x20 ≤ n && n ≤ 0x7E) || n == 0x85 ||
    (0xA0 ≤ n && n ≤ 0xD7FF) || (0xE000 ≤ n && n ≤ 0xFFFD && n != 0xFEFF) || 0x10000 ≤ n

/-- A text with one kind of line break. -/
def normalizeBreaks : List Char → List Char
  | '\r' :: '\n' :: cs => '\n' :: normalizeBreaks cs
  | '\r' :: cs => '\n' :: normalizeBreaks cs
  | c :: cs => (if c.toNat = 0x85 then '\n' else c) :: normalizeBreaks cs
  | [] => []

/-- The characters of a text without a byte order mark, if all of them are allowed. -/
def prepare? (s : String) : Option (List Char) :=
  let cs := match s.toList with
    | c :: cs => if c.toNat = 0xFEFF then cs else c :: cs
    | [] => []
  if cs.all isAllowed then some (normalizeBreaks cs) else none

/-- Whether a blank, the end of a line or the end of the text comes next. -/
def atGap : List Char → Bool
  | [] => true
  | c :: _ => c == ' ' || c == '\t' || c == '\n'

/-- Whether three characters of a kind and a gap come next: the mark of a document's beginning with
hyphens and of its end with points. -/
def hasMark (c : Char) : List Char → Bool
  | a :: b :: d :: rest => a == c && b == c && d == c && atGap rest
  | _ => false

/-- Whether a line begins with the mark of a document's beginning or end. -/
def atDocumentMark (cs : List Char) : Bool := hasMark '-' cs || hasMark '.' cs

/-- The place of the next token. Blanks, comments and line breaks are passed over; a tab only inside
a line or, when `tabs` says so, at its beginning. -/
def seekFrom (tabs : Bool) : Bool → Bool → Nat → Nat → List Char → Cursor
  | _, _, line, _, '\n' :: cs => seekFrom tabs false tabs (line + 1) 0 cs
  | true, inside, line, column, _ :: cs => seekFrom tabs true inside line (column + 1) cs
  | false, inside, line, column, ' ' :: cs => seekFrom tabs false inside line (column + 1) cs
  | false, true, line, column, '\t' :: cs => seekFrom tabs false true line (column + 1) cs
  | false, inside, line, column, '#' :: cs => seekFrom tabs true inside line (column + 1) cs
  | _, _, line, column, cs => ⟨line, column, cs⟩

namespace Cursor

/-- The next token of a block. -/
def seek (c : Cursor) : Cursor := seekFrom false false false c.line c.column c.rest

/-- The next token of a block after a token that lets tabs follow. -/
def seekInside (c : Cursor) : Cursor := seekFrom false false true c.line c.column c.rest

/-- The next token inside brackets. -/
def seekFlow (c : Cursor) : Cursor := seekFrom true false true c.line c.column c.rest

/-- The place `count` characters further on the same line. -/
def advance (c : Cursor) (count : Nat) : Cursor := ⟨c.line, c.column + count, c.rest.drop count⟩

/-- The place after the blanks of a line. -/
def skipBlanks (c : Cursor) : Cursor :=
  c.advance (c.rest.takeWhile fun d => d == ' ' || d == '\t').length

/-- Whether nothing is left of the document. -/
def atEnd (c : Cursor) : Bool := c.rest.isEmpty || (c.column == 0 && atDocumentMark c.rest)

/-- Whether a colon and a gap come next. -/
def atColon (c : Cursor) : Bool :=
  match c.rest with
  | ':' :: rest => atGap rest
  | _ => false

/-- Whether a hyphen and a gap come next. -/
def atDash (c : Cursor) : Bool :=
  match c.rest with
  | '-' :: rest => atGap rest
  | _ => false

end Cursor

end Mosaic.Yaml
