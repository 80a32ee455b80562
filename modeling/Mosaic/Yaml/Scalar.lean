import Mosaic.Json.Read
import Mosaic.Text.Blank
import Mosaic.Yaml.Cursor

/-!
# YAML scalars

Plain, quoted and block scalars. In plain and quoted scalars a line break counts as a blank, the
blanks round it go, and of several breaks all but the first stay (`Folding`). In block scalars the
indentation goes, and the folded style joins lines that are not indented further.
-/

namespace Mosaic.Yaml

/-- The text of a scalar as far as it has been read, last character first. -/
structure Folding where
  out : List Char := []
  /-- Blanks that count only when a character follows on the same line. -/
  gap : List Char := []
  /-- Line breaks since the last character. -/
  breaks : Nat := 0
  /-- Whether the line was continued by an escaped line break. -/
  joined : Bool := false

namespace Folding

/-- What the blanks and line breaks since the last character stand for, last first. -/
def pending (f : Folding) : List Char :=
  if f.joined then List.replicate f.breaks '\n'
  else if f.breaks = 0 then f.gap
  else if f.breaks = 1 then [' ']
  else List.replicate (f.breaks - 1) '\n'

/-- Takes blanks and line breaks up. -/
def flush (f : Folding) : Folding := { out := f.pending ++ f.out }

/-- Takes a character. -/
def push (f : Folding) (c : Char) : Folding := { out := c :: f.pending ++ f.out }

/-- Takes a blank. -/
def blank (f : Folding) (c : Char) : Folding :=
  if f.breaks = 0 && !f.joined then { f with gap := c :: f.gap } else f

/-- Takes a line break. -/
def lineBreak (f : Folding) : Folding := { f with gap := [], breaks := f.breaks + 1 }

/-- Takes an escaped line break. -/
def escapedBreak (f : Folding) : Folding := { f.flush with joined := true }

/-- Whether a line break has been met since the last character. -/
def atLineStart (f : Folding) : Bool := f.breaks != 0 || f.joined

/-- Whether blanks or line breaks have been met since the last character. -/
def isPending (f : Folding) : Bool := f.atLineStart || !f.gap.isEmpty

def text (f : Folding) : String := String.ofList f.out.reverse

end Folding

/-! ## Plain scalars -/

/-- Where a plain scalar stands. -/
structure PlainStyle where
  /-- Inside brackets. -/
  flow : Bool
  /-- On one line only. -/
  single : Bool
  /-- The least column of its further lines. -/
  least : Nat

/-- The indicators that end a plain scalar inside brackets. -/
def isFlowMark (c : Char) : Bool := [',', '[', ']', '\x7b', '\x7d'].contains c

/-- Whether a colon inside brackets stands in front of an indicator, which no scalar may hold. -/
def isLostColon : List Char → Bool
  | ':' :: c :: _ => isFlowMark c || c == '?'
  | _ => false

/-- Whether a plain scalar ends before the characters that are left. -/
def plainEnds (style : PlainStyle) (f : Folding) (column : Nat) (cs : List Char) : Bool :=
  match cs with
  | [] => true
  | c :: rest =>
    (f.isPending && c == '#') ||
      (f.breaks != 0 &&
        ((!style.flow && column < style.least) || (column == 0 && atDocumentMark cs))) ||
      (c == ':' && atGap rest) || (style.flow && isFlowMark c)

/-- The rest of a plain scalar. The cursor is the place after its last character so far. -/
def plainTail? (style : PlainStyle) (f : Folding) (last : Cursor) (line column : Nat) :
    List Char → Option (String × Cursor)
  | [] => some (f.text, last)
  | '\n' :: cs =>
    if style.single then some (f.text, last)
    else plainTail? style f.lineBreak last (line + 1) 0 cs
  | c :: cs =>
    if c == ' ' || c == '\t' then
      if c == '\t' && f.breaks != 0 && column < style.least then none
      else plainTail? style (f.blank c) last line (column + 1) cs
    else if plainEnds style f column (c :: cs) then some (f.text, last)
    else if style.flow && isLostColon (c :: cs) then none
    else plainTail? style (f.push c) ⟨line, column + 1, cs⟩ line (column + 1) cs

/-- The indicators with which no plain scalar begins. -/
def isIndicator (c : Char) : Bool := "-?:,[]\x7b\x7d#&*!|>'\"%@\x60".toList.contains c

/-- Whether a plain scalar begins here. -/
def startsPlain (flow : Bool) : List Char → Bool
  | [] => false
  | '-' :: rest => !(rest.head?.any fun c => c == ' ' || c == '\t')
  | c :: rest =>
    if c == '?' || c == ':' then !flow && !atGap rest
    else !isIndicator c && !atGap (c :: rest)

/-- A plain scalar. -/
def plain? (style : PlainStyle) (c : Cursor) : Option (String × Cursor) :=
  if startsPlain style.flow c.rest then plainTail? style {} c c.line c.column c.rest else none

/-! ## Quoted scalars -/

/-- The rest of a scalar in single quotes. -/
def singleTail? (f : Folding) (line column : Nat) : List Char → Option (String × Cursor)
  | [] => none
  | '\'' :: '\'' :: cs => singleTail? (f.push '\'') line (column + 2) cs
  | '\'' :: cs => some (f.flush.text, ⟨line, column + 1, cs⟩)
  | '\n' :: cs =>
    if atDocumentMark cs then none else singleTail? f.lineBreak (line + 1) 0 cs
  | c :: cs =>
    if c == ' ' || c == '\t' then singleTail? (f.blank c) line (column + 1) cs
    else singleTail? (f.push c) line (column + 1) cs

/-- The character that a letter after a backslash stands for. -/
def escapeOf? (c : Char) : Option Char :=
  match c with
  | '0' => some (Char.ofNat 0)
  | 'a' => some (Char.ofNat 7)
  | 'b' => some (Char.ofNat 8)
  | 't' | '\t' => some '\t'
  | 'n' => some '\n'
  | 'v' => some (Char.ofNat 11)
  | 'f' => some (Char.ofNat 12)
  | 'r' => some '\r'
  | 'e' => some (Char.ofNat 27)
  | ' ' | '"' | '/' | '\\' | '\'' => some c
  | 'N' => some (Char.ofNat 0x85)
  | '_' => some (Char.ofNat 0xA0)
  | 'L' => some (Char.ofNat 0x2028)
  | 'P' => some (Char.ofNat 0x2029)
  | _ => none

/-- How many digits follow a letter that introduces a code. -/
def codeLength? (c : Char) : Option Nat :=
  match c with
  | 'x' => some 2
  | 'u' => some 4
  | 'U' => some 8
  | _ => none

/-- The character with a code, if there is one. -/
def charOf? (code : Nat) : Option Char := if code.isValidChar then some (Char.ofNat code) else none

/-- What a scalar in double quotes waits for. -/
inductive Escape
  | none
  /-- What follows a backslash. -/
  | letter
  /-- Digits of a code, and its value so far. -/
  | digits (count code : Nat)

/-- The rest of a scalar in double quotes. -/
def doubleTail? : Escape → Folding → Nat → Nat → List Char → Option (String × Cursor)
  | _, _, _, _, [] => Option.none
  | .digits count code, f, line, column, c :: cs =>
    match Json.hexValue? c with
    | Option.none => Option.none
    | some d =>
      if count ≤ 1 then
        match charOf? (16 * code + d) with
        | some c => doubleTail? .none (f.push c) line (column + 1) cs
        | Option.none => Option.none
      else doubleTail? (.digits (count - 1) (16 * code + d)) f line (column + 1) cs
  | .letter, f, line, column, c :: cs =>
    if c == '\n' then
      if atDocumentMark cs then Option.none
      else doubleTail? .none f.escapedBreak (line + 1) 0 cs
    else
      match codeLength? c, escapeOf? c with
      | some count, _ => doubleTail? (.digits count 0) f line (column + 1) cs
      | Option.none, some c => doubleTail? .none (f.push c) line (column + 1) cs
      | Option.none, Option.none => Option.none
  | .none, f, line, column, c :: cs =>
    if c == '"' then some (f.flush.text, ⟨line, column + 1, cs⟩)
    else if c == '\\' then doubleTail? .letter f line (column + 1) cs
    else if c == '\n' then
      if atDocumentMark cs then Option.none
      else doubleTail? .none f.lineBreak (line + 1) 0 cs
    else if c == ' ' || c == '\t' then doubleTail? .none (f.blank c) line (column + 1) cs
    else doubleTail? .none (f.push c) line (column + 1) cs

/-- A quoted scalar. -/
def quoted? (c : Cursor) : Option (String × Cursor) :=
  match c.rest with
  | '\'' :: cs => singleTail? {} c.line (c.column + 1) cs
  | '"' :: cs => doubleTail? .none {} c.line (c.column + 1) cs
  | _ => none

/-! ## Block scalars -/

/-- What becomes of the line breaks at the end of a block scalar. -/
inductive Chomp
  | strip
  | clip
  | keep
  deriving DecidableEq

/-- The first line of a block scalar. -/
structure BlockHeader where
  folded : Bool
  chomp : Chomp := .clip
  /-- The indentation that the header asks for. -/
  indent : Option Nat := none

/-- The sign that says what becomes of the line breaks at the end. -/
def chompOf? : Char → Option Chomp
  | '-' => some .strip
  | '+' => some .keep
  | _ => none

/-- The digit that says how far the text is indented; zero is refused. -/
def indentDigit? (c : Char) : Option Nat :=
  if c.isDigit then some (c.toNat - '0'.toNat) else none

/-- Reads the signs of a header, each of which may come once and in either order. -/
def headerSigns (h : BlockHeader) (cs : List Char) : BlockHeader × List Char :=
  match cs with
  | [] => (h, [])
  | [c] =>
    match chompOf? c, indentDigit? c with
    | some chomp, _ => ({ h with chomp }, [])
    | none, some n => ({ h with indent := some n }, [])
    | none, none => (h, [c])
  | c :: d :: rest =>
    match chompOf? c, indentDigit? c, chompOf? d, indentDigit? d with
    | some chomp, _, _, some n => ({ h with chomp, indent := some n }, rest)
    | some chomp, _, _, none => ({ h with chomp }, d :: rest)
    | none, some n, some chomp, _ => ({ h with chomp, indent := some n }, rest)
    | none, some n, none, _ => ({ h with indent := some n }, d :: rest)
    | none, none, _, _ => (h, c :: d :: rest)

/-- The text after a line that may hold a comment and nothing else. -/
def afterLine? (cs : List Char) : Option (List Char) :=
  match cs.dropWhile fun c => c == ' ' || c == '\t' with
  | [] => some []
  | '\n' :: rest => some rest
  | '#' :: rest => some ((rest.dropWhile (· != '\n')).drop 1)
  | _ => none

/-- The number of blanks at the beginning of a line. -/
def indentOf (line : List Char) : Nat := (line.takeWhile (· == ' ')).length

/-- Whether a line holds nothing but blanks. -/
def isSpaces (line : List Char) : Bool := line.all (· == ' ')

/-- The indentation that the first line with text and the empty lines before it ask for. -/
def detectIndent : List (List Char) → Nat
  | [] => 0
  | line :: rest =>
    if isSpaces line then max line.length (detectIndent rest) else indentOf line

/-- The lines that belong to a block scalar, without their indentation, and the lines after it. The
piece after the last line break of a text is a line only when it holds text; a tab within the
indentation is refused. -/
def takeLines? (indent : Nat) : List (List Char) → Option (List (List Char) × List (List Char))
  | [] => some ([], [])
  | line :: rest =>
    if isSpaces line && decide (line.length ≤ indent) then
      if rest.isEmpty then some ([], [line])
      else (takeLines? indent rest).map fun (taken, left) => ([] :: taken, left)
    else if indent ≤ indentOf line then
      (takeLines? indent rest).map fun (taken, left) => (line.drop indent :: taken, left)
    else if (line.drop (indentOf line)).head? = some '\t' then none
    else some ([], line :: rest)

/-- Whether a line begins with a blank. -/
def isIndented : List Char → Bool
  | c :: _ => c == ' ' || c == '\t'
  | [] => false

/-- Joins the lines of a block scalar. `breaks` counts the line breaks since the last line with text,
and `indented` says whether that one was indented. Before the first line with text it is so taken. -/
def joinLines (folded indented : Bool) (breaks : Nat) : List (List Char) → List Char
  | [] => []
  | [] :: rest => joinLines folded indented (breaks + 1) rest
  | line :: rest =>
    let gap :=
      if folded && !indented && !isIndented line then
        if breaks = 1 then [' '] else List.replicate (breaks - 1) '\n'
      else List.replicate breaks '\n'
    gap ++ line ++ joinLines folded (isIndented line) 1 rest

/-- The line breaks at the end of a block scalar: `lead` ends the last line with text, and `trail`
lines without text follow. -/
def chompText (chomp : Chomp) (lead trail : Nat) : List Char :=
  match chomp with
  | .strip => []
  | .clip => List.replicate lead '\n'
  | .keep => List.replicate (lead + trail) '\n'

/-- The text of a block scalar with the given lines. -/
def blockText (h : BlockHeader) (lines : List (List Char)) (ended : Bool) : String :=
  let trail := (lines.reverse.takeWhile List.isEmpty).length
  let content := lines.take (lines.length - trail)
  let lead := if ended && !content.isEmpty then 1 else 0
  String.ofList (joinLines h.folded true 0 content ++ chompText h.chomp lead trail)

/-- A block scalar in a collection of the given indentation, if there is one round it. -/
def block? (parent : Option Nat) (c : Cursor) : Option (String × Cursor) := do
  let (folded, cs) ← match c.rest with
    | '|' :: cs => some (false, cs)
    | '>' :: cs => some (true, cs)
    | _ => none
  let (h, cs) := headerSigns { folded } cs
  if h.indent = some 0 then none
  let lines := Text.splitAtAll (· == '\n') (← afterLine? cs)
  let least := match parent with
    | some n => n + 1
    | none => 1
  let indent := match h.indent with
    | some n => least - 1 + n
    | none => max (detectIndent lines) least
  let (taken, left) ← takeLines? indent lines
  let value := blockText h taken (!left.isEmpty)
  return (value, ⟨c.line + 1 + taken.length, 0, (List.intersperse ['\n'] left).flatten⟩)

end Mosaic.Yaml
