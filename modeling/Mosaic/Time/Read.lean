import Mosaic.Decimal.Basic
import Mosaic.Error
import Mosaic.Text.Blank
import Mosaic.Time.Instant

/-!
# Reading instants

Three grammars. `strict?` is RFC 3339 with two-digit fields, a `T` or a blank in the middle and an
offset at the end. `lenientDateTime?` reads a date and a time without an offset, taken to be UTC, in
which a field may have one digit and blanks in front of it and a year may have a sign; the date may
also stand alone (`lenientDay?`). `relaxed?` is what catalog records are written in: the lenient
fields with an offset.
Second 60 is a leap second in all of them, and digits of a fraction beyond the ninth are dropped.
-/

namespace Mosaic.Instant

-- Powers of whole numbers are the built-in ones, whatever is imported with this module.
attribute [local instance (high)] instPowNat

open Text (trimLeft)

/-- A number of `least` to `most` digits, and what follows it. -/
private def digits? (least most : Nat) (cs : List Char) : Option (Nat × List Char) :=
  let ds := (cs.take most).takeWhile Decimal.isDigit
  if ds.length < least then none else some (Decimal.natOfDigits ds, cs.drop ds.length)

/-- What follows a character that has to be there. -/
private def expect? (c : Char) : List Char → Option (List Char)
  | d :: rest => if d = c then some rest else none
  | [] => none

/-- A fraction of a second after its point, in nanoseconds. -/
def fraction? (cs : List Char) : Option (Nat × List Char) :=
  let ds := cs.takeWhile Decimal.isDigit
  if ds.isEmpty then none
  else
    let kept := ds.take 9
    some (Decimal.natOfDigits kept * 10 ^ (9 - kept.length), cs.drop ds.length)

/-- A fraction with its point, if there is one. -/
def optionalFraction? : List Char → Option (Nat × List Char)
  | '.' :: rest => fraction? rest
  | cs => some (0, cs)

/-- The instant at which the clocks that are `offset` seconds ahead of UTC show a date and a time of
day. Second 60 is the leap second after 59. -/
def assemble? (date : CivilDate) (hour minute sec nanos : Nat) (offset : Int) :
    Option Instant :=
  if !date.isValid || 23 < hour || 59 < minute || 60 < sec then none
  else
    let t :=
      if sec = 60 then ofClock date.toDays hour minute 59 (1000000000 + nanos)
      else ofClock date.toDays hour minute sec nanos
    let utc : Instant := ⟨t.seconds - offset, t.nanos⟩
    if utc.inRange then some utc else none

/-- The sign of an offset: a plus, a hyphen or a minus sign. -/
private def offsetSign? : List Char → Option (Int × List Char)
  | '+' :: rest => some (1, rest)
  | '-' :: rest => some (-1, rest)
  | c :: rest => if c.toNat = 0x2212 then some (-1, rest) else none
  | [] => none

/-- An offset in seconds; `separator?` reads what stands between hours and minutes. -/
private def offset? (separator? : List Char → Option (List Char)) (cs : List Char) :
    Option (Int × List Char) :=
  match cs with
  | 'Z' :: rest | 'z' :: rest => some (0, rest)
  | cs => do
    let (sign, rest) ← offsetSign? cs
    let (hours, rest) ← digits? 2 2 rest
    let rest ← separator? rest
    let (minutes, rest) ← digits? 2 2 rest
    if 59 < minutes then none else some (sign * (hours * 3600 + minutes * 60), rest)

/-- What follows the mark between a date and a time. -/
private def dateTimeMark? : List Char → Option (List Char)
  | c :: rest => if c = 'T' || c = 't' || c = ' ' then some rest else none
  | [] => none

/-- The largest offset of RFC 3339, one minute less than a day. -/
private def largestOffset : Nat := 86340

/-- An RFC 3339 timestamp. -/
def strict? (cs : List Char) : Option Instant := do
  let (year, cs) ← digits? 4 4 cs
  let cs ← expect? '-' cs
  let (month, cs) ← digits? 2 2 cs
  let cs ← expect? '-' cs
  let (day, cs) ← digits? 2 2 cs
  let cs ← dateTimeMark? cs
  let (hour, cs) ← digits? 2 2 cs
  let cs ← expect? ':' cs
  let (minute, cs) ← digits? 2 2 cs
  let cs ← expect? ':' cs
  let (sec, cs) ← digits? 2 2 cs
  let (nanos, cs) ← optionalFraction? cs
  let (offset, cs) ← offset? (expect? ':') cs
  if !cs.isEmpty || largestOffset < offset.natAbs then none
  else assemble? ⟨year, month, day⟩ hour minute sec nanos offset

/-- A year: up to four digits, or a sign and any number of them. -/
private def year? (cs : List Char) : Option (Int × List Char) :=
  match trimLeft cs with
  | '-' :: rest => (digits? 1 rest.length rest).map fun (n, rest) => (-(n : Int), rest)
  | '+' :: rest => (digits? 1 rest.length rest).map fun (n, rest) => ((n : Int), rest)
  | cs => (digits? 1 4 cs).map fun (n, rest) => ((n : Int), rest)

/-- A field of one or two digits with blanks in front of it. -/
private def field? (cs : List Char) : Option (Nat × List Char) := digits? 1 2 (trimLeft cs)

/-- A date of lenient fields; `gap` is applied before each mark. -/
private def lenientDate? (gap : List Char → List Char) (cs : List Char) :
    Option (CivilDate × List Char) := do
  let (year, cs) ← year? cs
  let cs ← expect? '-' (gap cs)
  let (month, cs) ← field? cs
  let cs ← expect? '-' (gap cs)
  let (day, cs) ← field? cs
  return (⟨year, month, day⟩, cs)

/-- A time of day of lenient fields; `gap` is applied before each mark. -/
private def lenientClock? (gap : List Char → List Char) (cs : List Char) :
    Option ((Nat × Nat × Nat) × List Char) := do
  let (hour, cs) ← field? cs
  let cs ← expect? ':' (gap cs)
  let (minute, cs) ← field? cs
  let cs ← expect? ':' (gap cs)
  let (sec, cs) ← field? cs
  return ((hour, minute, sec), cs)

/-- A date, a `T`, a time of day and possibly a fraction. -/
def lenientWithT? (cs : List Char) : Option Instant := do
  let (date, cs) ← lenientDate? id cs
  let cs ← expect? 'T' cs
  let ((hour, minute, sec), cs) ← lenientClock? id cs
  let (nanos, cs) ← optionalFraction? cs
  if cs.isEmpty then assemble? date hour minute sec nanos 0 else none

/-- A date and a time of day, with or without blanks between them. -/
def lenientWithBlank? (cs : List Char) : Option Instant := do
  let (date, cs) ← lenientDate? id cs
  let ((hour, minute, sec), cs) ← lenientClock? id (trimLeft cs)
  if cs.isEmpty then assemble? date hour minute sec 0 0 else none

/-- A date with a time of day, without an offset. -/
def lenientDateTime? (cs : List Char) : Option Instant :=
  (lenientWithT? cs).orElse fun _ => lenientWithBlank? cs

/-- A date alone, meaning its midnight. -/
def lenientDay? (cs : List Char) : Option Instant := do
  let (date, cs) ← lenientDate? id cs
  if cs.isEmpty then assemble? date 0 0 0 0 0 else none

/-- What follows colons and blanks. -/
private def colonsAndBlanks (cs : List Char) : List Char :=
  cs.dropWhile fun c => c = ':' || Text.isBlank c

/-- The offset of a relaxed timestamp, which may be the word `UTC`. -/
private def relaxedOffset? (cs : List Char) : Option (Int × List Char) :=
  if (cs.take 3).map Char.toUpper = ['U', 'T', 'C'] then some (0, cs.drop 3)
  else offset? (fun cs => some (colonsAndBlanks cs)) cs

/-- A timestamp of a catalog record. -/
def relaxed? (cs : List Char) : Option Instant := do
  let (date, cs) ← lenientDate? trimLeft cs
  let cs ← dateTimeMark? cs
  let ((hour, minute, sec), cs) ← lenientClock? trimLeft cs
  let (nanos, cs) ← optionalFraction? cs
  let (offset, cs) ← relaxedOffset? (trimLeft cs)
  if !(trimLeft cs).isEmpty || largestOffset < offset.natAbs then none
  else assemble? date hour minute sec nanos offset

/-- Reads a time as requests and dataset documents write it. -/
def parse? (s : String) : Option Instant :=
  let cs := s.toList
  ((strict? cs).orElse fun _ => lenientDateTime? cs).orElse fun _ => lenientDay? cs

/-- Reads a time with blanks around it, or fails with an error that quotes it without them. -/
def parse (s : String) : Except RequestError Instant :=
  let trimmed := Text.trim s
  match parse? trimmed with
  | some t => .ok t
  | none => .error (.invalidTime trimmed)

end Mosaic.Instant
