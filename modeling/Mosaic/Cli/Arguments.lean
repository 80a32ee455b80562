import Mosaic.SortedMap
import Mosaic.Text.Blank

/-!
# Command line arguments

What the words of a command line mean, given the options that there are. An option goes by a long
name after two hyphens or by a letter after one; its value follows as the next word or is attached,
`--name=value`, `-xvalue` or `-x=value`. Letters of options without a value may share a word. Two
hyphens alone end the options, and what is neither an option nor a value is a plain word.

A value that stands by itself counts only when the next option or plain word comes, or the end. So an
unknown option is reported before a value that is refused in front of it. A value may begin with a
hyphen only where the option says so.
-/

namespace Mosaic.Cli

/-- An option of a command. -/
structure OptionSpec where
  /-- The long name, without its hyphens. -/
  name : String
  letter : Option Char := none
  takesValue : Bool := true
  /-- Whether a value that stands by itself may begin with a hyphen. -/
  allowsHyphen : Bool := false
  /-- Whether the option may be given again; each of its values is then a list with commas. -/
  repeats : Bool := false
  accepts : String → Bool := fun _ => true

/-- What is wrong with a command line. -/
inductive UsageError
  /-- Help was asked for. -/
  | helpRequested
  | unknownArgument (word : String)
  | missingValue (option : String)
  /-- A value is attached to an option that takes none. -/
  | unwantedValue (option : String)
  | refusedValue (option value : String)
  | repeatedOption (option : String)
  | missingArgument (name : String)
  | missingCommand
  | unknownCommand (word : String)
  deriving DecidableEq, Repr

namespace UsageError

def message : UsageError → String
  | helpRequested => "help was asked for"
  | unknownArgument word => s!"unexpected argument '{word}' found"
  | missingValue option => s!"a value is required for '--{option}'"
  | unwantedValue option => s!"no value is taken by '--{option}'"
  | refusedValue option value => s!"invalid value '{value}' for '--{option}'"
  | repeatedOption option => s!"the argument '--{option}' cannot be used multiple times"
  | missingArgument name => s!"the required argument <{name}> was not provided"
  | missingCommand => "a command is required"
  | unknownCommand word => s!"unrecognized command '{word}'"

end UsageError

/-- What may stand in a command line. -/
structure ArgumentGrammar where
  options : List OptionSpec
  /-- The names of the plain words, all of which are required. -/
  words : List String := []
  /-- The words that end the arguments because those of another grammar follow. -/
  commands : List String := []

namespace ArgumentGrammar

def optionNamed? (g : ArgumentGrammar) (name : String) : Option OptionSpec :=
  g.options.find? (·.name == name)

def optionLettered? (g : ArgumentGrammar) (letter : Char) : Option OptionSpec :=
  g.options.find? (·.letter == some letter)

end ArgumentGrammar

/-- The arguments read so far. -/
structure Arguments where
  /-- The values of the options that were given. -/
  given : SortedMap String (List String) := ∅
  words : List String := []
  /-- The option whose value is awaited, or has come and does not count yet. -/
  pending : Option (OptionSpec × Option String) := none
  /-- Whether all options are past. -/
  isPastOptions : Bool := false

namespace Arguments

/-- The value of an option. -/
def value? (a : Arguments) (name : String) : Option String := (a.given.find? name).bind List.head?

/-- All values of an option. -/
def values? (a : Arguments) (name : String) : Option (List String) := a.given.find? name

/-- Whether an option was given. -/
def has (a : Arguments) (name : String) : Bool := (a.given.find? name).isSome

/-- The items of a list with commas. -/
def itemsOf (value : String) : List String :=
  (Text.splitAtAll (· == ',') value.toList).map String.ofList

/-- Counts a value of an option. -/
def giveValue (a : Arguments) (spec : OptionSpec) (value : String) : Except UsageError Arguments :=
  if spec.repeats then
    let items := (a.given.find? spec.name).getD [] ++ itemsOf value
    .ok { a with given := a.given.insert spec.name items }
  else if a.has spec.name then .error (.repeatedOption spec.name)
  else if spec.accepts value then .ok { a with given := a.given.insert spec.name [value] }
  else .error (.refusedValue spec.name value)

/-- Counts the value of the option that comes last, which has to have one. -/
def settle (a : Arguments) : Except UsageError Arguments :=
  match a.pending with
  | none => .ok a
  | some (spec, none) => .error (.missingValue spec.name)
  | some (spec, some value) => { a with pending := none }.giveValue spec value

/-- Counts an option without a value. -/
def giveFlag (a : Arguments) (spec : OptionSpec) : Except UsageError Arguments := do
  let a ← a.settle
  if a.has spec.name then throw (.repeatedOption spec.name)
  return { a with given := a.given.insert spec.name [] }

/-- Reads an option that takes a value, attached to it or not. -/
def openOption (a : Arguments) (spec : OptionSpec) (attached : Option String) :
    Except UsageError Arguments := do
  let a ← a.settle
  match attached with
  | some value => a.giveValue spec value
  | none => return { a with pending := some (spec, none) }

/-- Help ends the reading, once the option before it is in order. -/
def help (a : Arguments) : Except UsageError Arguments := do
  let _ ← a.settle
  throw .helpRequested

/-- Reads a word that begins with two hyphens, without these. -/
def readLong (g : ArgumentGrammar) (a : Arguments) (word : String) : Except UsageError Arguments :=
  let (name, attached) : String × Option String :=
    match Text.splitFirst? '=' word with
    | some (name, value) => (name, some value)
    | none => (word, none)
  match g.optionNamed? name, name == "help", attached with
  | some spec, _, _ =>
    if spec.takesValue then a.openOption spec attached
    else if attached.isSome then .error (.unwantedValue name)
    else a.giveFlag spec
  | none, true, none => a.help
  | none, true, some _ => .error (.unwantedValue name)
  | none, false, _ => .error (.unknownArgument s!"--{name}")

/-- The value attached to a letter. -/
def attachedTo : List Char → Option String
  | [] => none
  | '=' :: value => some (String.ofList value)
  | value => some (String.ofList value)

/-- Reads the letters of a word that begins with one hyphen. -/
def readLetters (g : ArgumentGrammar) (a : Arguments) : List Char → Except UsageError Arguments
  | [] => .ok a
  | letter :: rest =>
    match g.optionLettered? letter with
    | some spec =>
      if spec.takesValue then a.openOption spec (attachedTo rest)
      else do readLetters g (← a.giveFlag spec) rest
    | none => if letter = 'h' then a.help else .error (.unknownArgument s!"-{letter}")

/-- Reads a plain word. -/
def readWord (g : ArgumentGrammar) (a : Arguments) (word : String) : Except UsageError Arguments :=
  if a.words.length < g.words.length then do
    let a ← a.settle
    return { a with words := a.words ++ [word] }
  else .error (if g.commands.isEmpty then .unknownArgument word else .unknownCommand word)

/-- The option that takes the word as its value. -/
def takerOf? (a : Arguments) (word : List Char) : Option OptionSpec :=
  match a.pending with
  | some (spec, none) =>
    let isPlain := word.head? != some '-' || word.length == 1
    if !a.isPastOptions && (spec.allowsHyphen || isPlain) then some spec else none
  | _ => none

/-- Reads one word. -/
def read (g : ArgumentGrammar) (a : Arguments) (word : String) : Except UsageError Arguments :=
  match a.takerOf? word.toList with
  | some spec => .ok { a with pending := some (spec, some word) }
  | none =>
    if a.isPastOptions then a.readWord g word
    else
      match word.toList with
      | ['-', '-'] => .ok { a with isPastOptions := true }
      | '-' :: '-' :: rest => a.readLong g (String.ofList rest)
      | '-' :: c :: rest => a.readLetters g (c :: rest)
      | _ => a.readWord g word

/-- Whether the word is a command. -/
def startsCommand (g : ArgumentGrammar) (a : Arguments) (word : String) : Bool :=
  !a.isPastOptions && (a.takerOf? word.toList).isNone && g.commands.contains word

/-- Reads words up to a command, which comes out with the words after it. -/
def readAll (g : ArgumentGrammar) (a : Arguments) :
    List String → Except UsageError (Arguments × Option (String × List String))
  | [] => .ok (a, none)
  | word :: rest =>
    if a.startsCommand g word then .ok (a, some (word, rest))
    else do readAll g (← a.read g word) rest

/-- Makes sure that nothing is missing. -/
def finish (g : ArgumentGrammar) (a : Arguments) : Except UsageError Arguments := do
  let a ← a.settle
  match g.words[a.words.length]? with
  | some name => throw (.missingArgument name)
  | none => return a

/-- Reads the words of a command line without commands. -/
def parse (g : ArgumentGrammar) (words : List String) : Except UsageError Arguments := do
  let (a, _) ← readAll g {} words
  a.finish g

end Arguments

end Mosaic.Cli
