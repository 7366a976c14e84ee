import FormulaLine.Text.Digit
import FormulaLine.Text.Quoted

namespace FormulaLine
namespace Command

/-!
The switches of the command line, and how an argument names one.

A switch has long spellings of several letters and may have a short one of a
single letter.  An argument may abbreviate a long spelling as long as no other
spelling starts in the same way, and may carry the value of a switch: after an
equals sign, or directly after a short spelling.
-/

inductive Switch where
  | help | split | term | join | hint | table | functions | check | format
  | version | logLevel | logFile | healthCheck
  deriving DecidableEq

namespace Switch

/-- The switches in the order in which they are declared. -/
def all : List Switch :=
  [.help, .split, .term, .join, .hint, .table, .functions, .check, .format,
   .version, .logLevel, .logFile, .healthCheck]

def spellings : Switch → List (List Char)
  | .help => ["-h".toList, "--help".toList]
  | .split => ["-s".toList, "--split".toList]
  | .term => ["--term".toList]
  | .join => ["--join".toList]
  | .hint => ["--hint".toList]
  | .table => ["--table".toList]
  | .functions => ["--functions".toList]
  | .check => ["-c".toList, "--check".toList]
  | .format => ["--format".toList]
  | .version => ["-v".toList, "--version".toList]
  | .logLevel => ["--log-level".toList]
  | .logFile => ["--log-file".toList]
  | .healthCheck => ["--health-check".toList]

/-- Whether the switch is followed by a value. -/
def takesValue : Switch → Bool
  | .split | .hint | .functions | .check | .format | .logLevel | .logFile => true
  | .help | .term | .join | .table | .version | .healthCheck => false

/-- The values that the switch accepts, if not all. -/
def choices? : Switch → Option (List (List Char))
  | .format => some ["json".toList, "human".toList]
  | .logLevel => some ["DEBUG".toList, "INFO".toList, "WARNING".toList, "ERROR".toList]
  | _ => none

/-- All spellings with their switches, in the order of declaration. -/
def spelled : List (List Char × Switch) :=
  all.flatMap fun switch => switch.spellings.map fun spelling => (spelling, switch)

def ofSpelling? (spelling : List Char) : Option Switch :=
  (spelled.find? fun entry => entry.1 == spelling).map Prod.snd

/-- How an error names the switch. -/
def title (switch : Switch) : List Char :=
  ['/'].intercalate switch.spellings

end Switch

/-- A value carried by the argument that names the switch. -/
structure Attached where
  /-- Whether an equals sign stands before the value. -/
  afterEquals : Bool
  value : List Char
  deriving DecidableEq

/-- A way to read an argument as a switch. -/
structure Reading where
  switch : Switch
  /-- The full spelling that is meant. -/
  spelling : List Char
  attached : Option Attached

/-- What an argument is, before the arguments around it are looked at. -/
inductive Piece where
  /-- Neither a switch nor the terminator. -/
  | word (text : List Char)
  /-- The first double dash, after which there are only words. -/
  | terminator
  | switch (reading : Reading)
  /-- Written like a switch that does not exist. -/
  | unknown (text : List Char)

/-- Cuts an argument at its first equals sign. -/
def cutAtEquals (argument : List Char) : List Char × Option (List Char) :=
  match argument.dropWhile (· != '=') with
  | [] => (argument, none)
  | _ :: value => (argument.takeWhile (· != '='), some value)

/-- An argument that names a switch exactly, perhaps with a value after an equals
sign. -/
def exactReading? (argument : List Char) : Option Reading :=
  match Switch.ofSpelling? argument with
  | some switch => some ⟨switch, argument, none⟩
  | none =>
    match cutAtEquals argument with
    | (_, none) => none
    | (name, some value) =>
      (Switch.ofSpelling? name).map fun switch => ⟨switch, name, some ⟨true, value⟩⟩

/-- The ways to read an argument that starts with two dashes: its name abbreviates
a spelling. -/
def longReadings (argument : List Char) : List Reading :=
  let (name, value) := cutAtEquals argument
  (Switch.spelled.filter fun entry => name.isPrefixOf entry.1).map fun entry =>
    ⟨entry.2, entry.1, value.map fun v => ⟨true, v⟩⟩

/-- The way to read an argument that starts with one dash: a short spelling with
the value directly after it. -/
def shortReading? (argument : List Char) : Option Reading :=
  let name := argument.take 2
  (Switch.ofSpelling? name).map fun switch => ⟨switch, name, some ⟨false, argument.drop 2⟩⟩

/-- The ways to read an argument that starts with a dash and has more characters. -/
def readings (argument : List Char) : List Reading :=
  match exactReading? argument with
  | some reading => [reading]
  | none =>
    if ['-', '-'].isPrefixOf argument then longReadings argument
    else (shortReading? argument).toList

/-- Whether the character is a decimal digit of some script. -/
def isDecimal (c : Char) : Bool :=
  (Text.decimalValue? c).isSome

/-- Drops a newline at the end. -/
def dropFinalNewline (text : List Char) : List Char :=
  if text.getLast? = some '\n' then text.dropLast else text

/-- Whether the text is a minus sign with a decimal number. -/
def isNegativeNumber (text : List Char) : Bool :=
  match dropFinalNewline text with
  | '-' :: digits =>
    match digits.dropWhile isDecimal with
    | [] => !digits.isEmpty
    | '.' :: decimals => !decimals.isEmpty && decimals.all isDecimal
    | _ => false
  | _ => false

/-- Whether the argument is written like a switch. -/
def looksLikeSwitch (argument : List Char) : Bool :=
  argument.head? == some '-' && argument.length != 1

/-- What an argument is, or else the spellings between which it leaves a choice. -/
def classify (argument : List Char) : Except (List (List Char)) Piece :=
  if !looksLikeSwitch argument then .ok (.word argument)
  else
    match readings argument with
    | [reading] => .ok (.switch reading)
    | [] =>
      if isNegativeNumber argument || argument.contains ' ' then .ok (.word argument)
      else .ok (.unknown argument)
    | several => .error (several.map Reading.spelling)

end Command
end FormulaLine
