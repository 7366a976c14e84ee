import FormulaLine.Command.Switch
import FormulaLine.Settings

namespace FormulaLine
namespace Command

/-!
The options that the arguments of a command line give.

All arguments are classified first, then they are read from the left.  A switch
that takes a value takes the next argument if that is a word.  A short switch that
takes none may be followed, in the same argument, by further short switches.
Words that no switch takes are collected and refused at the end.
-/

/-- Why arguments are refused. -/
inductive UsageError where
  | ambiguous (argument : List Char) (spellings : List (List Char))
  | missingValue (switch : Switch)
  /-- A switch that takes no value is given one. -/
  | ignoredValue (switch : Switch) (value : List Char)
  | invalidChoice (switch : Switch) (value : List Char)
  | unrecognized (arguments : List (List Char))
  | joinWithTerm

namespace UsageError

/-- Text that concerns one switch. -/
def ofSwitch (switch : Switch) (text : List Char) : List Char :=
  "argument ".toList ++ switch.title ++ ':' :: ' ' :: text

def message : UsageError → List Char
  | .ambiguous argument spellings =>
    "ambiguous option: ".toList ++ argument ++ " could match ".toList ++
      [',', ' '].intercalate spellings
  | .missingValue switch => ofSwitch switch "expected one argument".toList
  | .ignoredValue switch value =>
    ofSwitch switch ("ignored explicit argument ".toList ++ Text.quote value)
  | .invalidChoice switch value =>
    ofSwitch switch ("invalid choice: ".toList ++ Text.quote value ++ " (choose from ".toList ++
      Text.quoteItems (switch.choices?.getD []) ++ [')'])
  | .unrecognized arguments =>
    "unrecognized arguments: ".toList ++ [' '].intercalate arguments
  | .joinWithTerm => "--join cannot be combined with --term".toList

end UsageError

/-- How answers are printed. -/
inductive Format where
  | json
  | human
  deriving DecidableEq

structure Options where
  split : Option (List Char) := none
  term : Bool := false
  join : Bool := false
  hint : Option (List Char) := none
  table : Bool := false
  functions : Option (List Char) := none
  check : Option (List Char) := none
  format : Format := .human
  version : Bool := false
  /-- The name of the level from which events are recorded. -/
  logLevel : List Char
  logFile : Option (List Char) := none
  healthCheck : Bool := false

/-- Why the arguments give no options. -/
inductive Halt where
  | helpWanted
  | refused (error : UsageError)

namespace Options

/-- The options of an empty command line. -/
def initial (settings : Settings) : Options where
  logLevel := settings.logLevel

/-- The options after one more switch, whose value is empty if it takes none. -/
def assign (options : Options) (value : List Char) : Switch → Except Halt Options
  | .help => .error .helpWanted
  | .split => .ok { options with split := some value }
  | .term => .ok { options with term := true }
  | .join => .ok { options with join := true }
  | .hint => .ok { options with hint := some value }
  | .table => .ok { options with table := true }
  | .functions => .ok { options with functions := some value }
  | .check => .ok { options with check := some value }
  | .format =>
    .ok { options with format := if value = "json".toList then .json else .human }
  | .version => .ok { options with version := true }
  | .logLevel => .ok { options with logLevel := value }
  | .logFile => .ok { options with logFile := some value }
  | .healthCheck => .ok { options with healthCheck := true }

/-- The options after one more switch whose value is one of its choices. -/
def use (options : Options) (switch : Switch) (value : List Char) : Except Halt Options :=
  if switch.choices?.all fun choices => choices.contains value then options.assign value switch
  else .error (.refused (.invalidChoice switch value))

/-- The options after several switches. -/
def useAll (options : Options) (uses : List (Switch × List Char)) : Except Halt Options :=
  uses.foldlM (fun options use => options.use use.1 use.2) options

end Options

/-- The switches that one argument uses. -/
structure Cluster where
  /-- Switches whose value, if they take one, is in the argument. -/
  complete : List (Switch × List Char)
  /-- A last switch whose value is the next argument. -/
  waiting : Option Switch
  /-- What is left from a letter on that names no switch. -/
  unknown : Option (List Char)

namespace Cluster

/-- A switch that carries no value. -/
def bare (switch : Switch) : Cluster :=
  if switch.takesValue then ⟨[], some switch, none⟩ else ⟨[(switch, [])], none, none⟩

/-- A switch without value before the others. -/
def prepend (switch : Switch) (cluster : Cluster) : Cluster :=
  { cluster with complete := (switch, []) :: cluster.complete }

/-- A short switch followed by more characters of its argument. -/
def short (switch : Switch) (afterEquals : Bool) (text : List Char) : Except UsageError Cluster :=
  if switch.takesValue then .ok ⟨[(switch, text)], none, none⟩
  else
    match text with
    | [] => .error (.ignoredValue switch [])
    | c :: rest =>
      if afterEquals || c == '-' then .error (.ignoredValue switch (c :: rest))
      else
        match Switch.ofSpelling? ['-', c], rest with
        | none, rest => .ok ⟨[(switch, [])], none, some ('-' :: c :: rest)⟩
        | some next, [] => .ok ((bare next).prepend switch)
        | some next, '=' :: value => (short next true value).map (prepend switch)
        | some next, d :: more => (short next false (d :: more)).map (prepend switch)
termination_by text.length

/-- The switches of an argument. -/
def ofReading (reading : Reading) : Except UsageError Cluster :=
  match reading.attached with
  | none => .ok (bare reading.switch)
  | some attached =>
    if reading.switch.takesValue then .ok ⟨[(reading.switch, attached.value)], none, none⟩
    else if reading.spelling.length = 2 then
      short reading.switch attached.afterEquals attached.value
    else .error (.ignoredValue reading.switch attached.value)

end Cluster

/-- Classifies the arguments.  After a double dash there are only words. -/
def pieces : List (List Char) → Except UsageError (List Piece)
  | [] => .ok []
  | argument :: rest =>
    if argument = ['-', '-'] then .ok (.terminator :: rest.map .word)
    else
      match classify argument with
      | .error spellings => .error (.ambiguous argument spellings)
      | .ok piece => (pieces rest).map (piece :: ·)

/-- Reads pieces from the left: the options, and the arguments that no switch takes
after those in `extras`. -/
def readPieces (options : Options) (extras : List (List Char)) :
    List Piece → Except Halt (Options × List (List Char))
  | [] => .ok (options, extras)
  | .word text :: rest => readPieces options (extras ++ [text]) rest
  | .unknown text :: rest => readPieces options (extras ++ [text]) rest
  | .terminator :: rest => readPieces options (extras ++ [['-', '-']]) rest
  | .switch reading :: rest =>
    match Cluster.ofReading reading with
    | .error error => .error (.refused error)
    | .ok cluster =>
      let extras := extras ++ cluster.unknown.toList
      match cluster.waiting, rest with
      | none, rest => do readPieces (← options.useAll cluster.complete) extras rest
      | some last, .word value :: rest => do
        readPieces (← options.useAll (cluster.complete ++ [(last, value)])) extras rest
      | some last, _ => .error (.refused (.missingValue last))

/-- The options that the arguments give. -/
def Options.ofArguments (settings : Settings) (arguments : List (List Char)) :
    Except Halt Options :=
  match pieces arguments with
  | .error error => .error (.refused error)
  | .ok pieces => do
    let (options, extras) ← readPieces (Options.initial settings) [] pieces
    if !extras.isEmpty then .error (.refused (.unrecognized extras))
    else if options.join && options.term then .error (.refused .joinWithTerm)
    else .ok options

end Command
end FormulaLine
