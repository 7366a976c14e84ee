namespace FormulaLine
namespace Log

/-!
Levels of logged events, and the names by which a level is chosen.

Any integer is a level.  Five of them and the level that stands for "not set"
have names, and two of these have a second name.  A name that is not known
chooses the level of warnings; two names are reserved and choose nothing.
-/

/-- How grave an event is.  A greater rank is graver. -/
structure Level where
  rank : Int
  deriving DecidableEq

namespace Level

def notSet : Level := ⟨0⟩
def debug : Level := ⟨10⟩
def info : Level := ⟨20⟩
def warning : Level := ⟨30⟩
def error : Level := ⟨40⟩
def critical : Level := ⟨50⟩

/-- The named levels with the names that log lines show. -/
def labels : List (Level × List Char) :=
  [(notSet, "NOTSET".toList), (debug, "DEBUG".toList), (info, "INFO".toList),
   (warning, "WARNING".toList), (error, "ERROR".toList), (critical, "CRITICAL".toList)]

/-- How a log line shows the level. -/
def label (level : Level) : List Char :=
  match labels.find? fun entry => entry.1 == level with
  | some entry => entry.2
  | none => "Level ".toList ++ (toString level.rank).toList

/-- Second names of levels. -/
def aliases : List (Level × List Char) :=
  [(warning, "WARN".toList), (critical, "FATAL".toList)]

/-- The upper case of one character of a name.  Beyond ASCII only those letters
are raised whose upper case is spelled with ASCII letters of some name. -/
def raise (c : Char) : List Char :=
  if c.toNat = 0x131 then ['I']
  else if c.toNat = 0x17F then ['S']
  else if c.toNat = 0xFB05 ∨ c.toNat = 0xFB06 then ['S', 'T']
  else [c.toUpper]

/-- The name in upper case. -/
def upperName (name : List Char) : List Char :=
  name.flatMap raise

/-- Names that cannot choose a level, because they stand for something else. -/
inductive ReservedName where
  /-- The format of a log line. -/
  | lineFormat
  /-- The styles in which a format can be written. -/
  | formatStyles
  deriving DecidableEq

namespace ReservedName

def spelling : ReservedName → List Char
  | .lineFormat => "BASIC_FORMAT".toList
  | .formatStyles => "_STYLES".toList

/-- What is said of an attempt to choose a level by the name: it shows what the
name stands for. -/
def message : ReservedName → String
  | .lineFormat => "Unknown level: '%(levelname)s:%(name)s:%(message)s'"
  | .formatStyles =>
    "Level not an integer or a valid string: " ++
      "\x7b'%': (<class 'logging.PercentStyle'>, '%(levelname)s:%(name)s:%(message)s'), " ++
      "'\x7b': (<class 'logging.StrFormatStyle'>, " ++
      "'\x7blevelname\x7d:\x7bname\x7d:\x7bmessage\x7d'), " ++
      "'$': (<class 'logging.StringTemplateStyle'>, " ++
      "'$\x7blevelname\x7d:$\x7bname\x7d:$\x7bmessage\x7d')\x7d"

end ReservedName

/-- The level chosen by a name, in whatever case it is written. -/
def ofName (name : List Char) : Except ReservedName Level :=
  let key := upperName name
  match [ReservedName.lineFormat, .formatStyles].find? fun reserved => reserved.spelling == key with
  | some reserved => .error reserved
  | none => .ok (((labels ++ aliases).find? fun entry => entry.2 == key).elim warning Prod.fst)

end Level
end Log
end FormulaLine
