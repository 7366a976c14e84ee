import FormulaLine.Log.Level
import FormulaLine.Log.Message

namespace FormulaLine
namespace Log

/-!
Logged events and the lines that record them.
-/

/-- A failure that an event reports. -/
structure Failure where
  /-- What kind of failure it is. -/
  kind : List Char
  detail : List Char

/-- The kind of a failure, followed by its details if there are any. -/
def Failure.text (failure : Failure) : List Char :=
  if failure.detail.isEmpty then failure.kind
  else failure.kind ++ ':' :: ' ' :: failure.detail

/-- Something that is worth recording. -/
structure Event where
  /-- The part of the program that it concerns. -/
  source : List Char
  level : Level
  text : List Char
  failure : Option Failure

/-- The name of the whole program. -/
def programName : List Char := "implicalc".toList

/-- The full name of a part of the program. -/
def sourceName (part : List Char) : List Char :=
  if part = programName then programName else programName ++ '.' :: part

namespace Event

/-- An event of a part of the program whose message has gaps. -/
def ofMessage (part : List Char) (level : Level) (template : List Char)
    (arguments : List Argument) : Except MessageFault Event :=
  (fill template arguments).map fun text =>
    { source := sourceName part, level := level, text := text, failure := none }

/-- The text of the event, and below it the failure that it reports. -/
def body (event : Event) : List Char :=
  match event.failure with
  | none => event.text
  | some failure => event.text ++ '\n' :: failure.text

/-- The line that records an event at the time given by `stamp`. -/
def line (stamp : List Char) (event : Event) : List Char :=
  stamp ++ ' ' :: '[' :: event.level.label ++ ']' :: ' ' :: event.source ++ ':' :: ' ' :: event.body

end Event
end Log
end FormulaLine
