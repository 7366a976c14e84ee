import FormulaLine.Command.Options
import FormulaLine.Completion.Table
import FormulaLine.Text.Json

namespace FormulaLine
namespace Command

/-!
Replies and how they are printed: as JSON, or for people to read, with one line
for each field.
-/

/-- The value of a field. -/
inductive Field where
  | text (value : List Char)
  | texts (values : List (List Char))

namespace Field

def json : Field → Json
  | .text value => .text value
  | .texts values => .array (values.map .text)

/-- A text as it is, or a list of quoted texts. -/
def plain : Field → List Char
  | .text value => value
  | .texts values => Text.quoteList values

end Field

/-- Fields with their names, in the order in which they are printed. -/
abbrev Fields := List (List Char × Field)

inductive Reply where
  | fields (shown : Fields)
  /-- Something is as it should be; only JSON says so. -/
  | confirmed (shown : Fields)
  | refused (message code : List Char)

namespace Reply

/-- The members of the JSON object. -/
def members : Reply → List (List Char × Json)
  | .fields shown => shown.map fun field => (field.1, field.2.json)
  | .confirmed shown =>
    ("ok".toList, .bool true) :: shown.map fun field => (field.1, field.2.json)
  | .refused message code =>
    [("ok".toList, .bool false), ("error".toList, .text message), ("code".toList, .text code)]

/-- One line of a reply for people. -/
def plainLine (field : List Char × Field) : List Char :=
  field.1 ++ ':' :: ' ' :: field.2.plain ++ ['\n']

/-- The lines of a reply for people. -/
def plain : Reply → List Char
  | .fields shown => shown.flatMap plainLine
  | .confirmed shown => shown.flatMap plainLine
  | .refused message _ => plainLine ("Error".toList, .text message)

/-- The printed reply. -/
def print (format : Format) (reply : Reply) : List Char :=
  match format with
  | .json => (Json.object reply.members).render 0 ++ ['\n']
  | .human => reply.plain

end Reply

/-- The fields that describe a hint. -/
def hintFields (hint : Hint) : Fields :=
  let kind := ("type".toList, Field.text hint.kind.name)
  match hint with
  | .none => [kind]
  | .single candidate => [kind, ("hint".toList, .text candidate)]
  | .many candidates _ _ => [kind, ("hints".toList, .texts candidates)]

/-- A completion table as JSON. -/
def tableJson (table : CompletionTable) : Json :=
  .object (table.entries.map fun entry =>
    (entry.1, .object (Reply.fields (hintFields entry.2)).members))

end Command
end FormulaLine
