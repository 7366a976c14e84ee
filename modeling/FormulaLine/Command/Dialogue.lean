import FormulaLine.Command.Reply
import FormulaLine.Session
import FormulaLine.Text.Replace

namespace FormulaLine
namespace Command

/-!
The dialogue: a formula is typed on each line and answered by its tokens, by the
formula with every multiplication written, and by its hint.  The input field keeps
its state from line to line.  The dialogue ends at a line that says so, or at the
end of the input.
-/

namespace Dialogue

def greeting : List Char :=
  "implicalc: type an expression, Tab to complete, 'quit' to exit.\n".toList

def invitation : List Char := ">>> ".toList

/-- The lines that end the dialogue, in lower case. -/
def farewells : List (List Char) := ["quit".toList, "exit".toList]

/-- Whether the trimmed line ends the dialogue.  Only ASCII letters are lowered: no
letter beyond ASCII becomes part of a farewell. -/
def isFarewell (line : List Char) : Bool :=
  farewells.contains (line.map Char.toLower)

/-- The reply to a trimmed line, where `session` has recorded the line. -/
def replyTo (session : Session) (line : List Char) : Reply :=
  .fields [
    ("tokens".toList, .texts (Split.split .multiplication line)),
    ("processed".toList, .text (Split.explicit line)),
    ("hint".toList, .text session.hint.display)]

/-- Answers a line: the input field that has recorded it, and the reply.  A line
that ends the dialogue has no answer. -/
def answer? (session : Session) (line : List Char) : Option (Session × Reply) :=
  let line := Text.trim line
  if isFarewell line then none
  else
    let session := session.update line
    some (session, replyTo session line)

/-- The replies to the lines up to the end of the dialogue, and whether a line
ends it. -/
def converse (session : Session) : List (List Char) → List Reply × Bool
  | [] => ([], false)
  | line :: rest =>
    match answer? session line with
    | none => ([], true)
    | some (session, reply) =>
      let (replies, ended) := converse session rest
      (reply :: replies, ended)

/-- The trimmed lines that are answered. -/
def answered (lines : List (List Char)) : List (List Char) :=
  (lines.map Text.trim).takeWhile fun line => !isFarewell line

/-- The lines of an input.  An end of line at the end starts no further line. -/
def lines (input : List Char) : List (List Char) :=
  let pieces := Text.cutAt '\n' input
  if pieces.getLast? = some [] then pieces.dropLast else pieces

/-- All that is printed in a dialogue: after the last reply the invitation is
printed once more, followed by an end of line if no farewell was said. -/
def transcript (format : Format) (lines : List (List Char)) : List Char :=
  let (replies, ended) := converse .empty lines
  greeting ++ (replies.flatMap fun reply => invitation ++ reply.print format) ++ invitation ++
    if ended then [] else ['\n']

/-- Whether the hint of some answered line is looked up in the standard table. -/
def consultsTable (lines : List (List Char)) : Bool :=
  (answered lines).any Suggest.consultsTable

end Dialogue
end Command
end FormulaLine
