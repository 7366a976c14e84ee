import FormulaLine.Completion.Table
import FormulaLine.Split

namespace FormulaLine

/-!
The hint of a line.  An empty line suggests an example.  A line with more
opening than closing parentheses suggests closing one.  Any other line suggests
what the completion table has for its last token.
-/

namespace Suggest

/-- The standard table's hint for a typed part; the empty part has none. -/
def completionOf? (typed : List Char) : Option Hint :=
  if typed.isEmpty then none else CompletionTable.standard.get? typed

/-- The last token of a line, empty for an empty line. -/
def lastToken (text : List Char) : List Char :=
  (Split.split .multiplication text).getLastD []

/-- Whether more parentheses are opened than closed. -/
def leavesOpen (text : List Char) : Bool :=
  text.count ')' < text.count '('

/-- The hint of a line. -/
def hint (text : List Char) : Hint :=
  if text.isEmpty then .ofEmptyLine
  else if leavesOpen text then .closing
  else (completionOf? (lastToken text)).getD .none

/-- Whether the hint of a line is looked up in the standard table. -/
def consultsTable (text : List Char) : Bool :=
  !text.isEmpty && !leavesOpen text && !(lastToken text).isEmpty

end Suggest
end FormulaLine
