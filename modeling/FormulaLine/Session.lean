import FormulaLine.Session.Movement
import FormulaLine.Suggest

namespace FormulaLine

/-!
The state of one input field: its text, the hint of that text, and a cursor over
the candidates of the hint.
-/

structure Session where
  text : List Char
  hint : Hint
  /-- The selected candidate; of use only when the hint is a choice. -/
  cursor : Nat

namespace Session

/-- An empty input field. -/
def empty : Session where
  text := []
  hint := .ofEmptyLine
  cursor := 0

/-- An input field with the given text, freshly resolved. -/
def ofText (text : List Char) : Session where
  text := text
  hint := Suggest.hint text
  cursor := 0

/-- Records the contents of the field.  Unchanged contents keep the cursor. -/
def update (session : Session) (text : List Char) : Session :=
  if session.text = text then session
  else if text.isEmpty then empty
  else ofText text

/-- Appends to the text. -/
def append (session : Session) (suffix : List Char) : Session :=
  ofText (session.text ++ suffix)

/-- The candidate that the cursor points at. -/
def selected? (session : Session) : Option (List Char) :=
  match session.hint with
  | .none => none
  | .single candidate => some candidate
  | .many candidates _ _ => candidates[session.cursor]?

/-- The cursor one place up in a circle of `size` places. -/
def cursorUp (size cursor : Nat) : Nat :=
  if cursor = 0 then size - 1 else cursor - 1

/-- The cursor one place down in a circle of `size` places. -/
def cursorDown (size cursor : Nat) : Nat :=
  if size - 1 < cursor + 1 then 0 else cursor + 1

/-- Accepts the selected candidate. -/
def accept (session : Session) : Session :=
  match session.selected? with
  | some candidate => session.append candidate
  | none => session

/-- Applies a navigation command. -/
def move (session : Session) (movement : Movement) : Session :=
  match movement, session.hint with
  | .none, _ => session
  | _, .none => session
  | .complete, _ => session.accept
  | .up, .many candidates _ _ =>
    { session with cursor := cursorUp candidates.length session.cursor }
  | .down, .many candidates _ _ =>
    { session with cursor := cursorDown candidates.length session.cursor }
  | _, .single _ => session

/-- The lines that accepting each candidate would give. -/
def options (session : Session) (text : List Char) : List (List Char) :=
  session.hint.candidates.map fun candidate => text ++ candidate

/-- No option has the requested index. -/
inductive OptionFault where
  | outOfRange

def OptionFault.message : OptionFault → String
  | .outOfRange => "list index out of range"

/-- The option with the given index.  A negative index counts from the end; an
index past the end gives no option, one before the beginning is a fault. -/
def option (options : List (List Char)) (index : Int) :
    Except OptionFault (Option (List Char)) :=
  match index with
  | .ofNat n => .ok options[n]?
  | .negSucc n =>
    if n < options.length then .ok options[options.length - (n + 1)]?
    else .error .outOfRange

/-- Answers a completion request of a line editor: records the whole line and
gives the option with the requested index. -/
def complete (session : Session) (text : List Char) (index : Int) :
    Session × Except OptionFault (Option (List Char)) :=
  let session := session.update text
  (session, option (session.options text) index)

/-- A description that shows the whole state. -/
def describe (session : Session) : List Char :=
  "AutoComplete(current_text=".toList ++ Text.quote session.text ++
    ", active_hint=".toList ++ session.hint.describe ++
    ", cursor_index=".toList ++ (toString session.cursor).toList ++ [')']

end Session
end FormulaLine
