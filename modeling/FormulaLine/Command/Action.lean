import FormulaLine.Command.Dialogue
import FormulaLine.Command.Health
import FormulaLine.Command.Notice
import FormulaLine.Log.Journal

namespace FormulaLine
namespace Command

/-!
What the options ask for, and what it shows: an exit code, printed text, and
events for the journal.
-/

inductive Action where
  | version
  | healthCheck
  | split (policy : SplitPolicy) (text : List Char)
  /-- Shows the formula with every multiplication written. -/
  | join (text : List Char)
  | hint (text : List Char)
  | table (names : List (List Char))
  | check (text : List Char)
  | dialogue

/-- The names in a list that is separated by commas. -/
def namesOfList (list : List Char) : List (List Char) :=
  ((Text.cutAt ',' list).map Text.trim).filter fun name => !name.isEmpty

namespace Options

/-- The names whose table is wanted: those that are given, or the supported
functions. -/
def tableNames (options : Options) : List (List Char) :=
  match options.functions with
  | some (c :: rest) => namesOfList (c :: rest)
  | _ => Vocabulary.functions

/-- How finely a formula is to be split. -/
def policy (options : Options) : SplitPolicy :=
  if options.term then .term else .multiplication

/-- What the options ask for.  The first that applies decides. -/
def action (options : Options) : Action :=
  if options.version then .version
  else if options.healthCheck then .healthCheck
  else
    match options.split, options.hint, options.check with
    | some text, _, _ => if options.join then .join text else .split options.policy text
    | none, some text, _ => .hint text
    | none, none, check =>
      if options.table then .table options.tableNames
      else check.elim .dialogue .check

end Options

/-- What the program shows. -/
structure Outcome where
  code : Nat
  output : List Char
  events : List Log.Event

namespace Outcome

/-- A reply that reports success. -/
def success (format : Format) (reply : Reply) : Outcome where
  code := 0
  output := reply.print format
  events := []

/-- A reply that reports a failure. -/
def failure (format : Format) (message code : String) (notices : List Notice) : Outcome where
  code := 1
  output := (Reply.refused message.toList code.toList).print format
  events := notices.map Notice.event

end Outcome

namespace Action

/-- The outcome of asking for a hint. -/
def runHint (format : Format) (text : List Char) : Outcome :=
  { Outcome.success format (.fields (hintFields (Suggest.hint text))) with
    events := if Suggest.consultsTable text then [Notice.standardTable.event] else [] }

/-- The outcome of asking for the table of some names. -/
def runTable (format : Format) (names : List (List Char)) : Outcome :=
  match Completion.build names with
  | .ok built =>
    { code := 0
      output := (tableJson built).render 0 ++ ['\n']
      events := [(Notice.ofTable names built).event] }
  | .error fault =>
    .failure format fault.message fault.code [.tableFailed fault.message.toList]

/-- The notice that is given when a formula is refused for the given reason. -/
def noticesOf : ParseError → List Notice
  | .refused refusal => (Notice.ofRefusal? refusal).toList
  | _ => []

section Interpreted

variable {α : Type} (I : Interpreter α)

/-- The expression of a checked formula as it is shown. -/
def shown : Option α → Except Failure (List Char)
  | none => .ok []
  | some value => I.print value

/-- The outcome of checking a formula.  A failure that is not an error of the formula
is passed on, and so is any failure to print its value. -/
def runCheck (limit : Int) (format : Format) (text : List Char) : Except Failure Outcome :=
  match I.parse limit text with
  | .error (.stopped failure) => .error failure
  | .error error => .ok (.failure format error.message error.code (noticesOf error))
  | .ok value => do
    let expression ← shown I value
    return .success format (.confirmed [
      ("processed".toList, .text (Split.explicit text)),
      ("expression".toList, .text expression)])

/-- The outcome of the self-check. -/
def runHealthCheck (limit : Int) : Except Failure Outcome := do
  let reports ← Health.reports I limit
  return {
    code := if Health.isSound reports then 0 else 1
    output := Health.transcript reports
    events := [Notice.standardTable.event] }

/-- The outcome of a dialogue. -/
def runDialogue (format : Format) (lines : List (List Char)) : Outcome where
  code := 0
  output := Dialogue.transcript format lines
  events := if Dialogue.consultsTable lines then [Notice.standardTable.event] else []

/-- The outcome of an action, where `lines` are the lines of the input. -/
def run (limit : Int) (format : Format) (lines : List (List Char)) :
    Action → Except Failure Outcome
  | .version => .ok { code := 0, output := Settings.version ++ ['\n'], events := [] }
  | .healthCheck => runHealthCheck I limit
  | .split policy text =>
    .ok (.success format (.fields [("tokens".toList, .texts (Split.split policy text))]))
  | .join text => .ok (.success format (.fields [("processed".toList, .text (Split.explicit text))]))
  | .hint text => .ok (runHint format text)
  | .table names => .ok (runTable format names)
  | .check text => runCheck I limit format text
  | .dialogue => .ok (runDialogue format lines)

end Interpreted

end Action
end Command
end FormulaLine
