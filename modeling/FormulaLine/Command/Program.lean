import FormulaLine.Command.Action

namespace FormulaLine
namespace Command

/-!
The program from its arguments to what it shows.
-/

/-- A run that came to its end. -/
structure Execution where
  journal : Log.Journal
  outcome : Outcome

/-- Why the program ends without an outcome. -/
inductive Abort where
  /-- The help has been asked for; its text is not part of the program. -/
  | help
  | usage (error : UsageError)
  | reservedLevel (name : Log.Level.ReservedName)
  | failure (failure : Failure)

/-- What is printed of refused arguments. -/
def UsageError.line (error : UsageError) : List Char :=
  Log.programName ++ ": error: ".toList ++ error.message

/-- The exit code of a program that ends without an outcome. -/
def Abort.exitCode : Abort → Nat
  | .help => 0
  | .usage _ => 2
  | .reservedLevel _ | .failure _ => 1

/-- What has been settled before the program acts. -/
structure Plan where
  journal : Log.Journal
  options : Options

/-- Settles the options and sets the journal up. -/
def plan (settings : Settings) (arguments : List (List Char)) : Except Abort Plan :=
  match Options.ofArguments settings arguments with
  | .error .helpWanted => .error .help
  | .error (.refused error) => .error (.usage error)
  | .ok options =>
    let request : Log.Setup := { levelName := options.logLevel, path := options.logFile }
    match request.refusal? with
    | some name => .error (.reservedLevel name)
    | none => .ok ⟨.setup .initial request, options⟩

section Interpreted

variable {α : Type} (I : Interpreter α)

/-- The execution of a plan, where `lines` are the lines of the input. -/
def Plan.execute (settings : Settings) (lines : List (List Char)) (plan : Plan) :
    Except Abort Execution :=
  match plan.options.action.run I settings.inputLimit plan.options.format lines with
  | .ok outcome => .ok ⟨plan.journal, outcome⟩
  | .error failure => .error (.failure failure)

/-- Runs the program on its arguments and its input. -/
def execute (settings : Settings) (arguments : List (List Char)) (input : List Char) :
    Except Abort Execution := do
  (← plan settings arguments).execute I settings (Dialogue.lines input)

end Interpreted

end Command
end FormulaLine
