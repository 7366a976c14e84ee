import FormulaLine.Command.Program
import FormulaLine.Formula.Standard
import FormulaLine.Log.Instant
import Std.Time.DateTime.Timestamp

/-!
The command line.  Settings come from the environment, lines from standard input;
replies go to standard output, and log lines to the sinks of the journal.
-/

namespace FormulaLine
namespace Command

/-- The settings that can be made in the environment. -/
def settingNames : List String :=
  [Settings.inputLimitName, Settings.rememberedHintsName, Settings.rememberedFormulasName,
   Settings.logLevelName]

/-- The environment, as far as settings are read from it. -/
def readEnvironment : IO (List (String × List Char)) :=
  settingNames.filterMapM fun name => do
    return (← IO.getEnv name).map fun value => (name, value.toList)

/-- The present time, as it stands in log lines. -/
def timeStamp : IO (List Char) := do
  let nanoseconds := (← Std.Time.Timestamp.now).toNanosecondsSinceUnixEpoch.val
  return (Log.Instant.mk (nanoseconds / 1000)).text.toOption.getD []

def printText (output : IO.FS.Stream) (text : List Char) : IO Unit := do
  output.putStr (String.ofList text)
  output.flush

/-- Writes an entry of the journal to its sink. -/
def writeEntry (entry : Log.Journal.Entry) : IO Unit := do
  match entry.sink with
  | .console => printText (← IO.getStderr) entry.text
  | .file path =>
    let handle ← IO.FS.Handle.mk (String.ofList path) .append
    handle.putStr (String.ofList entry.text)

/-- Records events in the journal at the present time. -/
def record (journal : Log.Journal) (events : List Log.Event) : IO Unit := do
  for entry in journal.written (← timeStamp) events do
    writeEntry entry

/-- Creates the files of the journal that do not exist yet. -/
def openSinks (journal : Log.Journal) : IO Unit := do
  for sink in journal.sinks do
    match sink with
    | .console => pure ()
    | .file path => discard <| IO.FS.Handle.mk (String.ofList path) .append

/-- Prints an execution and records its events. -/
def present (execution : Execution) : IO UInt32 := do
  record execution.journal execution.outcome.events
  printText (← IO.getStdout) execution.outcome.output
  return execution.outcome.code.toUInt32

/-- Answers line by line until the dialogue ends. -/
def talk (journal : Log.Journal) (format : Format) : IO UInt32 := do
  let input ← IO.getStdin
  let output ← IO.getStdout
  printText output Dialogue.greeting
  let mut session := Session.empty
  let mut consulted := false
  repeat
    printText output Dialogue.invitation
    let line := (← input.getLine).toList
    if line.isEmpty then
      printText output ['\n']
      break
    match Dialogue.answer? session line with
    | none => break
    | some (next, reply) =>
      if !consulted && Suggest.consultsTable next.text then
        consulted := true
        record journal [Notice.standardTable.event]
      session := next
      printText output (reply.print format)
  return 0

/-- Says why there is no outcome. -/
def complain (abort : Abort) : IO UInt32 := do
  let text := match abort with
    | .help => []
    | .usage error => error.line ++ ['\n']
    | .reservedLevel name => name.message.toList ++ ['\n']
    | .failure failure => failure.message ++ ['\n']
  printText (← IO.getStderr) text
  return abort.exitCode.toUInt32

/-- Runs the program with settings. -/
def runWith (settings : Settings) (arguments : List (List Char)) : IO UInt32 := do
  match plan settings arguments with
  | .error abort => complain abort
  | .ok plan =>
    openSinks plan.journal
    match plan.options.action with
    | .dialogue => talk plan.journal plan.options.format
    | _ =>
      match plan.execute Formula.standard settings [] with
      | .ok execution => present execution
      | .error abort => complain abort

end Command
end FormulaLine

open FormulaLine in
def main (arguments : List String) : IO UInt32 := do
  let environment ← Command.readEnvironment
  match Settings.read fun name => environment.lookup name with
  | .ok settings => Command.runWith settings (arguments.map String.toList)
  | .error fault =>
    (← IO.getStderr).putStrLn fault.message
    return 1
