import FormulaLine.Formula.Parse
import FormulaLine.Completion.Table

namespace FormulaLine
namespace Command

/-!
The program's check of itself: each part is tried on a small input, and a line
reports how that went.
-/

namespace Health

/-- How a part fared. -/
structure Report where
  passed : Bool
  text : List Char

/-- The line of a report. -/
def Report.line (report : Report) : List Char :=
  (if report.passed then "[OK] ".toList else "[FAIL] ".toList) ++ report.text ++ ['\n']

/-- Whether the supported functions have a completion table. -/
def completion : Report :=
  match Completion.build Vocabulary.functions with
  | .ok table => ⟨true, s!"Completion table built ({table.entries.length} prefixes)".toList⟩
  | .error fault => ⟨false, "Completion table failed: ".toList ++ fault.message.toList⟩

/-- The formula on which splitting and reading are tried. -/
def sample : List Char := "2sin(x)cos(x)".toList

/-- The sample with every multiplication written. -/
def sampleExplicit : List Char := "2*sin(x)*cos(x)".toList

def splitting : Report :=
  let formula := Split.explicit sample
  if formula = sampleExplicit then ⟨true, "Splitting works".toList⟩
  else ⟨false, "Splitting check failed: got ".toList ++ Text.quote formula⟩

section Interpreted

variable {α : Type} (I : Interpreter α)

/-- Whether a release of the algebra system is loaded. -/
def algebra : Report :=
  match I.release with
  | .ok version => ⟨true, "SymPy ".toList ++ version ++ " imported successfully".toList⟩
  | .error reason => ⟨false, "SymPy import failed: ".toList ++ reason⟩

/-- Whether the sample is read, under the given limit of length. -/
def reading (limit : Int) : Except Failure Report :=
  match I.parse limit sample with
  | .ok _ => .ok ⟨true, "Evaluator parsing works".toList⟩
  | .error (.stopped failure) => .error failure
  | .error error => .ok ⟨false, "Evaluator check failed: ".toList ++ error.message.toList⟩

/-- The reports on all parts.  A failure that is no error of the sample ends the check. -/
def reports (limit : Int) : Except Failure (List Report) := do
  return [algebra I, completion, splitting, ← reading I limit]

end Interpreted

/-- Whether all parts work. -/
def isSound (reports : List Report) : Bool :=
  reports.all Report.passed

def rule : List Char := List.replicate 50 '-' ++ ['\n']

/-- The numbers of parts that work and that do not. -/
def tally (reports : List Report) : List Char :=
  let passed := reports.countP Report.passed
  s!"Results: {passed} passed, {reports.length - passed} failed\n".toList

def conclusion (sound : Bool) : List Char :=
  if sound then "\n[OK] All health checks passed!\n".toList
  else "\n[WARN] Some health checks failed.\n".toList

/-- All that is printed by the check. -/
def transcript (reports : List Report) : List Char :=
  "Running implicalc health check...\n".toList ++ rule ++ reports.flatMap Report.line ++
    rule ++ tally reports ++ conclusion (isSound reports)

end Health
end Command
end FormulaLine
