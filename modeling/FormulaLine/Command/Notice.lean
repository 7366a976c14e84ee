import FormulaLine.Completion.Table
import FormulaLine.Guard
import FormulaLine.Log.Event

namespace FormulaLine
namespace Command

/-!
What the program logs.
-/

inductive Notice where
  | tableBuilt (keys names : Nat)
  | tableFailed (message : List Char)
  | charactersBlocked (length : Nat)
  | memberAccessBlocked

namespace Notice

/-- The part of the program that the notice concerns. -/
def part : Notice → List Char
  | .tableBuilt _ _ => "completion".toList
  | .tableFailed _ => "cli".toList
  | .charactersBlocked _ => "evaluator".toList
  | .memberAccessBlocked => "evaluator".toList

def level : Notice → Log.Level
  | .tableBuilt _ _ => .debug
  | .tableFailed _ => .error
  | .charactersBlocked _ => .warning
  | .memberAccessBlocked => .warning

def text : Notice → List Char
  | .tableBuilt keys names =>
    s!"Built completion table with {keys} prefixes from {names} functions".toList
  | .tableFailed message => "Could not build completion table: ".toList ++ message
  | .charactersBlocked length =>
    s!"Blocked input containing disallowed characters (length {length})".toList
  | .memberAccessBlocked => "Blocked input containing attribute access".toList

def event (notice : Notice) : Log.Event where
  source := Log.sourceName notice.part
  level := notice.level
  text := notice.text
  failure := none

/-- The notice of a table that was built from a list of names. -/
def ofTable (names : List (List Char)) (table : CompletionTable) : Notice :=
  .tableBuilt table.entries.length names.length

/-- The notice of the standard table. -/
def standardTable : Notice :=
  ofTable Vocabulary.functions .standard

/-- The notice of a refused formula, if its refusal is logged. -/
def ofRefusal? : Guard.Refusal → Option Notice
  | .forbiddenCharacters length => some (.charactersBlocked length)
  | .memberAccess => some .memberAccessBlocked
  | _ => none

end Notice
end Command
end FormulaLine
