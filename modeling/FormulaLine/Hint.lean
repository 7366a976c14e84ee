import FormulaLine.Text.Quoted
import FormulaLine.Vocabulary

namespace FormulaLine

/-!
Hints: what may be appended to the formula that is being typed.

A hint offers nothing, one candidate, or a choice between candidates.  A choice
has at least two candidates, all of them different; the type carries both facts.
-/

inductive Hint where
  | none
  | single (candidate : List Char)
  /-- A choice between candidates in display order. -/
  | many (candidates : List (List Char)) (two_le : 2 ≤ candidates.length)
      (nodup : candidates.Nodup)

/-- The shape of a hint. -/
inductive HintKind where
  | single
  | many
  | none
  deriving DecidableEq

namespace HintKind

def name : HintKind → List Char
  | .single => "single".toList
  | .many => "many".toList
  | .none => "none".toList

def ofName? (name : List Char) : Option HintKind :=
  [.single, .many, .none].find? fun kind => kind.name == name

end HintKind

/-- Why candidates do not form a hint of the wanted kind. -/
inductive HintFault where
  | notSingle (count : Nat)
  | notEmpty
  | tooFew (count : Nat)
  | repeated (candidates : List (List Char))

namespace HintFault

def message : HintFault → String
  | .notSingle count => s!"Single hint needs exactly one candidate, got {count}"
  | .notEmpty => "None hint cannot carry candidates"
  | .tooFew count => s!"Many hint needs at least two candidates, got {count}"
  | .repeated candidates =>
    "Many hint has duplicate candidates: " ++ String.ofList (Text.quoteTuple candidates)

end HintFault

namespace Hint

def kind : Hint → HintKind
  | .none => .none
  | .single _ => .single
  | .many _ _ _ => .many

/-- The candidates in display order. -/
def candidates : Hint → List (List Char)
  | .none => []
  | .single candidate => [candidate]
  | .many candidates _ _ => candidates

/-- A choice between candidates. -/
def ofMany (candidates : List (List Char)) : Except HintFault Hint :=
  if two_le : 2 ≤ candidates.length then
    if nodup : candidates.Nodup then .ok (.many candidates two_le nodup)
    else .error (.repeated candidates)
  else .error (.tooFew candidates.length)

/-- A hint of the given kind. -/
def ofCandidates (kind : HintKind) (candidates : List (List Char)) : Except HintFault Hint :=
  match kind, candidates with
  | .single, [candidate] => .ok (.single candidate)
  | .single, _ => .error (.notSingle candidates.length)
  | .none, [] => .ok .none
  | .none, _ => .error .notEmpty
  | .many, _ => ofMany candidates

/-- The hint of an empty line. -/
def ofEmptyLine : Hint := .single Vocabulary.emptySuggestion

/-- The hint of a line with an open parenthesis. -/
def closing : Hint := .single Vocabulary.closingSuggestion

def single? : Hint → Option (List Char)
  | .single candidate => some candidate
  | _ => Option.none

def many? : Hint → Option (List (List Char))
  | .many candidates _ _ => some candidates
  | _ => Option.none

/-- How the hint is displayed: a single candidate as it is, a choice in
brackets with each candidate between double quotes. -/
def display : Hint → List Char
  | .none => "None".toList
  | .single candidate => candidate
  | .many candidates _ _ =>
    '[' :: ([',', ' '].intercalate (candidates.map fun c => '"' :: (c ++ ['"'])) ++ [']'])

/-- How the hint is described in a session's description. -/
def describe : Hint → List Char
  | .none => "HINT_NONE".toList
  | .single candidate => "Hint.of_single(".toList ++ Text.quote candidate ++ [')']
  | .many candidates _ _ => "Hint.of_many(".toList ++ Text.quoteList candidates ++ [')']

end Hint
end FormulaLine
