import FormulaLine.Completion.Order
import FormulaLine.Hint

namespace FormulaLine

/-!
The completion table of a vocabulary.

Every name is followed by its opening parenthesis and cut at each place inside:
the part before the cut is what may have been typed, the part after it is what
completes the call.  The table maps each typed part to the hint that offers all
of its completions, and lists the typed parts in the order in which the
vocabulary first shows them.
-/

/-- A completion table. -/
structure CompletionTable where
  /-- The keys with their hints, in the order in which the keys first appear. -/
  entries : List (List Char × Hint)

/-- Why a vocabulary has no completion table. -/
inductive TableFault where
  /-- A name that has no completion of its own. -/
  | noCompletion (name : List Char)
  /-- A name that is empty or holds a parenthesis. -/
  | invalidName (name : List Char)
  /-- The completions of a key do not form a hint. -/
  | hint (fault : HintFault)

namespace TableFault

def message : TableFault → String
  | .noCompletion name =>
    "Number of completions for " ++ String.ofList (Text.quote name) ++ " is 0"
  | .invalidName name => "Invalid function name " ++ String.ofList (Text.quote name)
  | .hint fault => fault.message

def code : TableFault → String
  | .noCompletion _ => "TABLE_BUILD_ERROR"
  | .invalidName _ => "INVALID_FUNCTION_NAME"
  | .hint _ => "TABLE_BUILD_ERROR"

end TableFault

namespace Completion

/-- A word cut in two: what may have been typed, and what completes it. -/
abbrev Cut := List Char × List Char

/-- The cuts of a word into two nonempty parts, shortest first part first. -/
def cuts : List Char → List Cut
  | [] => []
  | [_] => []
  | c :: d :: rest =>
    ([c], d :: rest) :: (cuts (d :: rest)).map fun cut => (c :: cut.1, cut.2)

/-- For each word in turn, its cuts that no earlier word has. -/
def freshCuts (seen : List Cut) : List (List Char) → List (List Cut)
  | [] => []
  | word :: words =>
    let fresh := (cuts word).filter fun cut => !seen.contains cut
    fresh :: freshCuts (seen ++ fresh) words

/-- A name with its opening parenthesis. -/
def call (name : List Char) : List Char :=
  name ++ ['(']

/-- The different cuts of all calls, in order of first appearance. -/
def cutsOfNames (names : List (List Char)) : List Cut :=
  (freshCuts [] (names.map call)).flatten

/-- The different elements of a list, in order of first appearance. -/
def firstAppearances : List (List Char) → List (List Char)
  | [] => []
  | a :: rest => a :: (firstAppearances rest).filter fun b => b != a

/-- What completes `key` according to the cuts. -/
def completionsOf (key : List Char) (cuts : List Cut) : List (List Char) :=
  (cuts.filter fun cut => cut.1 == key).map Prod.snd

/-- The hint that offers the given completions of one key. -/
def hintOf (completions : List (List Char)) : Except HintFault Hint :=
  match completions with
  | [completion] => .ok (.single completion)
  | _ => Hint.ofMany (sortCandidates completions)

/-- The table entry of a key. -/
def entryOf (cuts : List Cut) (key : List Char) : Except TableFault (List Char × Hint) :=
  match hintOf (completionsOf key cuts) with
  | .ok hint => .ok (key, hint)
  | .error fault => .error (.hint fault)

/-- The table of a list of names. -/
def compile (names : List (List Char)) : Except TableFault CompletionTable :=
  let cuts := cutsOfNames names
  let keys := firstAppearances (cuts.map Prod.fst)
  match names.find? fun name => !keys.contains name with
  | some name => .error (.noCompletion name)
  | none => (keys.mapM (entryOf cuts)).map CompletionTable.mk

/-- Whether the name can be called: it is not empty and holds no parenthesis. -/
def isValidName (name : List Char) : Bool :=
  !name.isEmpty && !name.contains '(' && !name.contains ')'

/-- The table of a list of names that can be called. -/
def build (names : List (List Char)) : Except TableFault CompletionTable :=
  match names.find? fun name => !isValidName name with
  | some name => .error (.invalidName name)
  | none => compile names

end Completion

namespace CompletionTable

/-- The hint of a key. -/
def get? (table : CompletionTable) (key : List Char) : Option Hint :=
  (table.entries.find? fun entry => entry.1 == key).map Prod.snd

/-- The table of the supported functions. -/
def standard : CompletionTable :=
  (Completion.build Vocabulary.functions).toOption.getD ⟨[]⟩

end CompletionTable
end FormulaLine
