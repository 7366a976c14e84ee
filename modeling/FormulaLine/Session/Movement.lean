import FormulaLine.Text.Blank

namespace FormulaLine

/-!
Navigation commands and the keys that give them.
-/

/-- A navigation command. -/
inductive Movement where
  | up
  | down
  | complete
  | none
  deriving DecidableEq

namespace Movement

def name : Movement → List Char
  | .up => "up".toList
  | .down => "down".toList
  | .complete => "complete".toList
  | .none => "none".toList

def ofName? (name : List Char) : Option Movement :=
  [.up, .down, .complete, .none].find? fun movement => movement.name == name

/-- The keys that accept a completion. -/
def completeKeys : List (List Char) :=
  ["tab".toList, "enter".toList, "return".toList, "right".toList]

/-- The keys that move up. -/
def upKeys : List (List Char) := ["up".toList]

/-- The keys that move down. -/
def downKeys : List (List Char) := ["down".toList]

/-- What the names of the arrow keys start with, and what may be left out. -/
def arrow : List Char := "arrow".toList

/-- A key name without surrounding blanks and without the leading `arrow`, in
lower case.  Only ASCII letters are lowered: no letter beyond ASCII becomes part
of a key name. -/
def keyName (key : List Char) : List Char :=
  let name := (Text.trim key).map Char.toLower
  if arrow.isPrefixOf name then name.drop arrow.length else name

/-- The command of a key. -/
def ofKey (key : List Char) : Movement :=
  let name := keyName key
  if completeKeys.contains name then .complete
  else if upKeys.contains name then .up
  else if downKeys.contains name then .down
  else .none

end Movement
end FormulaLine
