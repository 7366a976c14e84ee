namespace FormulaLine

/-!
What reads formulas and prints their values.

The algebra system that does so is called and not written here.  The program gives
it a formula in which every multiplication is written, asks the value for the names
in it and whether it is defined, and prints it; of a failure it looks at the kind and
hands on the message.  Everything else about the system is left open.
-/

/-- The kinds of failures that the program tells apart. -/
inductive FailureKind where
  /-- The text is no formula. -/
  | grammar
  /-- The text cannot be cut into tokens. -/
  | token
  /-- An operation does not apply to values of that type. -/
  | type
  /-- An operation does not apply to that value. -/
  | value
  /-- A word has no meaning. -/
  | name
  /-- A value has no member of that name. -/
  | member
  | zeroDivision
  /-- Any other failure, such as running out of memory. -/
  | other
  deriving DecidableEq

/-- Whether a failure of that kind, while a formula is read, is an error of the
formula. -/
def FailureKind.blamesFormula : FailureKind → Bool
  | .grammar | .token | .type | .value | .name => true
  | .member | .zeroDivision | .other => false

structure Failure where
  kind : FailureKind
  message : List Char
  deriving DecidableEq

/-- A system that reads formulas as expressions of type `α`. -/
structure Interpreter (α : Type) where
  /-- The release that is loaded, or why none can be. -/
  release : Except (List Char) (List Char)
  /-- Reads and evaluates a formula; a value that is no expression is `none`. -/
  read : List Char → Except Failure (Option α)
  /-- The functions without a definition that the expression calls, once for each
  different call. -/
  callNames : α → List (List Char)
  /-- The symbols that are free in the expression. -/
  symbolNames : α → List (List Char)
  /-- Whether something undefined occurs in the expression. -/
  isUndefined : α → Bool
  print : α → Except Failure (List Char)

end FormulaLine
